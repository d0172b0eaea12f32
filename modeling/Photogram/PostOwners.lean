import Photogram.ContentHandlers
import Photogram.PostPhotos

/-!
# Posts and likes of the other users

A request of a client runs one operation at most, for the user its token
names. Only the check of delPostById mentions that user; but keys of posts
are unique, so the row the deletes then find by its key alone is the one that
was checked. What an operation for one user does to the rows of another is a
change of a number of likes, and the loss of likes of a post that goes.
-/

namespace Photogram.PostOwners

open CxxString EffectLog JsonValue RowTable FormDataParser AnotherServerConnection
open ContentConnection ContentHandlers ContentPosts PostPhotos

variable (readInteger : Bytes → Option ℤ) (lists : DbOperation → Tables → Except CxxException Json)
  (jsonParse : Bytes → Option Json) (dump : Json → Option Bytes)

/-- The services of a connection on the tables. -/
def databaseServices (circumstances : Circumstances) : ContentServices Tables where
  jsonParse := jsonParse
  dump := dump
  connect := fun tables => (raise? circumstances.connect,tables)
  operate := operateTables readInteger circumstances lists

/-- A request of a client with the id its token stands for. -/
structure Posting where
  /-- The request. -/
  request : ClientRequest
  /-- Text of the id. -/
  id : Bytes
  /-- How the database treats the operation. -/
  circumstances : Circumstances

/-- Serve a request on the tables. -/
def handle (tables : Tables) (posting : Posting) : Tables :=
  (onGetId (databaseServices readInteger lists jsonParse dump posting.circumstances) posting.request
    posting.id tables).world

/-- Serve requests one after the other. -/
def handleAll (tables : Tables) (postings : List Posting) : Tables :=
  postings.foldl (handle readInteger lists jsonParse dump) tables

/-- The tables stay, or one operation for the user of an id was run. -/
def OneOperation (circumstances : Circumstances) (id : Bytes) (tables after : Tables) : Prop :=
  after=tables ∨ ∃ op,(op.actingUser=none ∨ op.actingUser=some id) ∧
    after=(operateTables readInteger circumstances lists op tables).2

section requests

variable {readInteger lists jsonParse dump} {circumstances : Circumstances} {id : Bytes}

/-- Running no operation leaves the tables. -/
theorem oneOperation_refl :
    ∀ tables : Tables,OneOperation readInteger lists circumstances id tables tables := fun _ => Or.inl rfl

/-- Calling an operation for the user runs it. -/
theorem changes_operate (op : DbOperation) (h : op.actingUser=none ∨ op.actingUser=some id) :
    Changes (OneOperation readInteger lists circumstances id)
      (operate (databaseServices readInteger lists jsonParse dump circumstances) op) :=
  changes_behind (stays_record _) oneOperation_refl fun _ =>
    changes_act fun _ => Or.inr ⟨op,h,rfl⟩

/-- Opening a client leaves the tables. -/
theorem stays_connect :
    Stays (act (databaseServices readInteger lists jsonParse dump circumstances).connect :
      Call Tables ContentEvent Unit) := fun _ => rfl

/-- The target of a GET runs one operation for the user. -/
theorem changes_getTarget (request : ClientRequest) :
    Changes (OneOperation readInteger lists circumstances id)
      (getTarget (databaseServices readInteger lists jsonParse dump circumstances) request id) := by
  unfold getTarget
  split
  · exact (stays_pure _).changes oneOperation_refl
  split
  · refine changes_behind (stays_compute _) oneOperation_refl fun urlStrArg => ?_
    refine changes_before (changes_operate _ (Or.inr rfl)) fun json => ?_
    exact stays_bind (stays_compute _) fun body => stays_pure _
  split
  · refine changes_behind (stays_compute _) oneOperation_refl fun urlStrArg => ?_
    refine changes_before (changes_operate _ (Or.inr rfl)) fun json => ?_
    exact stays_bind (stays_compute _) fun body => stays_pure _
  split
  · refine changes_behind (stays_compute _) oneOperation_refl fun urlStrArg => ?_
    exact changes_before (changes_operate _ (Or.inl rfl)) fun photo => stays_pure _
  · exact (stays_pure _).changes oneOperation_refl

/-- So does the target of a POST. -/
theorem changes_postTarget (request : ClientRequest) :
    Changes (OneOperation readInteger lists circumstances id)
      (postTarget (databaseServices readInteger lists jsonParse dump circumstances) request id) := by
  unfold postTarget
  split
  · exact changes_behind (stays_compute _) oneOperation_refl fun data =>
      changes_operate (.addNewPost id data) (Or.inr rfl)
  split
  · exact changes_behind (stays_compute _) oneOperation_refl fun urlStrArg =>
      changes_operate (.delPostById _ id) (Or.inr rfl)
  split
  · exact changes_behind (stays_compute _) oneOperation_refl fun urlStrArg =>
      changes_operate (.likeClicked _ id) (Or.inr rfl)
  · exact (stays_pure _).changes oneOperation_refl

/-- A request runs one operation for its user at most. -/
theorem changes_onGetId (request : ClientRequest) :
    Changes (OneOperation readInteger lists circumstances id)
      (onGetId (databaseServices readInteger lists jsonParse dump circumstances) request id) := by
  have hanswered : ∀ target : Call Tables ContentEvent Response,
      Changes (OneOperation readInteger lists circumstances id) target →
      Changes (OneOperation readInteger lists circumstances id) (do
        let response ← attempt target (targetError request)
        respond response) := fun target htarget =>
    changes_before (changes_attempt htarget fun _ => stays_pure _) fun response => stays_record _
  have hserve : Changes (OneOperation readInteger lists circumstances id)
      (serveTarget (databaseServices readInteger lists jsonParse dump circumstances) request id) := by
    unfold serveTarget
    cases request.method with
    | get =>
      refine changes_behind stays_connect oneOperation_refl fun _ => ?_
      exact hanswered _ (changes_getTarget request)
    | post =>
      refine hanswered _ (changes_behind stays_connect oneOperation_refl fun _ => ?_)
      exact changes_before (changes_postTarget request) fun _ => stays_pure _
    | options => exact (stays_pure _).changes oneOperation_refl
    | other => exact (stays_pure _).changes oneOperation_refl
  unfold onGetId
  split
  · exact (stays_record _).changes oneOperation_refl
  split
  · exact (stays_record _).changes oneOperation_refl
  split
  · exact (stays_record _).changes oneOperation_refl
  · exact hserve

end requests

/-- A served request leaves the tables, or an operation for its user takes effect. -/
theorem handle_cases (tables : Tables) (posting : Posting) :
    handle readInteger lists jsonParse dump tables posting=tables ∨
      ∃ op,(op.actingUser=none ∨ op.actingUser=some posting.id) ∧
        TakesEffect readInteger posting.circumstances tables
          (handle readInteger lists jsonParse dump tables posting) op := by
  have hone : OneOperation readInteger lists posting.circumstances posting.id tables
      (handle readInteger lists jsonParse dump tables posting) :=
    changes_onGetId posting.request tables
  rcases hone with hsame|⟨op,hop,hafter⟩
  · exact Or.inl hsame
  · have hcases := operateTables_cases readInteger posting.circumstances lists op tables
    rw [←hafter] at hcases
    exact hcases.imp_right fun heffect => ⟨op,hop,heffect⟩

/-- The same post, up to the number of its likes. -/
structure SamePost (post kept : Post) : Prop where
  /-- The key. -/
  id : kept.id=post.id
  /-- The owner. -/
  userId : kept.userId=post.userId
  /-- The date. -/
  datePosted : kept.datePosted=post.datePosted
  /-- The description. -/
  postDescription : kept.postDescription=post.postDescription
  /-- The photo. -/
  photoId : kept.photoId=post.photoId

/-- A post is the same as itself. -/
theorem SamePost.refl (post : Post) : SamePost post post := ⟨rfl,rfl,rfl,rfl,rfl⟩

/-- Being the same post is passed on. -/
theorem SamePost.trans {post kept last : Post} (h : SamePost post kept) (hlast : SamePost kept last) :
    SamePost post last where
  id := hlast.id.trans h.id
  userId := hlast.userId.trans h.userId
  datePosted := hlast.datePosted.trans h.datePosted
  postDescription := hlast.postDescription.trans h.postDescription
  photoId := hlast.photoId.trans h.photoId

/-- A changed number of likes leaves the post the same. -/
theorem samePost_changeLikes (postId : ℤ) (change : Option ℤ → Option ℤ) (post : Post) :
    SamePost post (changeLikes postId change post) := by
  unfold changeLikes
  split
  · exact ⟨rfl,rfl,rfl,rfl,rfl⟩
  · exact SamePost.refl post

section steps

variable {user : ℤ} {tables : Tables} {posting : Posting}

/-- A post of another user is kept by a request. -/
theorem handle_post (hother : readInteger posting.id≠some user) {post : Post}
    (hmem : post ∈ tables.posts.rows) (howner : post.userId=user) :
    ∃ kept ∈ (handle readInteger lists jsonParse dump tables posting).posts.rows,
      SamePost post kept := by
  rcases handle_cases readInteger lists jsonParse dump tables posting with
    hsame|⟨op,hop,heffect⟩
  · rw [hsame]
    exact ⟨post,hmem,SamePost.refl post⟩
  generalize handle readInteger lists jsonParse dump tables posting=after at heffect ⊢
  have hliked : ∀ (postId : ℤ) (change : Option ℤ → Option ℤ),
      ∃ kept ∈ (tables.posts.updateAll (changeLikes postId change)
        (id_changeLikes postId change)).rows,SamePost post kept := fun postId change =>
    ⟨_,(mem_updateAll (id_changeLikes postId change)).mpr ⟨post,hmem,rfl⟩,
      samePost_changeLikes postId change post⟩
  unfold TakesEffect at heffect
  split at heffect
  · obtain ⟨caller,_,rfl⟩ := heffect
    exact ⟨post,(mem_insert rfl).mpr (Or.inl hmem),SamePost.refl post⟩
  · obtain ⟨postId,caller,_,hcaller,⟨row,hrow,hid,hown⟩,rfl⟩ := heffect
    refine ⟨post,mem_deleteWhere.mpr ⟨hmem,?_⟩,SamePost.refl post⟩
    by_contra hdeleted
    have hkey : row.id=post.id := by
      simp only [Bool.not_eq_false,decide_eq_true_eq] at hdeleted
      omega
    have hsame : row=post := eq_of_key_eq tables.posts hrow hmem hkey
    have hid' : posting.id=_ := (Option.some.inj (hop.resolve_left nofun)).symm
    refine hother ?_
    rw [hid',hcaller,←hown,hsame,howner]
  · obtain ⟨postId,caller,_,_,rfl|rfl⟩ := heffect
    · exact hliked _ _
    · exact hliked _ _
  · exact heffect.elim

/-- A like of another user is kept by a request, or goes with a post of the caller. -/
theorem handle_like (hother : readInteger posting.id≠some user) {like : Like}
    (hmem : like ∈ tables.likes.rows) (howner : like.userId=user)
    (hgone : like ∉ (handle readInteger lists jsonParse dump tables posting).likes.rows) :
    ∃ post ∈ tables.posts.rows,like.postId=post.id ∧ readInteger posting.id=some post.userId ∧
      ∀ row ∈ (handle readInteger lists jsonParse dump tables posting).posts.rows,
        row.id≠post.id := by
  rcases handle_cases readInteger lists jsonParse dump tables posting with
    hsame|⟨op,hop,heffect⟩
  · rw [hsame] at hgone
    exact absurd hmem hgone
  generalize handle readInteger lists jsonParse dump tables posting=after at heffect hgone ⊢
  unfold TakesEffect at heffect
  split at heffect
  · obtain ⟨caller,_,rfl⟩ := heffect
    exact absurd hmem hgone
  · obtain ⟨postId,caller,_,hcaller,⟨row,hrow,hid,hown⟩,rfl⟩ := heffect
    have hid' : posting.id=_ := (Option.some.inj (hop.resolve_left nofun)).symm
    have hpost : like.postId=postId := by
      by_contra hne
      exact hgone (mem_deleteWhere.mpr ⟨hmem,decide_eq_false hne⟩)
    refine ⟨row,hrow,hpost.trans hid.symm,by rw [hid',hcaller,hown],fun kept hkept heq => ?_⟩
    have hnot := (mem_deleteWhere.mp hkept).2
    rw [decide_eq_false_iff_not,heq] at hnot
    exact hnot hid
  · obtain ⟨postId,caller,hcaller,_,rfl|rfl⟩ := heffect
    · exact absurd ((mem_insert rfl).mpr (Or.inl hmem)) hgone
    · have hid' : posting.id=_ := (Option.some.inj (hop.resolve_left nofun)).symm
      refine absurd (mem_deleteWhere.mpr ⟨hmem,decide_eq_false ?_⟩) hgone
      rintro ⟨_,hlike⟩
      refine hother ?_
      rw [hid',hcaller,←hlike,howner]
  · exact heffect.elim

end steps

/-- A like of a user went with a post of the caller in one of the requests. -/
def WentWithPost (tables : Tables) (postings : List Posting) (like : Like) : Prop :=
  ∃ before posting after,postings=before++posting::after ∧
    like ∈ (handleAll readInteger lists jsonParse dump tables before).likes.rows ∧
    like ∉ (handleAll readInteger lists jsonParse dump tables (before++[posting])).likes.rows ∧
    ∃ post ∈ (handleAll readInteger lists jsonParse dump tables before).posts.rows,
      like.postId=post.id ∧ readInteger posting.id=some post.userId ∧
        ∀ row ∈ (handleAll readInteger lists jsonParse dump tables (before++[posting])).posts.rows,
          row.id≠post.id

/-- The caller owns no post of the key. -/
def NotOwned (tables : Tables) (postId id : Bytes) : Prop :=
  ∀ post ∈ tables.posts.rows,readInteger postId=some (post.id : ℤ) →
    readInteger id≠some post.userId

section runs

variable {readInteger lists jsonParse dump}

/-- A post of another user is kept by any number of requests. -/
theorem handleAll_post {user : ℤ} (postings : List Posting) {tables : Tables}
    (hothers : ∀ posting ∈ postings,readInteger posting.id≠some user) {post : Post}
    (hmem : post ∈ tables.posts.rows) (howner : post.userId=user) :
    ∃ kept ∈ (handleAll readInteger lists jsonParse dump tables postings).posts.rows,
      SamePost post kept := by
  induction postings generalizing tables post with
  | nil => exact ⟨post,hmem,SamePost.refl post⟩
  | cons posting rest ih =>
    obtain ⟨kept,hkept,hsame⟩ := handle_post readInteger lists jsonParse dump
      (hothers posting List.mem_cons_self) hmem howner
    obtain ⟨last,hlast,hsameLast⟩ := ih
      (fun other hother => hothers other (List.mem_cons_of_mem _ hother)) hkept
      (hsame.userId.trans howner)
    exact ⟨last,hlast,hsame.trans hsameLast⟩

/-- A like of another user that is gone behind requests went with a post of a caller. -/
theorem handleAll_like {user : ℤ} (postings : List Posting) {tables : Tables}
    (hothers : ∀ posting ∈ postings,readInteger posting.id≠some user) {like : Like}
    (hmem : like ∈ tables.likes.rows) (howner : like.userId=user)
    (hgone : like ∉ (handleAll readInteger lists jsonParse dump tables postings).likes.rows) :
    WentWithPost readInteger lists jsonParse dump tables postings like := by
  induction postings generalizing tables with
  | nil => exact absurd hmem hgone
  | cons posting rest ih =>
    by_cases hnext : like ∈ (handle readInteger lists jsonParse dump tables posting).likes.rows
    · obtain ⟨before,last,after,hsplit,hlater⟩ := ih
        (fun other hother => hothers other (List.mem_cons_of_mem _ hother)) hnext hgone
      exact ⟨posting::before,last,after,by rw [hsplit]; rfl,hlater⟩
    · exact ⟨[],posting,rest,rfl,hmem,hnext,
        handle_like readInteger lists jsonParse dump (hothers posting List.mem_cons_self) hmem howner hnext⟩

/-- A deletion by somebody who does not own the post raises and leaves the
tables; without a failure of the database it raises the error of a bad request. -/
theorem delPostById_refused {tables : Tables} {circumstances : Circumstances} {postId id : Bytes}
    (h : NotOwned readInteger tables postId id) :
    (delPostById readInteger circumstances postId id tables).2=tables ∧
      (circumstances.Healthy → (readInteger postId).isSome → (readInteger id).isSome →
        (delPostById readInteger circumstances postId id tables).1=.error badRequestError) := by
  have hnone : ∀ post user,readInteger postId=some post → readInteger id=some user →
      (tables.posts.rows.any fun row => row.id=post ∧ row.userId=user)=false := by
    intro post user hpost huser
    rw [List.any_eq_false]
    intro row hmem
    rw [decide_eq_true_eq]
    rintro ⟨hid,howner⟩
    exact h row hmem (by rw [hpost,hid]) (by rw [huser,howner])
  constructor
  · have hcases := operateTables_cases readInteger circumstances (fun _ _ => .ok .null)
      (.delPostById postId id) tables
    rcases hcases with hsame|⟨post,user,hpost,huser,⟨row,hmem,hid,howner⟩,_⟩
    · exact hsame
    · exact absurd (by rw [huser,howner]) (h row hmem (by rw [hpost,hid]))
  · intro hhealthy hpost huser
    obtain ⟨post,hpost⟩ := Option.isSome_iff_exists.mp hpost
    obtain ⟨user,huser⟩ := Option.isSome_iff_exists.mp huser
    have hstatement : ∀ number,statement circumstances number=.ok () := fun number =>
      congrArg raise? (hhealthy.fault number)
    have hwork : delPostByIdWork readInteger circumstances postId id tables=
        .error (.runtimeError "Bad request") := by
      unfold delPostByIdWork integer
      rw [hstatement 0,hstatement 1,hpost,huser]
      change (if _ then _ else _)=_
      rw [if_neg (by rw [hnone post user hpost huser]; exact Bool.false_ne_true)]
      rfl
    unfold delPostById
    rw [hwork]
    rfl

end runs

/-- Requests of other users keep every post of a user with its owner, date,
description and photo; a like of the user only goes with a post of the
caller; and a deletion of a post the caller does not own leaves posts and
likes and is refused. -/
theorem others_kept (user : ℤ) (tables : Tables) (postings : List Posting)
    (hothers : ∀ posting ∈ postings,readInteger posting.id≠some user) :
    (∀ post ∈ tables.posts.rows,post.userId=user →
        ∃ kept ∈ (handleAll readInteger lists jsonParse dump tables postings).posts.rows,
          SamePost post kept) ∧
      (∀ like ∈ tables.likes.rows,like.userId=user →
        like ∉ (handleAll readInteger lists jsonParse dump tables postings).likes.rows →
          WentWithPost readInteger lists jsonParse dump tables postings like) ∧
      ∀ circumstances postId id,NotOwned readInteger tables postId id →
        (delPostById readInteger circumstances postId id tables).2=tables ∧
          (circumstances.Healthy → (readInteger postId).isSome → (readInteger id).isSome →
            (delPostById readInteger circumstances postId id tables).1=.error badRequestError) :=
  ⟨fun _ hmem howner => handleAll_post postings hothers hmem howner,
    fun _ hmem howner hgone => handleAll_like postings hothers hmem howner hgone,
    fun _ _ _ h => delPostById_refused h⟩

section shared

/-- A post of user 7 and a post of user 8, which user 7 likes. -/
def shared : Tables := ((noRows.addPost 7 0 (ascii "mine") 1).addPost 8 0 (ascii "theirs") 2).addLike 2 7

/-- A deletion by a user. -/
def deletion (postId id : Bytes) : Posting :=
  ⟨plainRequest .post (ascii "/deletePost?post_id="++postId),id,healthy⟩

/-- User 8 deletes its own post, with the like on it, and user 9 fails to
delete that of user 7. -/
theorem others_kept_shared :
    (∃ kept ∈ (handleAll readDigit noLists parsePlain dumpPlain shared
        [deletion (ascii "2") (ascii "8"),deletion (ascii "1") (ascii "9")]).posts.rows,
      SamePost ⟨1,7,0,ascii "mine",none,1⟩ kept) ∧
      WentWithPost readDigit noLists parsePlain dumpPlain shared
        [deletion (ascii "2") (ascii "8"),deletion (ascii "1") (ascii "9")] ⟨1,2,7⟩ ∧
      (delPostById readDigit healthy (ascii "1") (ascii "9") shared).1=.error badRequestError := by
  have hkept := others_kept readDigit noLists parsePlain dumpPlain 7 shared
    [deletion (ascii "2") (ascii "8"),deletion (ascii "1") (ascii "9")] (by decide +kernel)
  refine ⟨hkept.1 ⟨1,7,0,ascii "mine",none,1⟩ (by decide +kernel) rfl,
    hkept.2.1 ⟨1,2,7⟩ (by decide +kernel) rfl (by decide +kernel),
    (hkept.2.2 healthy (ascii "1") (ascii "9") ?_).2 ⟨fun _ => rfl,rfl⟩ rfl rfl⟩
  unfold NotOwned
  decide +kernel

end shared

end Photogram.PostOwners
