import Photogram.ContentPosts

/-!
# Photos of posts

A post and its photo are written by one transaction, so a photo row always
starts out with a post. No operation ever deletes a photo row: deleting a
post leaves its photo behind, where it can still be read by its key, and
because keys are handed out once no later post takes it over.
-/

namespace Photogram.PostPhotos

open CxxString JsonValue RowTable Schedule FormDataParser ContentConnection ContentPosts

variable (readInteger : Bytes → Option ℤ) (lists : DbOperation → Tables → Except CxxException Json)

/-- An operation with the circumstances it meets. -/
abbrev Move := Circumstances×DbOperation

/-- Run an operation, whether it returns or raises. -/
def step (tables : Tables) (move : Move) : Option Tables :=
  some (operateTables readInteger move.1 lists move.2 tables).2

/-- Every photo belongs to a post. -/
def NoOrphans (tables : Tables) : Prop :=
  ∀ photo ∈ tables.postPhotos.rows,∃ post ∈ tables.posts.rows,post.photoId=photo.id

/-- No statement of a transaction fails, and its writes are kept. -/
def Kept (circumstances : Circumstances) : Prop :=
  (∀ number<4,circumstances.fault number=none) ∧
    ∀ raised,circumstances.commit=some raised → raised.2=true

/-- A call deletes a post: the caller owns it and nothing fails. -/
def Deletes (tables : Tables) (circumstances : Circumstances) (postId id : Bytes) : Prop :=
  Kept circumstances ∧ ∃ post user,readInteger postId=some post ∧ readInteger id=some user ∧
    ∃ row ∈ tables.posts.rows,(row.id : ℤ)=post ∧ row.userId=user

/-- The operation deletes no post. -/
def KeepsPosts (tables : Tables) (move : Move) : Prop :=
  match move.2 with
  | .delPostById postId id => ¬Deletes readInteger tables move.1 postId id
  | _ => True

/-- The tables hold no row. -/
structure NoRows (tables : Tables) : Prop where
  /-- No post. -/
  posts : tables.posts.rows=[]
  /-- No like. -/
  likes : tables.likes.rows=[]
  /-- No photo. -/
  postPhotos : tables.postPhotos.rows=[]

/-- No two posts share a photo, and every post has the row of its photo. -/
structure Paired (tables : Tables) : Prop where
  /-- Photos are not shared. -/
  distinct : UniqueBy Post.photoId tables.posts.rows
  /-- Photos exist. -/
  photo : ∀ post ∈ tables.posts.rows,∃ photo ∈ tables.postPhotos.rows,photo.id=post.photoId

section deletion

variable {readInteger}

/-- No statement of a kept transaction fails. -/
theorem statement_of_kept {circumstances : Circumstances}
    (h : ∀ number<4,circumstances.fault number=none) (number : ℕ) (hlt : number<4) :
    statement circumstances number=.ok () := congrArg raise? (h number hlt)

/-- A kept transaction leaves what it wrote. -/
theorem finish_kept {circumstances : Circumstances}
    (h : ∀ raised,circumstances.commit=some raised → raised.2=true) (tables written : Tables) :
    (finish circumstances tables (.ok written)).2=written := by
  unfold finish
  cases hcommit : circumstances.commit with
  | none => rfl
  | some raised =>
    have hkept := h raised hcommit
    obtain ⟨e,kept⟩ := raised
    cases hkept
    rfl

/-- A deletion that takes place deletes the post of its key. -/
theorem delPostById_deletes {tables : Tables} {circumstances : Circumstances} {postId id : Bytes}
    (h : Deletes readInteger tables circumstances postId id) :
    ∃ row ∈ tables.posts.rows,
      (delPostById readInteger circumstances postId id tables).2=tables.deletePost row.id := by
  obtain ⟨⟨hfault,hcommit⟩,post,user,hpost,huser,row,hmem,hid,howner⟩ := h
  refine ⟨row,hmem,?_⟩
  have hstatement := statement_of_kept hfault
  have hown : (tables.posts.rows.any fun row => row.id=post ∧ row.userId=user)=true :=
    List.any_eq_true.mpr ⟨row,hmem,by simp [hid,howner]⟩
  have hwork : delPostByIdWork readInteger circumstances postId id tables=
      .ok (tables.deletePost post) := by
    unfold delPostByIdWork integer
    rw [hstatement 0 (by decide),hstatement 1 (by decide),hpost,huser]
    change (if _ then _ else _)=_
    rw [if_pos hown,hstatement 2 (by decide),hstatement 3 (by decide)]
    rfl
  have hended := delPostById_ended readInteger circumstances postId id tables
  rw [hended,hwork,hid,finish_kept hcommit]

/-- A statement that returns does not fail. -/
theorem statement_ok {circumstances : Circumstances} {number : ℕ} {value : Unit}
    (h : statement circumstances number=.ok value) : circumstances.fault number=none := by
  unfold statement raise? at h
  split at h
  · cases h
  · next hnone => exact hnone

/-- Four statements that all return do not fail. -/
theorem fault_none {circumstances : Circumstances} {zero one two three : Unit}
    (hzero : statement circumstances 0=.ok zero) (hone : statement circumstances 1=.ok one)
    (htwo : statement circumstances 2=.ok two) (hthree : statement circumstances 3=.ok three) :
    ∀ number<4,circumstances.fault number=none := by
  intro number hlt
  have hcase : number=0 ∨ number=1 ∨ number=2 ∨ number=3 := by omega
  rcases hcase with rfl|rfl|rfl|rfl
  · exact statement_ok hzero
  · exact statement_ok hone
  · exact statement_ok htwo
  · exact statement_ok hthree

/-- The statements of delPostById only succeed for a post of the caller. -/
theorem delPostByIdWork_deletes {tables after : Tables} {circumstances : Circumstances}
    {postId id : Bytes} (h : delPostByIdWork readInteger circumstances postId id tables=.ok after)
    (hcommit : ∀ raised,circumstances.commit=some raised → raised.2=true) :
    Deletes readInteger tables circumstances postId id := by
  obtain ⟨_,hzero,hrest⟩ := except_bind_ok h
  obtain ⟨_,hone,hrest⟩ := except_bind_ok hrest
  obtain ⟨post,_,hrest⟩ := except_bind_ok hrest
  obtain ⟨user,_,hrest⟩ := except_bind_ok hrest
  obtain ⟨post,user,hpost,huser,hrow,_⟩ := delPostByIdWork_ok readInteger circumstances h
  refine ⟨⟨?_,hcommit⟩,post,user,hpost,huser,hrow⟩
  split at hrest
  · obtain ⟨_,htwo,hrest⟩ := except_bind_ok hrest
    obtain ⟨_,hthree,_⟩ := except_bind_ok hrest
    exact fault_none hzero hone htwo hthree
  · cases hrest

/-- Any other call of delPostById leaves the tables as they were. -/
theorem delPostById_keeps {tables : Tables} {circumstances : Circumstances} {postId id : Bytes}
    (h : ¬Deletes readInteger tables circumstances postId id) :
    (delPostById readInteger circumstances postId id tables).2=tables := by
  rw [delPostById_ended]
  unfold finish
  cases hwork : delPostByIdWork readInteger circumstances postId id tables with
  | error e => rfl
  | ok written =>
    have hlost : ∃ raised,circumstances.commit=some raised ∧ raised.2=false := by
      by_contra hnone
      refine h (delPostByIdWork_deletes hwork fun raised hraised => ?_)
      cases hkept : raised.2 with
      | true => rfl
      | false => exact absurd ⟨raised,hraised,hkept⟩ hnone
    obtain ⟨⟨e,kept⟩,hraised,rfl⟩ := hlost
    dsimp only
    rw [hraised]
    rfl

end deletion

section keys

/-- A changed number of likes leaves the photo of a post. -/
theorem photoId_changeLikes (postId : ℤ) (change : Option ℤ → Option ℤ) (row : Post) :
    (changeLikes postId change row).photoId=row.photoId := by
  unfold changeLikes
  split <;> rfl

/-- Changed numbers of likes leave posts and photos paired. -/
theorem Paired.changeLikes {tables : Tables} (h : Paired tables) (likes : Table Like.id)
    (postId : ℤ) (change : Option ℤ → Option ℤ) :
    Paired {tables with
      likes := likes,
      posts := tables.posts.updateAll (ContentPosts.changeLikes postId change)
        (id_changeLikes postId change)} where
  distinct := by
    change (tables.posts.rows.map _).Pairwise _
    rw [List.pairwise_map]
    exact h.distinct.imp fun hne => by rwa [photoId_changeLikes,photoId_changeLikes]
  photo := by
    intro post hmem
    obtain ⟨old,hold,rfl⟩ := (mem_updateAll (id_changeLikes _ _)).mp hmem
    rw [photoId_changeLikes]
    exact h.photo old hold

/-- A post with a new photo leaves posts and photos paired. -/
theorem Paired.addPost {tables : Tables} (h : Paired tables) (photoType photo : Bytes) (user : ℤ)
    (datePosted : ℕ) (description : Bytes) :
    Paired ((tables.addPhoto photoType photo).addPost user datePosted description
      tables.postPhotos.next) where
  distinct := by
    refine uniqueBy_append h.distinct fun other hother => ?_
    obtain ⟨row,hrow,hid⟩ := h.photo other hother
    have hlt := tables.postPhotos.key_lt row hrow
    change other.photoId≠tables.postPhotos.next
    omega
  photo := by
    intro post hmem
    rcases (mem_insert rfl).mp hmem with hold|rfl
    · obtain ⟨row,hrow,hid⟩ := h.photo post hold
      exact ⟨row,(mem_insert rfl).mpr (Or.inl hrow),hid⟩
    · exact ⟨_,(mem_insert rfl).mpr (Or.inr rfl),rfl⟩

/-- A deleted post leaves posts and photos paired. -/
theorem Paired.deletePost {tables : Tables} (h : Paired tables) (postId : ℤ) :
    Paired (tables.deletePost postId) where
  distinct := h.distinct.filter _
  photo := fun post hmem => h.photo post (mem_deleteWhere.mp hmem).1

/-- Every operation leaves posts and photos paired. -/
theorem step_paired {tables next : Tables} {move : Move} (h : Paired tables)
    (hstep : step readInteger lists tables move=some next) : Paired next := by
  cases hstep
  rcases operateTables_cases readInteger move.1 lists move.2 tables with hsame|heffect
  · rw [hsame]
    exact h
  · generalize (operateTables readInteger move.1 lists move.2 tables).2=after at heffect ⊢
    unfold TakesEffect at heffect
    split at heffect
    · obtain ⟨user,_,rfl⟩ := heffect
      exact h.addPost _ _ _ _ _
    · obtain ⟨post,user,_,_,_,rfl⟩ := heffect
      exact h.deletePost post
    · obtain ⟨post,user,_,_,rfl|rfl⟩ := heffect
      · exact h.changeLikes _ _ _
      · exact h.changeLikes _ _ _
    · exact heffect.elim

/-- A post with a new photo adds no orphan. -/
theorem noOrphans_addPost_iff (tables : Tables) (photoType photo : Bytes) (user : ℤ)
    (datePosted : ℕ) (description : Bytes) :
    NoOrphans ((tables.addPhoto photoType photo).addPost user datePosted description
      tables.postPhotos.next) ↔ NoOrphans tables := by
  constructor
  · intro hall row hrow
    obtain ⟨post,hmem,hid⟩ := hall row ((mem_insert rfl).mpr (Or.inl hrow))
    rcases (mem_insert rfl).mp hmem with hold|rfl
    · exact ⟨post,hold,hid⟩
    · exact absurd hid (Nat.ne_of_gt (tables.postPhotos.key_lt row hrow))
  · intro hall row hmem
    rcases (mem_insert rfl).mp hmem with hold|rfl
    · obtain ⟨post,hpost,hid⟩ := hall row hold
      exact ⟨post,(mem_insert rfl).mpr (Or.inl hpost),hid⟩
    · exact ⟨_,(mem_insert rfl).mpr (Or.inr rfl),rfl⟩

/-- Changed numbers of likes make no difference to orphans. -/
theorem noOrphans_changeLikes_iff (tables : Tables) (likes : Table Like.id) (postId : ℤ)
    (change : Option ℤ → Option ℤ) :
    NoOrphans {tables with
      likes := likes,
      posts := tables.posts.updateAll (ContentPosts.changeLikes postId change)
        (id_changeLikes postId change)} ↔ NoOrphans tables := by
  refine forall_congr' fun photo => forall_congr' fun _ => ?_
  constructor
  · rintro ⟨post,hmem,hid⟩
    obtain ⟨old,hold,rfl⟩ := (mem_updateAll (id_changeLikes _ _)).mp hmem
    rw [photoId_changeLikes] at hid
    exact ⟨old,hold,hid⟩
  · rintro ⟨post,hmem,hid⟩
    exact ⟨_,(mem_updateAll (id_changeLikes _ _)).mpr ⟨post,hmem,rfl⟩,(photoId_changeLikes _ _ _).trans hid⟩

/-- A deleted post leaves its photo an orphan. -/
theorem deletePost_orphan {tables : Tables} (h : Paired tables) {post : Post}
    (hmem : post ∈ tables.posts.rows) : ¬NoOrphans (tables.deletePost post.id) := by
  intro hall
  obtain ⟨row,hrow,hid⟩ := h.photo post hmem
  obtain ⟨other,hother,hphoto⟩ := hall row hrow
  obtain ⟨hold,hkept⟩ := mem_deleteWhere.mp hother
  rw [h.distinct.eq hold hmem (hphoto.trans hid)] at hkept
  simp at hkept

/-- Behind an operation every photo belongs to a post exactly when this held
before and the operation deletes no post. -/
theorem step_noOrphans_iff {tables next : Tables} {move : Move} (h : Paired tables)
    (hstep : step readInteger lists tables move=some next) :
    NoOrphans next ↔ NoOrphans tables ∧ KeepsPosts readInteger tables move := by
  cases hstep
  obtain ⟨circumstances,op⟩ := move
  have hother : ∀ {after : Tables},(after=tables ∨
      TakesEffect readInteger circumstances tables after op) →
      (∀ postId id,op≠.delPostById postId id) → (NoOrphans after ↔ NoOrphans tables) := by
    rintro after (hsame|heffect) hdelete
    · rw [hsame]
    · unfold TakesEffect at heffect
      split at heffect
      · obtain ⟨user,_,rfl⟩ := heffect
        exact noOrphans_addPost_iff _ _ _ _ _ _
      · exact absurd rfl (hdelete _ _)
      · obtain ⟨post,user,_,_,rfl|rfl⟩ := heffect
        · exact noOrphans_changeLikes_iff _ _ _ _
        · exact noOrphans_changeLikes_iff _ _ _ _
      · exact heffect.elim
  have hcases := operateTables_cases readInteger circumstances lists op tables
  cases op with
  | delPostById postId id =>
    change NoOrphans (delPostById readInteger circumstances postId id tables).2 ↔
      NoOrphans tables ∧ ¬Deletes readInteger tables circumstances postId id
    by_cases hdeletes : Deletes readInteger tables circumstances postId id
    · obtain ⟨row,hmem,hafter⟩ := delPostById_deletes hdeletes
      rw [hafter]
      exact iff_of_false (deletePost_orphan h hmem) fun hkeeps => hkeeps.2 hdeletes
    · rw [delPostById_keeps hdeletes]
      exact ⟨fun hall => ⟨hall,hdeletes⟩,fun hall => hall.1⟩
  | getPostsList id limit offset => exact (hother hcases nofun).trans (and_iff_left trivial).symm
  | getPostsListById authorId userId limit offset =>
    exact (hother hcases nofun).trans (and_iff_left trivial).symm
  | getPostPhotoById photoId => exact (hother hcases nofun).trans (and_iff_left trivial).symm
  | addNewPost userId propertyMap => exact (hother hcases nofun).trans (and_iff_left trivial).symm
  | likeClicked postId userId => exact (hother hcases nofun).trans (and_iff_left trivial).symm

/-- Behind a run every photo belongs to a post exactly when this held in
front of it and none of its operations deleted a post. -/
theorem run_noOrphans_iff {tables final : Tables} {schedule : List Move} (h : Paired tables)
    (hrun : run (step readInteger lists) tables schedule=some final) :
    NoOrphans final ↔ NoOrphans tables ∧
      EachMeets (step readInteger lists) (KeepsPosts readInteger) tables schedule := by
  induction schedule generalizing tables with
  | nil =>
    cases hrun
    exact (and_iff_left trivial).symm
  | cons move rest ih =>
    have hstep : step readInteger lists tables move=
        some (operateTables readInteger move.1 lists move.2 tables).2 := rfl
    unfold run at hrun
    rw [hstep] at hrun
    unfold EachMeets
    rw [hstep,ih (step_paired readInteger lists h hstep) hrun,
      step_noOrphans_iff readInteger lists h hstep,and_assoc]

end keys

/-- A photo that is read has a row. -/
theorem getPostPhotoById_row {circumstances : Circumstances} {photoId : Bytes} {tables : Tables}
    {photo : Bytes×Bytes}
    (h : getPostPhotoById readInteger circumstances photoId tables=.ok photo) :
    ∃ row ∈ tables.postPhotos.rows,readInteger photoId=some (row.id : ℤ) ∧
      photo=(row.photoType,row.photo) := by
  unfold getPostPhotoById at h
  cases hwork : getPostPhotoByIdWork readInteger circumstances photoId tables with
  | error e =>
    rw [hwork] at h
    cases h
  | ok found =>
    rw [hwork] at h
    cases h
    obtain ⟨_,_,hwork⟩ := except_bind_ok hwork
    obtain ⟨_,_,hwork⟩ := except_bind_ok hwork
    obtain ⟨value,hvalue,hwork⟩ := except_bind_ok hwork
    obtain ⟨_,_,hwork⟩ := except_bind_ok hwork
    split at hwork
    · next row hrows =>
      cases hwork
      have hmem : row ∈ tables.postPhotos.rows.filter fun row => (row.id : ℤ)=value := by
        rw [hrows]
        exact List.mem_singleton_self row
      obtain ⟨hrow,hid⟩ := List.mem_filter.mp hmem
      refine ⟨row,hrow,?_,rfl⟩
      rw [integer_ok readInteger hvalue,of_decide_eq_true hid]
    · cases hwork

/-- From empty tables on, every photo belongs to a post exactly as long as no
call of delPostById deletes a post; and then a photo that can be read by its
key is that of a post. -/
theorem noOrphans_iff {start final : Tables} (hstart : NoRows start) (schedule : List Move)
    (hrun : run (step readInteger lists) start schedule=some final) :
    (NoOrphans final ↔
        EachMeets (step readInteger lists) (KeepsPosts readInteger) start schedule) ∧
      (EachMeets (step readInteger lists) (KeepsPosts readInteger) start schedule →
        ∀ circumstances photoId photo,
          getPostPhotoById readInteger circumstances photoId final=.ok photo →
            ∃ post ∈ final.posts.rows,readInteger photoId=some (post.photoId : ℤ)) := by
  have hpaired : Paired start := by
    refine ⟨?_,fun post hmem => ?_⟩
    · rw [hstart.posts]
      exact List.Pairwise.nil
    · rw [hstart.posts] at hmem
      exact absurd hmem List.not_mem_nil
  have hnone : NoOrphans start := by
    intro photo hmem
    rw [hstart.postPhotos] at hmem
    exact absurd hmem List.not_mem_nil
  have hiff : NoOrphans final ↔
      EachMeets (step readInteger lists) (KeepsPosts readInteger) start schedule :=
    (run_noOrphans_iff readInteger lists hpaired hrun).trans (and_iff_right hnone)
  refine ⟨hiff,fun hkeeps circumstances photoId photo hread => ?_⟩
  obtain ⟨row,hrow,hid,_⟩ := getPostPhotoById_row readInteger hread
  obtain ⟨post,hmem,hphoto⟩ := hiff.mpr hkeeps row hrow
  exact ⟨post,hmem,by rw [hid,hphoto]⟩

section deleted

/-- Tables without rows. -/
def noRows : Tables := ⟨Table.empty _,Table.empty _,Table.empty _⟩

/-- Decimal numerals of one digit. -/
def readDigit : Bytes → Option ℤ
  | [digit] => if isDigit digit then some (digit.toNat-48 : ℕ) else none
  | _ => none

/-- Nothing fails. -/
def healthy : Circumstances := ⟨none,fun _ => none,none,0⟩

/-- No lists. -/
def noLists : DbOperation → Tables → Except CxxException Json := fun _ _ => .ok .null

/-- A form with a photo. -/
def photoForm : FieldMap :=
  (∅ : FieldMap).insert (ascii "photo") (ascii "bytes")|>.insert (ascii "Content-Type")
    (ascii "image/png")

/-- A post is added and liked, and its photo belongs to it. -/
theorem noOrphans_added :
    NoOrphans ((operateTables readDigit healthy noLists (.likeClicked (ascii "1") (ascii "8"))
      (operateTables readDigit healthy noLists (.addNewPost (ascii "7") photoForm) noRows).2).2) :=
  (noOrphans_iff readDigit noLists ⟨rfl,rfl,rfl⟩
    [(healthy,.addNewPost (ascii "7") photoForm),(healthy,.likeClicked (ascii "1") (ascii "8"))]
    rfl).1.mpr ⟨trivial,trivial,trivial⟩

/-- A post is added and deleted by its owner, and its photo can still be read. -/
theorem orphan_deleted :
    ∃ final,run (step readDigit noLists) noRows [(healthy,.addNewPost (ascii "7") photoForm),
        (healthy,.delPostById (ascii "1") (ascii "7"))]=some final ∧
      final.posts.rows=[] ∧ ¬NoOrphans final ∧
      getPostPhotoById readDigit healthy (ascii "1") final=.ok (ascii "image/png",ascii "bytes") := by
  obtain ⟨final,hrun,hposts,hphotos,hread⟩ : ∃ final,
      run (step readDigit noLists) noRows [(healthy,.addNewPost (ascii "7") photoForm),
        (healthy,.delPostById (ascii "1") (ascii "7"))]=some final ∧
      final.posts.rows=[] ∧ final.postPhotos.rows≠[] ∧
      getPostPhotoById readDigit healthy (ascii "1") final=
        .ok (ascii "image/png",ascii "bytes") :=
    ⟨_,rfl,by decide +kernel,by decide +kernel,by decide +kernel⟩
  refine ⟨final,hrun,hposts,fun hall => ?_,hread⟩
  obtain ⟨photo,rest,hphoto⟩ := List.exists_cons_of_ne_nil hphotos
  obtain ⟨post,hmem,_⟩ := hall photo (by rw [hphoto]; exact List.mem_cons_self)
  rw [hposts] at hmem
  exact absurd hmem List.not_mem_nil

end deleted

end Photogram.PostPhotos
