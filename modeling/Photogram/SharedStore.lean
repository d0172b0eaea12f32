import Photogram.AuthStore
import Photogram.LikeToggle
import Photogram.Schedule
import Photogram.SocialNetwork

/-!
# The database under both servers

All transactions of both servers on one database, in any order. A
registration is three transactions with others between them; where one of the
last two fails, its catch clause undoes what was done in two more, whose own
failure nobody notices.
-/

namespace Photogram.SharedStore

open CxxString JsonValue QueryString RowTable AuthHttpParser AuthConnection AuthDatabase
open AuthRegistration AuthPhotos ContentConnection ContentPosts PagedQuery ListPages LikeToggle
open PostPhotos Schedule AuthStore SocialNetwork

/-- A registration behind its first transaction. -/
inductive Stage where
  /-- The user is inserted. -/
  | inserted (userProperties : PropertyMap) (binaryData : Bytes)
  /-- The photo is inserted as well. -/
  | pictured (userProperties : PropertyMap) (binaryData : Bytes) (photoId : ℕ)
  /-- An exception is caught; the photo is to be deleted first, if there is one. -/
  | undoing (photoId : Option ℕ)

/-- Key of the photo a registration has inserted. -/
def Stage.photoId : Stage → Option ℕ
  | .inserted _ _ => none
  | .pictured _ _ photoId => some photoId
  | .undoing photoId => photoId

/-- The tables, and the registrations under way by the key of their user. -/
structure Site where
  /-- The tables. -/
  store : Store
  /-- The registrations. -/
  registering : ℕ → Option Stage

/-- A transaction, as it ends. -/
inductive Move where
  /-- That of a call of the authentication server. -/
  | call (conditions : Conditions) (call : DbCall)
  /-- That of an operation of the content server. -/
  | operation (circumstances : Circumstances) (arrangement : Arrangement latestFirst)
    (op : DbOperation)
  /-- The first one of a registration. -/
  | addProperties (broken : Bool) (userProperties : PropertyMap) (binaryData : Bytes)
  /-- The second one of the registration of a user. -/
  | addNewPhoto (broken : Bool) (userId : ℕ)
  /-- The last one of the registration of a user. -/
  | connectPropertiesAndPhoto (broken : Bool) (userId : ℕ)
  /-- The first one of its catch clause. -/
  | deletePhoto (broken : Bool) (userId : ℕ)
  /-- The last one of its catch clause. -/
  | deleteRow (broken : Bool) (userId : ℕ)

/-- A call that is more than one transaction. -/
def isRegistration : DbCall → Bool
  | .addNewUser _ => true
  | _ => false

/-- No registration has begun. -/
def Site.opened (store : Store) : Site := ⟨store,fun _ => none⟩

/-- Other accounts, and another stage of a registration. -/
def Site.staged (site : Site) (accounts : Database) (userId : ℕ) (stage : Option Stage) : Site :=
  ⟨{site.store with accounts := accounts},Function.update site.registering userId stage⟩

section steps

variable (dialect : Dialect)

/-- The lists of posts read the tables of both servers. -/
def postLists (circumstances : Circumstances) (arrangement : Arrangement latestFirst)
    (store : Store) : DbOperation → Tables → Except CxxException Json
  | .getPostsList id limit offset,tables =>
    getPostsList dialect.timestampText dialect.readBigint dialect.readInteger circumstances
      arrangement id limit offset {store with content := tables} .null
  | .getPostsListById authorId userId limit offset,tables =>
    getPostsListById dialect.timestampText dialect.readBigint dialect.readInteger circumstances
      arrangement authorId userId limit offset {store with content := tables} .null
  | _,_ => .ok .null

/-- Answer of an operation of the content server, and the tables behind it. -/
def operateStore (circumstances : Circumstances) (arrangement : Arrangement latestFirst)
    (op : DbOperation) (store : Store) : Except CxxException op.Answer×Store :=
  let operated := operateTables dialect.readInteger circumstances
    (postLists dialect circumstances arrangement store) op store.content
  (operated.1,{store with content := operated.2})

/-- One transaction, if its registration has come to it. -/
def step (site : Site) : Move → Option Site
  | .call conditions call =>
    if isRegistration call then none
    else some {site with store := (callStore dialect conditions call site.store).2}
  | .operation circumstances arrangement op =>
    some {site with store := (operateStore dialect circumstances arrangement op site.store).2}
  | .addProperties broken userProperties binaryData =>
    match AuthDatabase.addProperties broken userProperties site.store.accounts with
    | (.ok userId,after) => some (site.staged after userId (some (.inserted userProperties binaryData)))
    | (.error _,_) => some site
  | .addNewPhoto broken userId =>
    match site.registering userId with
    | some (.inserted userProperties binaryData) =>
      match AuthDatabase.addNewPhoto broken (property userProperties (ascii "photo_type")) binaryData
          site.store.accounts with
      | (.ok photoId,after) =>
        some (site.staged after userId (some (.pictured userProperties binaryData photoId)))
      | (.error _,after) => some (site.staged after userId (some (.undoing none)))
    | _ => none
  | .connectPropertiesAndPhoto broken userId =>
    match site.registering userId with
    | some (.pictured _ _ photoId) =>
      match AuthDatabase.connectPropertiesAndPhoto broken userId photoId site.store.accounts with
      | (.ok _,after) => some (site.staged after userId none)
      | (.error _,after) => some (site.staged after userId (some (.undoing (some photoId))))
    | _ => none
  | .deletePhoto broken userId =>
    match site.registering userId with
    | some (.undoing (some photoId)) =>
      some (site.staged (AuthDatabase.deletePhoto broken photoId site.store.accounts).2 userId
        (some (.undoing none)))
    | _ => none
  | .deleteRow broken userId =>
    match site.registering userId with
    | some (.undoing none) =>
      some (site.staged (AuthDatabase.deleteRow broken userId site.store.accounts).2 userId none)
    | _ => none

end steps

section registrations

variable (dialect : Dialect) (breakdowns : Breakdowns) (userProperties : PropertyMap)
  (binaryData : Bytes)

/-- The transactions of a registration behind its first one. -/
def registrationRest (userId : ℕ) : List Move :=
  .addNewPhoto breakdowns.addNewPhoto userId::
    if breakdowns.addNewPhoto then [.deleteRow breakdowns.deleteRow userId]
    else .connectPropertiesAndPhoto breakdowns.connect userId::
      if breakdowns.connect then
        [.deletePhoto breakdowns.deletePhoto userId,.deleteRow breakdowns.deleteRow userId]
      else []

/-- The transactions of a registration that comes to an end. -/
def registrationMoves (database : Database) : List Move :=
  .addProperties breakdowns.addProperties userProperties binaryData::
    match (AuthDatabase.addProperties breakdowns.addProperties userProperties database).1 with
    | .ok userId => registrationRest breakdowns userId
    | .error _ => []

/-- A registration that no other transaction disturbs makes of the tables what
addNewUser makes of them, and comes to its end. -/
theorem run_registration (site : Site) (hidle : site.registering site.store.accounts.users.next=none) :
    run (step dialect) site
        (registrationMoves breakdowns userProperties binaryData site.store.accounts)=
      some {site with store := {site.store with
        accounts := (addNewUser breakdowns userProperties binaryData site.store.accounts).2}} := by
  unfold registrationMoves
  rcases addProperties_cases breakdowns userProperties site.store.accounts with
    ⟨_,e,hadd⟩|⟨_,after,hadd,_⟩
  · rw [addNewUser_refused breakdowns userProperties binaryData site.store.accounts hadd]
    simp only [run,step,hadd]
  · rw [addNewUser_inserted breakdowns userProperties binaryData site.store.accounts hadd,hadd]
    have hended : Function.update site.registering site.store.accounts.users.next none=
        site.registering := by
      rw [←hidle,Function.update_eq_self]
    unfold registrationRest outcomeBehindUser
    -- the photo fails, the link fails, or both succeed
    cases hphoto : breakdowns.addNewPhoto with
    | true =>
      simp only [run,step,hadd,Site.staged,Function.update_self,Function.update_idem,if_true,
        AuthDatabase.addNewPhoto,hended]
    | false =>
      cases hconnect : breakdowns.connect with
      | true =>
        simp only [run,step,hadd,Site.staged,Function.update_self,Function.update_idem,if_true,
          AuthDatabase.addNewPhoto,AuthDatabase.connectPropertiesAndPhoto,Bool.false_eq_true,
          if_false,hended]
      | false =>
        simp only [run,step,hadd,Site.staged,Function.update_self,Function.update_idem,
          AuthDatabase.addNewPhoto,AuthDatabase.connectPropertiesAndPhoto,Bool.false_eq_true,
          if_false,hended]

end registrations

section operations

variable (dialect : Dialect) (circumstances : Circumstances)

/-- The same with a commit that answers. -/
def answered : Circumstances := {circumstances with commit := none}

/-- Writes that reach the commit are kept. -/
def writesKept : Bool := circumstances.commit.elim true Prod.snd

/-- An operation commits its writes, whether or not it learns so. -/
def commits (op : DbOperation) (tables : Tables) : Bool :=
  writesKept circumstances &&
    (operateTables dialect.readInteger (answered circumstances) noLists op tables).1.isOk

/-- What committed writes of an operation make of the tables. -/
def Effected (tables after : Tables) : DbOperation → Prop
  | .likeClicked postId userId => ∃ post user,dialect.readInteger postId=some post ∧
      dialect.readInteger userId=some user ∧ after=click tables post user
  | op => TakesEffect dialect.readInteger circumstances tables after op

/-- Tables behind the work of a transaction. -/
def kept (tables : Tables) : Except CxxException Tables → Tables
  | .ok written => if writesKept circumstances then written else tables
  | .error _ => tables

/-- A transaction ends with the writes it keeps. -/
theorem finish_kept (tables : Tables) (work : Except CxxException Tables) :
    (finish circumstances tables work).2=kept circumstances tables work := by
  unfold finish kept writesKept
  cases work with
  | error e => rfl
  | ok written =>
    cases circumstances.commit with
    | none => rfl
    | some raised => rfl

/-- An answered commit returns when the work before it succeeds. -/
theorem finish_answered (tables : Tables) (work : Except CxxException Tables) :
    (finish (answered circumstances) tables work).1.isOk=work.isOk := by
  cases work <;> rfl

/-- An operation that writes is a transaction of some work. -/
structure Works (op : DbOperation) (tables : Tables) (work : Except CxxException Tables) : Prop where
  /-- It keeps what the transaction keeps. -/
  kept : ∀ lists,(operateTables dialect.readInteger circumstances lists op tables).2=
    kept circumstances tables work
  /-- It returns when its work succeeds and its commit answers. -/
  answered : (operateTables dialect.readInteger (answered circumstances) noLists op tables).1.isOk=
    work.isOk
  /-- Work that succeeds has its effect. -/
  effected : ∀ written,work=.ok written → Effected dialect circumstances tables written op

/-- A new post is work. -/
theorem works_addNewPost (userId : Bytes) (propertyMap : FormDataParser.FieldMap) (tables : Tables) :
    ∃ work,Works dialect circumstances (.addNewPost userId propertyMap) tables work := by
  cases hphoto : addNewPostPhoto circumstances propertyMap tables with
  | error e =>
    have hrefused : ∀ other : Circumstances,other.fault=circumstances.fault →
        addNewPost dialect.readInteger other userId propertyMap tables=(.error serverError,tables) := by
      intro other hfault
      have hother : addNewPostPhoto other propertyMap tables=.error e := by
        unfold addNewPostPhoto statement at hphoto ⊢
        rw [hfault]
        exact hphoto
      unfold addNewPost
      rw [hother]
    refine ⟨.error e,fun lists => congrArg Prod.snd (hrefused circumstances rfl),?_,nofun⟩
    exact congrArg (fun result => Except.isOk result.1) (hrefused (answered circumstances) rfl)
  | ok withPhoto =>
    refine ⟨addNewPostInformation dialect.readInteger circumstances userId propertyMap
      tables.postPhotos.next withPhoto,fun lists => ?_,?_,fun written hwritten =>
        addNewPostWork_ok dialect.readInteger circumstances hphoto hwritten⟩
    · rw [←finish_kept]
      change (addNewPost dialect.readInteger circumstances userId propertyMap tables).2=_
      unfold addNewPost
      rw [hphoto]
      dsimp only
      split
      · rfl
      · rfl
    · change (addNewPost dialect.readInteger (answered circumstances) userId propertyMap tables).1.isOk=_
      have hother : addNewPostPhoto (answered circumstances) propertyMap tables=.ok withPhoto := hphoto
      unfold addNewPost
      rw [hother]
      dsimp only
      split
      · exact finish_answered circumstances tables _
      · next e herror =>
        exact (congrArg Except.isOk herror).symm.trans (finish_answered circumstances tables _)

/-- A deletion is work. -/
theorem works_delPostById (postId id : Bytes) (tables : Tables) :
    ∃ work,Works dialect circumstances (.delPostById postId id) tables work := by
  refine ⟨delPostByIdWork dialect.readInteger circumstances postId id tables,fun lists => ?_,?_,
    fun written hwritten => delPostByIdWork_ok dialect.readInteger circumstances hwritten⟩
  · rw [←finish_kept]
    exact delPostById_ended dialect.readInteger circumstances postId id tables
  · change (delPostById dialect.readInteger (answered circumstances) postId id tables).1.isOk=_
    unfold delPostById
    dsimp only
    split
    · exact finish_answered circumstances tables _
    · next e herror =>
      exact (congrArg Except.isOk herror).symm.trans (finish_answered circumstances tables _)

/-- A click is work. -/
theorem works_likeClicked (postId userId : Bytes) (tables : Tables) :
    ∃ work,Works dialect circumstances (.likeClicked postId userId) tables work := by
  refine ⟨likeClickedWork dialect.readInteger circumstances postId userId tables,fun lists => ?_,?_,
    fun written hwritten => ?_⟩
  · rw [←finish_kept]
    exact likeClicked_ended dialect.readInteger circumstances postId userId tables
  · change (likeClicked dialect.readInteger (answered circumstances) postId userId tables).1.isOk=_
    unfold likeClicked
    dsimp only
    split
    · exact finish_answered circumstances tables _
    · next e herror =>
      exact (congrArg Except.isOk herror).symm.trans (finish_answered circumstances tables _)
  · obtain ⟨hfault,post,user,hpost,huser⟩ := likeClickedWork_succeeds hwritten
    have hcommits : Commits dialect.readInteger (answered circumstances) postId userId post user :=
      ⟨⟨hfault,nofun⟩,hpost,huser⟩
    have hclicked := hcommits.tables tables
    rw [likeClicked_ended,SharedStore.finish_kept] at hclicked
    change kept (answered circumstances) tables
      (likeClickedWork dialect.readInteger circumstances postId userId tables)=_ at hclicked
    rw [hwritten] at hclicked
    exact ⟨post,user,hpost,huser,hclicked⟩

/-- Work that commits has its effect, and other work leaves the tables. -/
theorem Works.cases {op : DbOperation} {tables : Tables} {work : Except CxxException Tables}
    (h : Works dialect circumstances op tables work)
    (lists : DbOperation → Tables → Except CxxException Json) :
    (commits dialect circumstances op tables=true ∧ Effected dialect circumstances tables
        (operateTables dialect.readInteger circumstances lists op tables).2 op) ∨
      commits dialect circumstances op tables=false ∧
        (operateTables dialect.readInteger circumstances lists op tables).2=tables := by
  unfold commits
  rw [h.kept,h.answered]
  unfold SharedStore.kept
  cases work with
  | error e => exact Or.inr ⟨Bool.and_false _,rfl⟩
  | ok written =>
    cases hkept : writesKept circumstances with
    | true => exact Or.inl ⟨rfl,h.effected written rfl⟩
    | false => exact Or.inr ⟨rfl,rfl⟩

/-- An operation of the content server that writes. -/
def WritingOperation : DbOperation → Prop
  | .addNewPost _ _ | .delPostById _ _ | .likeClicked _ _ => True
  | _ => False

/-- An operation leaves the tables unless it writes and commits. -/
theorem operate_cases (lists : DbOperation → Tables → Except CxxException Json) (op : DbOperation)
    (tables : Tables) :
    (WritingOperation op ∧ commits dialect circumstances op tables=true ∧
        Effected dialect circumstances tables
          (operateTables dialect.readInteger circumstances lists op tables).2 op) ∨
      (WritingOperation op → commits dialect circumstances op tables=false) ∧
        (operateTables dialect.readInteger circumstances lists op tables).2=tables := by
  have hwriting : ∀ {work},Works dialect circumstances op tables work → WritingOperation op → _ :=
    fun hwork hop => (hwork.cases dialect circumstances lists).imp (fun h => And.intro hop h)
      fun h => And.intro (fun _ : WritingOperation op => h.1) h.2
  cases op with
  | addNewPost userId propertyMap =>
    obtain ⟨work,hwork⟩ := works_addNewPost dialect circumstances userId propertyMap tables
    exact hwriting hwork trivial
  | delPostById postId id =>
    obtain ⟨work,hwork⟩ := works_delPostById dialect circumstances postId id tables
    exact hwriting hwork trivial
  | likeClicked postId userId =>
    obtain ⟨work,hwork⟩ := works_likeClicked dialect circumstances postId userId tables
    exact hwriting hwork trivial
  | _ => exact Or.inr ⟨False.elim,rfl⟩

end operations

section moves

variable (dialect : Dialect)

/-- Account a registration opens. -/
def openedAccount (userProperties : PropertyMap) : Account where
  nickname := property userProperties (ascii "nickname")
  firstName := property userProperties (ascii "first_name")
  lastName := property userProperties (ascii "last_name")
  email := property userProperties (ascii "email")
  isMale := property userProperties (ascii "is_male")
  birthdate := property userProperties (ascii "birthdate")
  password := property userProperties (ascii "password")
  picture := none

/-- Change an acknowledged call makes. -/
def callChanges : DbCall → List Change
  | .updateProfilePhoto postInfo id => (dialect.readInteger id).toList.map fun key =>
    .replacedPicture key (property postInfo.userProperties (ascii "photo_type")) postInfo.binaryData
  | .updateProfileData jsonBody id =>
    match profileUpdate jsonBody with
    | .ok profile => (dialect.readInteger id).toList.map fun key => .replacedProfile key profile
    | .error _ => []
  | .updateProfilePassword password id =>
    (dialect.readInteger id).toList.map fun key => .replacedPassword key password
  | .makeFriend userId friendId => (dialect.readInteger userId).toList.flatMap fun user =>
    (dialect.readInteger friendId).toList.map fun friend => .befriended user friend
  | .deleteFriend userId friendId => (dialect.readInteger userId).toList.flatMap fun user =>
    (dialect.readInteger friendId).toList.map fun friend => .unfriended user friend
  | _ => []

/-- Change a committed operation makes. -/
def operationChanges (circumstances : Circumstances) (tables : Tables) : DbOperation → List Change
  | .addNewPost userId propertyMap => (dialect.readInteger userId).toList.map fun user =>
    .published tables.posts.next ⟨user,circumstances.now,field propertyMap (ascii "description"),none,
      some ⟨tables.postPhotos.next,field propertyMap (ascii "Content-Type"),
        field propertyMap (ascii "photo")⟩⟩
  | .delPostById postId _ => (dialect.readInteger postId).toList.map .retracted
  | .likeClicked postId userId => (dialect.readInteger postId).toList.flatMap fun post =>
    (dialect.readInteger userId).toList.map fun user => .clicked post user
  | _ => []

/-- Changes a transaction commits. -/
def committed (site : Site) : Move → List Change
  | .call conditions call =>
    if (callStore dialect conditions call site.store).1.isOk then callChanges dialect call else []
  | .operation circumstances _ op =>
    if commits dialect circumstances op site.store.content then
      operationChanges dialect circumstances site.store.content op
    else []
  | .addProperties broken userProperties _ =>
    match (AuthDatabase.addProperties broken userProperties site.store.accounts).1 with
    | .ok userId => [.registered userId (openedAccount userProperties)]
    | .error _ => []
  | .connectPropertiesAndPhoto broken userId =>
    match site.registering userId with
    | some (.pictured userProperties binaryData photoId) =>
      if broken then []
      else [.pictured userId ⟨photoId,property userProperties (ascii "photo_type"),binaryData⟩]
    | _ => []
  | .deleteRow broken userId => if broken then [] else [.withdrawn userId]
  | .addNewPhoto _ _ | .deletePhoto _ _ => []

/-- Everything a transaction can do, with the changes it commits. -/
inductive Moved (site : Site) : Move → List Change → Site → Prop where
  /-- It reads, or has no effect. -/
  | stayed (move : Move) : Moved site move [] site
  /-- A call has written. -/
  | wrote (conditions : Conditions) (call : DbCall) (after : Store)
    (hwritten : Written dialect site.store after call) :
    Moved site (.call conditions call) (callChanges dialect call) {site with store := after}
  /-- An operation has taken effect. -/
  | operated (circumstances : Circumstances) (arrangement : Arrangement latestFirst)
    (op : DbOperation) (after : Tables)
    (heffected : Effected dialect circumstances site.store.content after op) :
    Moved site (.operation circumstances arrangement op)
      (operationChanges dialect circumstances site.store.content op)
      {site with store := {site.store with content := after}}
  /-- A user is inserted. -/
  | inserted (userProperties : PropertyMap) (binaryData : Bytes) (after : Database)
    (hpictures : after.pictures=site.store.accounts.pictures)
    (husers : after.users=site.store.accounts.users.insert
      (registeredUser userProperties site.store.accounts.users.next) rfl) :
    Moved site (.addProperties false userProperties binaryData)
      [.registered site.store.accounts.users.next (openedAccount userProperties)]
      (site.staged after site.store.accounts.users.next (some (.inserted userProperties binaryData)))
  /-- Its photo is inserted. -/
  | pictured (userId : ℕ) (userProperties : PropertyMap) (binaryData : Bytes)
    (hstage : site.registering userId=some (.inserted userProperties binaryData)) :
    Moved site (.addNewPhoto false userId) []
      (site.staged (site.store.accounts.insertPicture ⟨site.store.accounts.pictures.next,
          property userProperties (ascii "photo_type"),binaryData⟩ rfl) userId
        (some (.pictured userProperties binaryData site.store.accounts.pictures.next)))
  /-- Its photo is not inserted. -/
  | unpictured (userId : ℕ) (userProperties : PropertyMap) (binaryData : Bytes)
    (hstage : site.registering userId=some (.inserted userProperties binaryData)) :
    Moved site (.addNewPhoto true userId) []
      (site.staged site.store.accounts userId (some (.undoing none)))
  /-- Its photo is linked. -/
  | connected (userId : ℕ) (userProperties : PropertyMap) (binaryData : Bytes) (photoId : ℕ)
    (hstage : site.registering userId=some (.pictured userProperties binaryData photoId)) :
    Moved site (.connectPropertiesAndPhoto false userId)
      [.pictured userId ⟨photoId,property userProperties (ascii "photo_type"),binaryData⟩]
      (site.staged (site.store.accounts.setPhoto userId photoId) userId none)
  /-- Its photo is not linked. -/
  | unconnected (userId : ℕ) (userProperties : PropertyMap) (binaryData : Bytes) (photoId : ℕ)
    (hstage : site.registering userId=some (.pictured userProperties binaryData photoId)) :
    Moved site (.connectPropertiesAndPhoto true userId) []
      (site.staged site.store.accounts userId (some (.undoing (some photoId))))
  /-- Its photo is deleted, or stays behind. -/
  | unphotographed (broken : Bool) (userId photoId : ℕ)
    (hstage : site.registering userId=some (.undoing (some photoId))) :
    Moved site (.deletePhoto broken userId) []
      (site.staged (if broken then site.store.accounts else
        site.store.accounts.deletePicture photoId) userId (some (.undoing none)))
  /-- Its user is deleted. -/
  | removed (userId : ℕ) (hstage : site.registering userId=some (.undoing none)) :
    Moved site (.deleteRow false userId) [.withdrawn userId]
      (site.staged (site.store.accounts.deleteUser userId) userId none)
  /-- Its user stays behind. -/
  | abandoned (userId : ℕ) (hstage : site.registering userId=some (.undoing none)) :
    Moved site (.deleteRow true userId) [] (site.staged site.store.accounts userId none)

variable {dialect} {site next : Site}

/-- A call that does not write makes no change. -/
theorem callChanges_reading {call : DbCall} (h : ¬Writing call) : callChanges dialect call=[] := by
  cases call with
  | updateProfilePhoto postInfo id => exact absurd trivial h
  | updateProfileData jsonBody id => exact absurd trivial h
  | updateProfilePassword password id => exact absurd trivial h
  | makeFriend userId friendId => exact absurd trivial h
  | deleteFriend userId friendId => exact absurd trivial h
  | _ => rfl

/-- Nor does an operation that does not write. -/
theorem operationChanges_reading {circumstances : Circumstances} {tables : Tables} {op : DbOperation}
    (h : ¬WritingOperation op) : operationChanges dialect circumstances tables op=[] := by
  cases op with
  | addNewPost userId propertyMap => exact absurd trivial h
  | delPostById postId id => exact absurd trivial h
  | likeClicked postId userId => exact absurd trivial h
  | _ => rfl

/-- A step is one of these, and commits the changes that are computed for it. -/
theorem step_moved {move : Move} (h : step dialect site move=some next) :
    Moved dialect site move (committed dialect site move) next := by
  cases move with
  | call conditions call =>
    unfold step at h
    dsimp only at h
    cases hregistration : isRegistration call with
    | true =>
      rw [hregistration] at h
      cases h
    | false =>
      rw [hregistration,if_neg Bool.false_ne_true] at h
      cases h
      unfold committed
      dsimp only
      by_cases hwriting : Writing call
      · rcases @callStore_writing dialect conditions site.store call hwriting with
          ⟨⟨e,herror⟩,hsame⟩|⟨⟨answer,hanswer⟩,hwritten⟩
        · rw [herror,hsame]
          exact .stayed _
        · rw [hanswer]
          exact .wrote conditions call _ hwritten
      · have hreads := @callStore_reading dialect conditions site.store call hwriting
          fun postInfo heq => by rw [heq] at hregistration; cases hregistration
        rw [callChanges_reading hwriting,ite_self,hreads]
        exact .stayed _
  | operation circumstances arrangement op =>
    cases h
    unfold committed operateStore
    dsimp only
    rcases operate_cases dialect circumstances (postLists dialect circumstances arrangement site.store)
      op site.store.content with ⟨hwriting,hcommits,heffected⟩|⟨hnone,hsame⟩
    · rw [hcommits]
      exact .operated circumstances arrangement op _ heffected
    · have hempty : (if commits dialect circumstances op site.store.content=true then
          operationChanges dialect circumstances site.store.content op else [])=[] := by
        by_cases hwriting : WritingOperation op
        · rw [hnone hwriting]
          rfl
        · rw [operationChanges_reading hwriting,ite_self]
      rw [hempty,hsame]
      exact .stayed _
  | addProperties broken userProperties binaryData =>
    unfold step at h
    unfold committed
    rcases addProperties_cases ⟨broken,false,false,false,false⟩ userProperties site.store.accounts
      with ⟨_,e,hadd⟩|⟨⟨hbroken,_⟩,after,hadd,hpictures,husers⟩
    · dsimp only at hadd h ⊢
      rw [hadd] at h ⊢
      cases h
      exact .stayed _
    · dsimp only at hadd h hbroken ⊢
      subst hbroken
      rw [hadd] at h ⊢
      cases h
      exact .inserted userProperties binaryData after hpictures husers
  | addNewPhoto broken userId =>
    unfold step at h
    unfold committed
    dsimp only at h
    split at h
    · next userProperties binaryData hstage =>
      cases broken with
      | true =>
        cases h
        exact .unpictured userId userProperties binaryData hstage
      | false =>
        cases h
        exact .pictured userId userProperties binaryData hstage
    · cases h
  | connectPropertiesAndPhoto broken userId =>
    unfold step at h
    unfold committed
    dsimp only at h ⊢
    split at h
    · next userProperties binaryData photoId hstage =>
      cases broken with
      | true =>
        cases h
        exact .unconnected userId userProperties binaryData photoId hstage
      | false =>
        cases h
        exact .connected userId userProperties binaryData photoId hstage
    · cases h
  | deletePhoto broken userId =>
    unfold step at h
    unfold committed
    dsimp only at h
    split at h
    · next photoId hstage =>
      have hdeleted : Moved dialect site _ _ _ := .unphotographed broken userId photoId hstage
      cases broken <;> cases h <;> exact hdeleted
    · cases h
  | deleteRow broken userId =>
    unfold step at h
    unfold committed
    dsimp only at h
    split at h
    · next hstage =>
      cases broken with
      | true =>
        cases h
        exact .abandoned userId hstage
      | false =>
        cases h
        exact .removed userId hstage
    · cases h

end moves

end Photogram.SharedStore
