import Photogram.EffectLog
import Photogram.AuthDatabase

/-!
# Registration of a user

WorkWithPostgreSQL::addNewUser. The user, the photo and the link between
them are three transactions; a catch clause undoes what its flags say was
done. The undoing transactions may break down as well, and then nobody
notices.
-/

namespace Photogram.AuthRegistration

open CxxString QueryString EffectLog RowTable AuthDatabase

/-- Which transactions break down. -/
structure Breakdowns where
  /-- The insertion of the user. -/
  addProperties : Bool
  /-- The insertion of the photo. -/
  addNewPhoto : Bool
  /-- The link between them. -/
  connect : Bool
  /-- The deletion of the photo. -/
  deletePhoto : Bool
  /-- The deletion of the user. -/
  deleteRow : Bool
  deriving DecidableEq

/-- The tables and the local variables of the call. -/
structure Registration where
  /-- The tables. -/
  database : Database
  /-- The user is inserted. -/
  isAddProperties : Bool
  /-- The photo is inserted. -/
  isAddPhoto : Bool
  /-- Key of the photo. -/
  photoId : ℕ
  /-- Key of the user. -/
  userId : ℕ

/-- A call during the registration. -/
abbrev Step (α : Type) := Call Registration Empty α

/-- Run a transaction. -/
def transact {α : Type} (transaction : Transaction α) : Step α :=
  act fun state =>
    ((transaction state.database).1,{state with database := (transaction state.database).2})

/-- Set local variables. -/
def assign (change : Registration → Registration) : Step Unit := act fun state => (.ok (),change state)

/-- The three transactions of the try block. -/
def tryBlock (breakdowns : Breakdowns) (userProperties : PropertyMap) (binaryData : Bytes) : Step ℕ :=
  do
    let userId ← transact (addProperties breakdowns.addProperties userProperties)
    assign fun state => {state with userId := userId,isAddProperties := true}
    let photoId ← transact (addNewPhoto breakdowns.addNewPhoto
      (property userProperties (ascii "photo_type")) binaryData)
    assign fun state => {state with photoId := photoId,isAddPhoto := true}
    transact (connectPropertiesAndPhoto breakdowns.connect userId photoId)
    return userId

/-- The catch clause: undo by the flags, and raise again. -/
def catchClause (breakdowns : Breakdowns) (e : CxxException) : Step ℕ := do
  let state ← readWorld id
  if state.isAddPhoto then transact (deletePhoto breakdowns.deletePhoto state.photoId)
  if state.isAddProperties then transact (deleteRow breakdowns.deleteRow state.userId)
  compute (.error (.thrown e))

/-- Register a user with a photo: the key of the user or an exception, and the tables. -/
def addNewUser (breakdowns : Breakdowns) (userProperties : PropertyMap) (binaryData : Bytes)
    (database : Database) : Except Failure ℕ×Database :=
  let ran := attempt (tryBlock breakdowns userProperties binaryData) (catchClause breakdowns)
    ⟨database,false,false,0,0⟩
  (ran.outcome,ran.world.database)

/-- One new user linked to one new photo behind a returned key, and the same
rows as before behind an exception. -/
def AllOrNothing (before : Database) (result : Except Failure ℕ×Database) : Prop :=
  match result.1 with
  | .ok id => ∃ user picture,
      result.2.users.rows=before.users.rows++[user] ∧
      result.2.pictures.rows=before.pictures.rows++[picture] ∧
      user.id=id ∧ user.photoId=some picture.id ∧
      (∀ other ∈ before.users.rows,other.id≠id) ∧
      ∀ other ∈ before.pictures.rows,other.id≠picture.id
  | .error _ =>
    result.2.users.rows=before.users.rows ∧ result.2.pictures.rows=before.pictures.rows

/-- The nickname and the email of the registration are free. -/
def Free (database : Database) (userProperties : PropertyMap) : Prop :=
  (∀ other ∈ database.users.rows,other.nickname≠property userProperties (ascii "nickname")) ∧
    ∀ other ∈ database.users.rows,other.email≠property userProperties (ascii "email")

/-- The breakdowns leave nothing half done: the user is not inserted; or
everything is; or the photo is not and the user is deleted again; or only
the link is missing and both are deleted again. -/
def Completed (breakdowns : Breakdowns) (database : Database) (userProperties : PropertyMap) :
    Prop :=
  breakdowns.addProperties=true ∨ ¬Free database userProperties ∨
    breakdowns.addNewPhoto=false ∧ breakdowns.connect=false ∨
    breakdowns.addNewPhoto=true ∧ breakdowns.deleteRow=false ∨
    breakdowns.addNewPhoto=false ∧ breakdowns.connect=true ∧
      breakdowns.deletePhoto=false ∧ breakdowns.deleteRow=false

section registration

variable (breakdowns : Breakdowns) (userProperties : PropertyMap) (binaryData : Bytes)
  (database : Database)

/-- The insertion succeeds exactly for a free nickname and email, and then
the user stands behind the others. -/
theorem addProperties_cases :
    (breakdowns.addProperties=true ∨ ¬Free database userProperties) ∧
        (∃ e,addProperties breakdowns.addProperties userProperties database=(.error e,database)) ∨
      (breakdowns.addProperties=false ∧ Free database userProperties) ∧
        ∃ after,addProperties breakdowns.addProperties userProperties database=
            (.ok database.users.next,after) ∧
          after.pictures=database.pictures ∧
          after.users=database.users.insert
            (registeredUser userProperties database.users.next) rfl := by
  unfold addProperties Database.insertUser Free
  cases hbroken : breakdowns.addProperties with
  | true => exact Or.inl ⟨Or.inl rfl,_,rfl⟩
  | false =>
    dsimp only
    by_cases hnickname : ∀ other ∈ database.users.rows,
        other.nickname≠(registeredUser userProperties database.users.next).nickname
    · by_cases hemail : ∀ other ∈ database.users.rows,
          other.email≠(registeredUser userProperties database.users.next).email
      · rw [if_neg (by simp),dif_pos hnickname,dif_pos hemail]
        exact Or.inr ⟨⟨rfl,hnickname,hemail⟩,_,rfl,rfl,rfl⟩
      · rw [if_neg (by simp),dif_pos hnickname,dif_neg hemail]
        exact Or.inl ⟨Or.inr fun hfree => hemail hfree.2,_,rfl⟩
    · rw [if_neg (by simp),dif_neg hnickname]
      exact Or.inl ⟨Or.inr fun hfree => hnickname hfree.1,_,rfl⟩

/-- A transaction that answered. -/
theorem transact_ok {α : Type} {transaction : Transaction α} (state : Registration) {value : α}
    {after : Database} (h : transaction state.database=(.ok value,after)) :
    transact transaction state=⟨.ok value,{state with database := after},[]⟩ := by
  unfold transact act
  dsimp only
  rw [h]
  rfl

/-- A transaction that raised. -/
theorem transact_error {α : Type} {transaction : Transaction α} (state : Registration)
    {e : CxxException} {after : Database} (h : transaction state.database=(.error e,after)) :
    transact transaction state=⟨.error (.thrown e),{state with database := after},[]⟩ := by
  unfold transact act
  dsimp only
  rw [h]
  rfl

/-- A registration without a user inserted raises and changes nothing. -/
theorem addNewUser_refused {e : CxxException}
    (h : addProperties breakdowns.addProperties userProperties database=(.error e,database)) :
    addNewUser breakdowns userProperties binaryData database=(.error (.thrown e),database) := by
  have hfirst := transact_error ⟨database,false,false,0,0⟩ h
  have hblock : tryBlock breakdowns userProperties binaryData ⟨database,false,false,0,0⟩=
      ⟨.error (.thrown e),⟨database,false,false,0,0⟩,[]⟩ := by
    unfold tryBlock
    rw [bind_run_error (by rw [hfirst]),hfirst]
  unfold addNewUser attempt
  rw [hblock]
  rfl

/-- What the remaining transactions make of the tables with the user inserted. -/
def outcomeBehindUser (userId : ℕ) (after : Database) : Except Failure ℕ×Database :=
  let picture : PictureRow :=
    ⟨after.pictures.next,property userProperties (ascii "photo_type"),binaryData⟩
  let withPicture := after.insertPicture picture rfl
  if breakdowns.addNewPhoto then
    (.error (.thrown (.runtimeError "Can't add photo")),
      (deleteRow breakdowns.deleteRow userId after).2)
  else if breakdowns.connect then
    (.error (.thrown (.runtimeError "std::exception")),
      (deleteRow breakdowns.deleteRow userId
        (deletePhoto breakdowns.deletePhoto picture.id withPicture).2).2)
  else (.ok userId,withPicture.setPhoto userId picture.id)

/-- A registration with its user inserted ends as its breakdowns say. -/
theorem addNewUser_inserted {userId : ℕ} {after : Database}
    (h : addProperties breakdowns.addProperties userProperties database=(.ok userId,after)) :
    addNewUser breakdowns userProperties binaryData database=
      outcomeBehindUser breakdowns userProperties binaryData userId after := by
  have hfirst := transact_ok ⟨database,false,false,0,0⟩ h
  obtain ⟨user,photo,connect,undoPhoto,undoUser⟩ := breakdowns
  unfold addNewUser attempt tryBlock
  rw [bind_run_ok (by rw [hfirst]),hfirst]
  cases photo <;> cases connect <;> cases undoPhoto <;> cases undoUser <;> rfl

/-- A new row is not among the old ones. -/
theorem append_ne_self {α : Type} (rows : List α) (row : α) : rows++[row]≠rows := by
  intro h
  have hlen := congrArg List.length h
  rw [List.length_append,List.length_singleton] at hlen
  omega

/-- What the transactions behind the user make of the tables is all or
nothing exactly when the user is gone again, or linked to its photo. -/
theorem allOrNothing_behindUser {after : Database}
    (hpictures : after.pictures=database.pictures)
    (husers : after.users=database.users.insert
      (registeredUser userProperties database.users.next) rfl) :
    AllOrNothing database
        (outcomeBehindUser breakdowns userProperties binaryData database.users.next after) ↔
      breakdowns.addNewPhoto=false ∧ breakdowns.connect=false ∨
        breakdowns.addNewPhoto=true ∧ breakdowns.deleteRow=false ∨
        breakdowns.addNewPhoto=false ∧ breakdowns.connect=true ∧
          breakdowns.deletePhoto=false ∧ breakdowns.deleteRow=false := by
  have hinserted : after.users.rows≠database.users.rows := by
    rw [husers]
    exact append_ne_self _ _
  have hdeleted : (after.users.delete database.users.next).rows=database.users.rows := by
    rw [husers]
    exact delete_insert database.users _ rfl
  have hphoto : ∀ picture : PictureRow,after.pictures.rows++[picture]≠database.pictures.rows := by
    intro picture
    rw [hpictures]
    exact append_ne_self _ _
  unfold outcomeBehindUser
  cases breakdowns.addNewPhoto with
  | true =>
    cases breakdowns.deleteRow with
    | true => exact iff_of_false (fun h => hinserted h.1) (by simp)
    | false => exact iff_of_true ⟨hdeleted,congrArg Table.rows hpictures⟩ (by simp)
  | false =>
    cases breakdowns.connect with
    | true =>
      cases breakdowns.deletePhoto with
      | true =>
        refine iff_of_false (fun h => ?_) (by simp)
        cases hrow : breakdowns.deleteRow <;> rw [hrow] at h <;> exact hphoto _ h.2
      | false =>
        cases breakdowns.deleteRow with
        | true => exact iff_of_false (fun h => hinserted h.1) (by simp)
        | false =>
          refine iff_of_true ⟨hdeleted,?_⟩ (by simp)
          exact (delete_insert after.pictures _ rfl).trans (congrArg Table.rows hpictures)
    | false =>
      refine iff_of_true ⟨{registeredUser userProperties database.users.next with
        photoId := some after.pictures.next},_,?_,congrArg (·++[_]) (congrArg Table.rows hpictures),
        rfl,rfl,?_,?_⟩ (by simp)
      · change (after.users.update database.users.next
          (fun row => {row with photoId := some after.pictures.next}) fun _ => rfl).rows=_
        rw [husers]
        exact update_insert database.users
          (registeredUser userProperties database.users.next) rfl
          (fun row => {row with photoId := some after.pictures.next}) fun _ => rfl
      · exact fun other hold => Nat.ne_of_lt (database.users.key_lt other hold)
      · rw [hpictures]
        exact fun other hold => Nat.ne_of_lt (database.pictures.key_lt other hold)

/-- A registration is all or nothing exactly when its breakdowns leave
nothing half done. -/
theorem allOrNothing_iff :
    AllOrNothing database (addNewUser breakdowns userProperties binaryData database) ↔
      Completed breakdowns database userProperties := by
  rcases addProperties_cases breakdowns userProperties database with
    ⟨hrefused,e,hadd⟩|⟨⟨hbroken,hfree⟩,after,hadd,hpictures,husers⟩
  · rw [addNewUser_refused breakdowns userProperties binaryData database hadd]
    refine ⟨fun _ => ?_,fun _ => ⟨rfl,rfl⟩⟩
    rcases hrefused with hbroken|hoccupied
    · exact Or.inl hbroken
    · exact Or.inr (Or.inl hoccupied)
  · rw [addNewUser_inserted breakdowns userProperties binaryData database hadd,
      allOrNothing_behindUser breakdowns userProperties binaryData database hpictures husers]
    unfold Completed
    simp only [hbroken,hfree,not_true_eq_false,false_or,Bool.false_eq_true]

end registration

/-- The fields of a registration. -/
def annProperties : PropertyMap :=
  ((((∅ : PropertyMap).insert (ascii "nickname") (ascii "ann")).insert (ascii "email")
    (ascii "a@b")).insert (ascii "password") (ascii "hash of p")).insert (ascii "photo_type")
    (ascii "image/png")

/-- The connection is lost behind the first commit: the photo is not
inserted, and the user is not deleted either. -/
theorem addNewUser_connection_lost :
    ¬AllOrNothing Database.empty (addNewUser ⟨false,true,false,false,true⟩ annProperties
      (ascii "PNG") Database.empty) :=
  fun h => append_ne_self [] _ h.1

end Photogram.AuthRegistration
