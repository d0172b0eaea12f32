import Photogram.RowTable
import Photogram.JsonValue
import Photogram.QueryString

/-!
# Tables of the authentication server

The users and their photos, with the transactions of WorkWithPostgreSQL.cpp
that write them. Emails and nicknames are unique byte for byte. Ids are the
numbers behind the decimal strings the code hands around. Every transaction
may break down without effect; a broken insert or update raises, and a
broken deletion is swallowed.
-/

namespace Photogram.AuthDatabase

open CxxString JsonValue QueryString RowTable

/-- A row of users. -/
structure UserRow where
  /-- Serial key. -/
  id : ℕ
  /-- Nickname, unique. -/
  nickname : Bytes
  /-- First name. -/
  firstName : Bytes
  /-- Last name. -/
  lastName : Bytes
  /-- Email, unique. -/
  email : Bytes
  /-- Text of a truth value. -/
  isMale : Bytes
  /-- Text of a date. -/
  birthdate : Bytes
  /-- Password hash. -/
  password : Bytes
  /-- Key of the photo, once there is one. -/
  photoId : Option ℕ
  deriving DecidableEq

/-- A row of profile_picture. -/
structure PictureRow where
  /-- Serial key. -/
  id : ℕ
  /-- Content type. -/
  photoType : Bytes
  /-- Bytes of the photo. -/
  photo : Bytes
  deriving DecidableEq

/-- Both tables, with the unique columns of users. -/
structure Database where
  /-- The table users. -/
  users : Table UserRow.id
  /-- The table profile_picture. -/
  pictures : Table PictureRow.id
  /-- The constraint users_nickname_key. -/
  nicknames : UniqueBy UserRow.nickname users.rows
  /-- The constraint users_email_key. -/
  emails : UniqueBy UserRow.email users.rows

/-- The tables as they are created. -/
def Database.empty : Database :=
  ⟨Table.empty _,Table.empty _,List.Pairwise.nil,List.Pairwise.nil⟩

/-- How a statement or its commit fails. -/
inductive SqlError where
  /-- The constraint users_nickname_key is violated. -/
  | nicknameKey
  /-- The constraint users_email_key is violated. -/
  | emailKey
  /-- Anything else. -/
  | failure
  deriving DecidableEq

/-- What the users transactions raise for an error of theirs. -/
def occupiedError : SqlError → CxxException
  | .nicknameKey => .runtimeError "The nickname is already occupied"
  | .emailKey => .runtimeError "This email is already occupied"
  | .failure => .runtimeError "connection to server was lost"

/-- A transaction of its own: an answer or an exception, and the tables after it. -/
abbrev Transaction (α : Type) := Database → Except CxxException α×Database

/-- INSERT of a user, when no other has the nickname or the email. -/
def Database.insertUser (database : Database) (user : UserRow)
    (h : user.id=database.users.next) : Except SqlError Database :=
  if hnickname : ∀ other ∈ database.users.rows,other.nickname≠user.nickname then
    if hemail : ∀ other ∈ database.users.rows,other.email≠user.email then
      .ok ⟨database.users.insert user h,database.pictures,
        uniqueBy_append database.nicknames hnickname,uniqueBy_append database.emails hemail⟩
    else .error .emailKey
  else .error .nicknameKey

/-- UPDATE of the row of an id, when no other has its new nickname or email. -/
def Database.updateUser (database : Database) (id : ℕ) (change : UserRow → UserRow)
    (h : ∀ row,(change row).id=row.id) : Except SqlError Database :=
  if hnickname : ∀ row ∈ database.users.rows,row.id=id → ∀ other ∈ database.users.rows,
      other.id≠id → other.nickname≠(change row).nickname then
    if hemail : ∀ row ∈ database.users.rows,row.id=id → ∀ other ∈ database.users.rows,
        other.id≠id → other.email≠(change row).email then
      .ok ⟨database.users.update id change h,database.pictures,
        uniqueBy_update database.nicknames id change h hnickname,
        uniqueBy_update database.emails id change h hemail⟩
    else .error .emailKey
  else .error .nicknameKey

/-- A column that an update leaves alone is unique behind it. -/
theorem uniqueBy_keep {column : UserRow → Bytes} {users : Table UserRow.id}
    (h : UniqueBy column users.rows) (id : ℕ) (change : UserRow → UserRow)
    (hkey : ∀ row,(change row).id=row.id) (hkeep : ∀ row,column (change row)=column row) :
    UniqueBy column (users.update id change hkey).rows := by
  change (users.rows.map _).Pairwise _
  rw [List.pairwise_map]
  refine h.imp fun {a b} hne => ?_
  have hsame : ∀ row,column (changeAt UserRow.id id change row)=column row := by
    intro row
    unfold changeAt
    split
    · exact hkeep row
    · rfl
  rwa [hsame,hsame]

/-- UPDATE of the photo of an id. -/
def Database.setPhoto (database : Database) (userId photoId : ℕ) : Database :=
  ⟨database.users.update userId (fun row => {row with photoId := some photoId}) fun _ => rfl,
    database.pictures,uniqueBy_keep database.nicknames _ _ _ fun _ => rfl,
    uniqueBy_keep database.emails _ _ _ fun _ => rfl⟩

/-- The users behind an update of a photo. -/
theorem mem_setPhoto {database : Database} {userId photoId : ℕ} {user : UserRow} :
    user ∈ (database.setPhoto userId photoId).users.rows ↔
      ∃ old ∈ database.users.rows,
        (if old.id=userId then {old with photoId := some photoId} else old)=user := List.mem_map

/-- DELETE of the user of an id. -/
def Database.deleteUser (database : Database) (id : ℕ) : Database :=
  ⟨database.users.delete id,database.pictures,uniqueBy_delete database.nicknames id,
    uniqueBy_delete database.emails id⟩

/-- INSERT of a photo. -/
def Database.insertPicture (database : Database) (picture : PictureRow)
    (h : picture.id=database.pictures.next) : Database :=
  ⟨database.users,database.pictures.insert picture h,database.nicknames,database.emails⟩

/-- DELETE of the photo of an id. -/
def Database.deletePicture (database : Database) (id : ℕ) : Database :=
  ⟨database.users,database.pictures.delete id,database.nicknames,database.emails⟩

/-- The row a registration inserts. -/
def registeredUser (userProperties : PropertyMap) (id : ℕ) : UserRow where
  id := id
  nickname := property userProperties (ascii "nickname")
  firstName := property userProperties (ascii "first_name")
  lastName := property userProperties (ascii "last_name")
  email := property userProperties (ascii "email")
  isMale := property userProperties (ascii "is_male")
  birthdate := property userProperties (ascii "birthdate")
  password := property userProperties (ascii "password")
  photoId := none

/-- Insert a user; occupied nicknames and emails have their own texts. -/
def addProperties (broken : Bool) (userProperties : PropertyMap) : Transaction ℕ := fun database =>
  let result := if broken then .error .failure else
    database.insertUser (registeredUser userProperties database.users.next) rfl
  match result with
  | .ok after => (.ok database.users.next,after)
  | .error e => (.error (occupiedError e),database)

/-- Insert a photo of a type. -/
def addNewPhoto (broken : Bool) (photoType photo : Bytes) : Transaction ℕ := fun database =>
  if broken then (.error (.runtimeError "Can't add photo"),database)
  else (.ok database.pictures.next,
    database.insertPicture ⟨database.pictures.next,photoType,photo⟩ rfl)

/-- Link a user to a photo; the exception is raised again as a copy of its
base class. -/
def connectPropertiesAndPhoto (broken : Bool) (userId photoId : ℕ) : Transaction Unit :=
  fun database =>
    if broken then (.error (.runtimeError "std::exception"),database)
    else (.ok (),database.setPhoto userId photoId)

/-- Delete a user; a failure is only logged. -/
def deleteRow (broken : Bool) (userId : ℕ) : Transaction Unit := fun database =>
  if broken then (.ok (),database) else (.ok (),database.deleteUser userId)

/-- Delete a photo; a failure is only logged. -/
def deletePhoto (broken : Bool) (photoId : ℕ) : Transaction Unit := fun database =>
  if broken then (.ok (),database) else (.ok (),database.deletePicture photoId)

/-- Columns of a profile update. -/
structure ProfileUpdate where
  /-- New nickname. -/
  nickname : Bytes
  /-- New first name. -/
  firstName : Bytes
  /-- New last name. -/
  lastName : Bytes
  /-- New email. -/
  email : Bytes
  /-- New truth value. -/
  isMale : Bool
  /-- New date. -/
  birthdate : Bytes

/-- The columns a JSON body names. -/
def profileUpdate (jsonBody : Json) : Except Failure ProfileUpdate := do
  let nickname ← textMember jsonBody (ascii "nickname")
  let firstName ← textMember jsonBody (ascii "firstname")
  let lastName ← textMember jsonBody (ascii "lastname")
  let email ← textMember jsonBody (ascii "email")
  let isMale ← jsonBody.index (ascii "is_male")>>=Json.getBool
  let birthdate ← textMember jsonBody (ascii "birthdate")
  return ⟨nickname,firstName,lastName,email,isMale,birthdate⟩

/-- Text of a truth value. -/
def boolText (value : Bool) : Bytes := if value then ascii "true" else ascii "false"

/-- A row with its profile columns replaced. -/
def ProfileUpdate.apply (update : ProfileUpdate) (row : UserRow) : UserRow :=
  {row with
    nickname := update.nickname,
    firstName := update.firstName,
    lastName := update.lastName,
    email := update.email,
    isMale := boolText update.isMale,
    birthdate := update.birthdate}

/-- Replace the profile of a user; a body without a column raises before any
statement, and occupied nicknames and emails have their own texts. -/
def updateData (broken : Bool) (jsonBody : Json) (id : ℕ) : Transaction Unit := fun database =>
  match profileUpdate jsonBody with
  | .error _ => (.error .jsonType,database)
  | .ok update =>
    let result := if broken then .error .failure else
      database.updateUser id update.apply fun _ => rfl
    match result with
    | .ok after => (.ok (),after)
    | .error e => (.error (occupiedError e),database)

/-- A registration leaves the tables alone or inserts its user. -/
theorem addProperties_after (broken : Bool) (userProperties : PropertyMap) (database : Database) :
    (addProperties broken userProperties database).2=database ∨
      broken=false ∧ database.insertUser (registeredUser userProperties database.users.next) rfl=
        .ok (addProperties broken userProperties database).2 := by
  unfold addProperties
  cases broken with
  | true => exact Or.inl rfl
  | false =>
    dsimp only
    rw [if_neg (by simp)]
    cases database.insertUser (registeredUser userProperties database.users.next) rfl with
    | error e => exact Or.inl rfl
    | ok after => exact Or.inr ⟨rfl,rfl⟩

/-- A profile update leaves the tables alone or changes the row of its user. -/
theorem updateData_after (broken : Bool) (jsonBody : Json) (id : ℕ) (database : Database) :
    (updateData broken jsonBody id database).2=database ∨
      broken=false ∧ ∃ update,profileUpdate jsonBody=.ok update ∧
        database.updateUser id update.apply (fun _ => rfl)=
          .ok (updateData broken jsonBody id database).2 := by
  unfold updateData
  cases profileUpdate jsonBody with
  | error failure => exact Or.inl rfl
  | ok update =>
    cases broken with
    | true => exact Or.inl rfl
    | false =>
      dsimp only
      rw [if_neg (by simp)]
      cases hafter : database.updateUser id update.apply (fun _ => rfl) with
      | error e => exact Or.inl rfl
      | ok after => exact Or.inr ⟨rfl,update,rfl,hafter⟩

end Photogram.AuthDatabase
