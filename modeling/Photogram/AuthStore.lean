import Photogram.AuthConnection
import Photogram.AuthPhotos
import Photogram.ListPages

/-!
# Database calls on the tables

WorkWithPostgreSQL.cpp as the dispatcher calls it, over the tables both
servers share. Keys come as texts, which the database reads as integers and
writes as decimal numerals. Every transaction may break down without effect.
What constraints the table friends has is not known to the code; a row they
refuse is a transaction that breaks down.
-/

namespace Photogram.AuthStore

open CxxString JsonValue QueryString RowTable AuthHttpParser AuthConnection AuthDatabase
open AuthRegistration AuthPhotos ContentPosts HttpReader PagedQuery ListPages

/-- What the database makes of texts, and the check of a password against a hash. -/
structure Dialect where
  /-- Upper case. -/
  upper : Bytes → Bytes
  /-- A text matches a pattern. -/
  like : Bytes → Bytes → Bool
  /-- Text of a timestamp. -/
  timestampText : ℕ → Bytes
  /-- Value of a bigint parameter. -/
  readBigint : Bytes → Option ℤ
  /-- Value of an integer parameter. -/
  readInteger : Bytes → Option ℤ
  /-- Truth behind the text of a column. -/
  readBoolean : Bytes → Option Bool
  /-- A password belongs to a hash. -/
  verify : Bytes → Bytes → Bool

/-- How the database treats a call. -/
structure Conditions where
  /-- The transactions of a registration. -/
  breakdowns : Breakdowns
  /-- The transaction of another call breaks down. -/
  broken : Bool
  /-- The statements of a list. -/
  circumstances : Circumstances
  /-- Order in which a list finds its users. -/
  arrangement : Arrangement unordered

section reads

variable (dialect : Dialect) {α : Type}

/-- A transaction that reads, unless it breaks down. -/
def reading (broken : Bool) (read : Except CxxException α) : Except CxxException α :=
  if broken then .error (.runtimeError "connection to server was lost") else read

/-- The user of a key. -/
def userOfKey (id : Bytes) (database : Database) : Except CxxException UserRow := do
  let key ← integer dialect.readInteger id
  execPrepared1 (database.users.rows.filter fun row => (row.id : ℤ)=key)

/-- Nickname of the user of a key; every error has one text. -/
def getNicknameById (broken : Bool) (id : Bytes) (database : Database) :
    Except CxxException Bytes :=
  ((reading broken (userOfKey dialect id database)).map UserRow.nickname).mapError fun _ =>
    .runtimeError "Can't getNickname"

/-- Profile of a user. -/
def profileJson (user : UserRow) (isMale : Bool) : Json := .object
  [(ascii "birthdate",.string user.birthdate),(ascii "email",.string user.email),
    (ascii "first_name",.string user.firstName),(ascii "id",.string (numeral user.id)),
    (ascii "is_male",.boolean isMale),(ascii "last_name",.string user.lastName),
    (ascii "nickname",.string user.nickname)]

/-- Profile of the user of a nickname, if its truth value can be converted. -/
def readProfile (nickname : Bytes) (database : Database) : Except CxxException Json := do
  let user ← execPrepared1 (database.users.rows.filter fun row => row.nickname=nickname)
  match dialect.readBoolean user.isMale with
  | some isMale => return profileJson user isMale
  | none => throw (.runtimeError "Could not convert string to bool")

/-- Profile of the user of a nickname. -/
def getProfileInformation (broken : Bool) (nickname : Bytes) (database : Database) :
    Except CxxException Json :=
  (reading broken (readProfile dialect nickname database)).mapError notFound

/-- Type and bytes of the photo of a key. -/
def readPicture (id : Bytes) (database : Database) : Except CxxException (Bytes×Bytes) := do
  let key ← integer dialect.readInteger id
  let picture ← execPrepared1 (database.pictures.rows.filter fun row => (row.id : ℤ)=key)
  return (picture.photoType,picture.photo)

/-- Type and bytes of the photo of a key. -/
def getPhotoById (broken : Bool) (id : Bytes) (database : Database) :
    Except CxxException (Bytes×Bytes) :=
  (reading broken (readPicture dialect id database)).mapError notFound

end reads

section writes

variable (dialect : Dialect) (broken : Bool)

/-- UPDATE of the password of an id. -/
def setPassword (database : Database) (id : ℕ) (password : Bytes) : Database :=
  ⟨database.users.update id (fun row => {row with password := password}) fun _ => rfl,
    database.pictures,uniqueBy_keep database.nicknames _ _ _ fun _ => rfl,
    uniqueBy_keep database.emails _ _ _ fun _ => rfl⟩

/-- Key of the row of users an integer names; the next one, which no row has
yet, stands for a negative integer. -/
def userKey (key : ℤ) (database : Database) : ℕ :=
  if 0 ≤ key then key.toNat else database.users.next

/-- A transaction on the row of users of a key given as text. -/
def onUser (id : Bytes) (unread : CxxException → CxxException)
    (transaction : ℕ → Transaction Unit) : Transaction Unit := fun database =>
  match integer dialect.readInteger id with
  | .ok key => transaction (userKey key database) database
  | .error e => (.error (unread e),database)

/-- Replace the photo of a user. -/
def updateProfilePhoto (postInfo : PostTInfo) (id : Bytes) : Transaction Unit :=
  onUser dialect id (fun _ => .runtimeError "Can't add photo")
    (AuthPhotos.updateProfilePhoto broken (property postInfo.userProperties (ascii "photo_type"))
      postInfo.binaryData)

/-- Replace the profile of a user; the body is read before the statement. -/
def updateProfileData (jsonBody : Json) (id : Bytes) : Transaction Unit := fun database =>
  match profileUpdate jsonBody with
  | .error _ => (.error .jsonType,database)
  | .ok _ => onUser dialect id (fun e => e) (updateData broken jsonBody) database

/-- Replace the password of a row. -/
def updatePassword (password : Bytes) (id : ℕ) : Transaction Unit := fun database =>
  if broken then (.error (.runtimeError "connection to server was lost"),database)
  else (.ok (),setPassword database id password)

/-- Replace the password of a user. -/
def updateProfilePassword (password id : Bytes) : Transaction Unit :=
  onUser dialect id (fun e => e) (updatePassword broken password)

end writes

section friends

variable (dialect : Dialect) (broken : Bool) (userId friendId : Bytes)

/-- The row two keys name, if its statement does not break down. -/
def friendRow : Except CxxException Friend := do
  let user ← integer dialect.readInteger userId
  let friend ← integer dialect.readInteger friendId
  reading broken (.ok ⟨user,friend⟩)

/-- Insert a friend; every error has one text. -/
def makeFriend (friends : List Friend) : Except CxxException Unit×List Friend :=
  match friendRow dialect broken userId friendId with
  | .ok row => (.ok (),friends++[row])
  | .error _ => (.error (.runtimeError "404"),friends)

/-- Delete a friend, in all its rows; every error has one text. -/
def deleteFriend (friends : List Friend) : Except CxxException Unit×List Friend :=
  match friendRow dialect broken userId friendId with
  | .ok row => (.ok (),friends.filter (·≠row))
  | .error _ => (.error (.runtimeError "404"),friends)

/-- Whether a user has a friend. -/
def getStatus (friends : List Friend) : Except CxxException Json := do
  let row ← friendRow dialect broken userId friendId
  let status := if row ∈ friends then ascii "friend" else ascii "stranger"
  return .object [(ascii "status",.string status)]

end friends

section calls

variable (dialect : Dialect)

/-- A transaction on the accounts leaves the other tables. -/
def onAccounts {α : Type} (transaction : Transaction α) (store : Store) :
    Except CxxException α×Store :=
  ((transaction store.accounts).1,{store with accounts := (transaction store.accounts).2})

/-- A registration as a transaction; it does nothing undefined. -/
def registration (breakdowns : Breakdowns) (postInfo : PostTInfo) : Transaction ℕ := fun database =>
  let result := addNewUser breakdowns postInfo.userProperties postInfo.binaryData database
  match result.1 with
  | .ok userId => (.ok userId,result.2)
  | .error (.thrown e) => (.error e,result.2)
  | .error (.undefined _) => (.error (.runtimeError "undefined"),result.2)

/-- Answer of a database call, and the tables behind it. -/
def callStore (conditions : Conditions) :
    (call : DbCall) → Store → Except CxxException call.Answer×Store
  | .checkPassword login password,store =>
    let checked := checkPassword dialect.upper dialect.verify conditions.broken login password
      store.accounts
    (checked.1.map numeral,{store with accounts := checked.2})
  | .getNicknameById id,store => (getNicknameById dialect conditions.broken id store.accounts,store)
  | .addNewUser postInfo,store =>
    let registered := registration conditions.breakdowns postInfo store.accounts
    (registered.1.map numeral,{store with accounts := registered.2})
  | .updateProfilePhoto postInfo id,store =>
    onAccounts (updateProfilePhoto dialect conditions.broken postInfo id) store
  | .updateProfileData jsonBody id,store =>
    onAccounts (updateProfileData dialect conditions.broken jsonBody id) store
  | .updateProfilePassword password id,store =>
    onAccounts (updateProfilePassword dialect conditions.broken password id) store
  | .getProfileInformation nickname,store =>
    (getProfileInformation dialect conditions.broken nickname store.accounts,store)
  | .getProfilePhoto nickname,store =>
    onAccounts (getProfilePhoto conditions.broken nickname) store
  | .getUsers properties id,store =>
    (getUsers dialect.upper dialect.like dialect.readBigint dialect.readInteger
      conditions.circumstances conditions.arrangement properties id store .null,store)
  | .getPhotoById id,store => (getPhotoById dialect conditions.broken id store.accounts,store)
  | .makeFriend userId friendId,store =>
    let made := makeFriend dialect conditions.broken userId friendId store.friends
    (made.1,{store with friends := made.2})
  | .deleteFriend userId friendId,store =>
    let deleted := deleteFriend dialect conditions.broken userId friendId store.friends
    (deleted.1,{store with friends := deleted.2})
  | .getStatus userId friendId,store =>
    (getStatus dialect conditions.broken userId friendId store.friends,store)

/-- A new profile keeps the key. -/
theorem apply_id (update : ProfileUpdate) (row : UserRow) : (update.apply row).id=row.id := rfl

/-- A call that writes one row in one transaction. -/
def Writing : DbCall → Prop
  | .updateProfilePhoto _ _ | .updateProfileData _ _ | .updateProfilePassword _ _
  | .makeFriend _ _ | .deleteFriend _ _ => True
  | _ => False

/-- What an acknowledged write makes of the tables. -/
def Written (store after : Store) : DbCall → Prop
  | .updateProfilePhoto postInfo id => ∃ key,dialect.readInteger id=some key ∧
      after={store with accounts := (setPicture store.accounts (userKey key store.accounts)
        (property postInfo.userProperties (ascii "photo_type")) postInfo.binaryData)}
  | .updateProfileData jsonBody id => ∃ key update accounts,dialect.readInteger id=some key ∧
      profileUpdate jsonBody=.ok update ∧
      store.accounts.updateUser (userKey key store.accounts) update.apply (apply_id update)=
        .ok accounts ∧
      after={store with accounts := accounts}
  | .updateProfilePassword password id => ∃ key,dialect.readInteger id=some key ∧
      after={store with
        accounts := setPassword store.accounts (userKey key store.accounts) password}
  | .makeFriend userId friendId => ∃ row : Friend,dialect.readInteger userId=some row.userId ∧
      dialect.readInteger friendId=some row.friendId ∧
      after={store with friends := store.friends++[row]}
  | .deleteFriend userId friendId => ∃ row : Friend,dialect.readInteger userId=some row.userId ∧
      dialect.readInteger friendId=some row.friendId ∧
      after={store with friends := store.friends.filter (·≠row)}
  | _ => False

variable {conditions : Conditions} {store : Store}

/-- A row of friends is that of the keys behind its texts. -/
theorem friendRow_ok {broken : Bool} {userId friendId : Bytes} {row : Friend}
    (h : friendRow dialect broken userId friendId=.ok row) :
    broken=false ∧ dialect.readInteger userId=some row.userId ∧
      dialect.readInteger friendId=some row.friendId := by
  obtain ⟨user,huser,h⟩ := except_bind_ok h
  obtain ⟨friend,hfriend,h⟩ := except_bind_ok h
  unfold reading at h
  cases broken with
  | true => cases h
  | false =>
    cases h
    exact ⟨rfl,integer_ok _ huser,integer_ok _ hfriend⟩

/-- A transaction on the row of a key was not reached, or ran on it. -/
theorem onUser_cases (id : Bytes) (unread : CxxException → CxxException)
    (transaction : ℕ → Transaction Unit) (database : Database) :
    (∃ e,onUser dialect id unread transaction database=(.error e,database)) ∨
      ∃ key,dialect.readInteger id=some key ∧ onUser dialect id unread transaction database=
        transaction (userKey key database) database := by
  unfold onUser
  cases hkey : integer dialect.readInteger id with
  | error e => exact Or.inl ⟨_,rfl⟩
  | ok key => exact Or.inr ⟨key,integer_ok _ hkey,rfl⟩

/-- A call that writes raises and leaves the tables, or is acknowledged and has written. -/
theorem callStore_writing {call : DbCall} (h : Writing call) :
    ((∃ e,(callStore dialect conditions call store).1=.error e) ∧
        (callStore dialect conditions call store).2=store) ∨
      (∃ answer,(callStore dialect conditions call store).1=.ok answer) ∧
        Written dialect store (callStore dialect conditions call store).2 call := by
  cases call with
  | updateProfilePhoto postInfo id =>
    unfold callStore onAccounts updateProfilePhoto Written
    dsimp only
    rcases onUser_cases dialect id (fun _ => .runtimeError "Can't add photo")
      (AuthPhotos.updateProfilePhoto conditions.broken
        (property postInfo.userProperties (ascii "photo_type")) postInfo.binaryData) store.accounts
      with ⟨e,hrefused⟩|⟨key,hkey,hran⟩
    · rw [hrefused]
      exact Or.inl ⟨⟨e,rfl⟩,rfl⟩
    · rw [hran]
      unfold AuthPhotos.updateProfilePhoto updatePhoto
      cases conditions.broken with
      | true => exact Or.inl ⟨⟨_,rfl⟩,rfl⟩
      | false => exact Or.inr ⟨⟨(),rfl⟩,key,hkey,rfl⟩
  | updateProfileData jsonBody id =>
    unfold callStore onAccounts updateProfileData Written
    dsimp only
    cases hbody : profileUpdate jsonBody with
    | error failure => exact Or.inl ⟨⟨_,rfl⟩,rfl⟩
    | ok update =>
      rcases onUser_cases dialect id (fun e => e) (updateData conditions.broken jsonBody)
        store.accounts with ⟨e,hrefused⟩|⟨key,hkey,hran⟩
      · rw [hrefused]
        exact Or.inl ⟨⟨e,rfl⟩,rfl⟩
      · dsimp only
        rw [hran]
        unfold updateData
        rw [hbody]
        cases conditions.broken with
        | true => exact Or.inl ⟨⟨_,rfl⟩,rfl⟩
        | false =>
          dsimp only
          rw [if_neg Bool.false_ne_true]
          cases hafter : store.accounts.updateUser (userKey key store.accounts) update.apply
            fun _ => rfl with
          | error e => exact Or.inl ⟨⟨_,rfl⟩,rfl⟩
          | ok accounts => exact Or.inr ⟨⟨(),rfl⟩,key,update,accounts,hkey,rfl,hafter,rfl⟩
  | updateProfilePassword password id =>
    unfold callStore onAccounts updateProfilePassword Written
    dsimp only
    rcases onUser_cases dialect id (fun e => e)
      (updatePassword conditions.broken password) store.accounts with ⟨e,hrefused⟩|⟨key,hkey,hran⟩
    · rw [hrefused]
      exact Or.inl ⟨⟨e,rfl⟩,rfl⟩
    · rw [hran]
      unfold updatePassword
      cases conditions.broken with
      | true => exact Or.inl ⟨⟨_,rfl⟩,rfl⟩
      | false => exact Or.inr ⟨⟨(),rfl⟩,key,hkey,rfl⟩
  | makeFriend userId friendId =>
    unfold callStore makeFriend Written
    dsimp only
    cases hrow : friendRow dialect conditions.broken userId friendId with
    | error e => exact Or.inl ⟨⟨_,rfl⟩,rfl⟩
    | ok row => exact Or.inr ⟨⟨(),rfl⟩,row,(friendRow_ok dialect hrow).2.1,(friendRow_ok dialect hrow).2.2,rfl⟩
  | deleteFriend userId friendId =>
    unfold callStore deleteFriend Written
    dsimp only
    cases hrow : friendRow dialect conditions.broken userId friendId with
    | error e => exact Or.inl ⟨⟨_,rfl⟩,rfl⟩
    | ok row => exact Or.inr ⟨⟨(),rfl⟩,row,(friendRow_ok dialect hrow).2.1,(friendRow_ok dialect hrow).2.2,rfl⟩
  | _ => exact h.elim

/-- A call that reads leaves the tables, whether it answers or raises. -/
theorem callStore_reading {call : DbCall} (h : ¬Writing call)
    (hregistration : ∀ postInfo,call≠.addNewUser postInfo) :
    (callStore dialect conditions call store).2=store := by
  cases call with
  | checkPassword login password =>
    unfold callStore checkPassword
    cases conditions.broken <;> rfl
  | getProfilePhoto nickname =>
    unfold callStore onAccounts getProfilePhoto
    cases conditions.broken <;> rfl
  | addNewUser postInfo => exact absurd rfl (hregistration postInfo)
  | updateProfilePhoto postInfo id => exact absurd trivial h
  | updateProfileData jsonBody id => exact absurd trivial h
  | updateProfilePassword password id => exact absurd trivial h
  | makeFriend userId friendId => exact absurd trivial h
  | deleteFriend userId friendId => exact absurd trivial h
  | _ => rfl

end calls

end Photogram.AuthStore
