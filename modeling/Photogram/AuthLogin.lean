import Photogram.AuthDatabase

/-!
# Accounts found by a login

The login query of checkPassword compares emails after UPPER and needs
exactly one row, while the constraint on the column compares them byte for
byte. The query finds at most one row as long as nobody writes an email that
another account has in other letter case. Texts are free of NUL, where a
parameter of a statement would end.
-/

namespace Photogram.AuthLogin

open CxxString JsonValue QueryString RowTable AuthDatabase

/-- A transaction that writes emails. -/
inductive ProfileWrite where
  /-- A registration. -/
  | register (broken : Bool) (userProperties : PropertyMap)
  /-- A profile update of a user. -/
  | update (broken : Bool) (jsonBody : Json) (id : ℕ)

/-- The tables behind a write, whether it succeeds or raises. -/
def ProfileWrite.run (write : ProfileWrite) (database : Database) : Database :=
  match write with
  | .register broken userProperties => (addProperties broken userProperties database).2
  | .update broken jsonBody id => (updateData broken jsonBody id database).2

/-- The tables behind a sequence of writes. -/
def runWrites (writes : List ProfileWrite) (database : Database) : Database :=
  writes.foldl (fun database write => write.run database) database

section login

variable (upper : Bytes → Bytes)

/-- Rows of the query getHashPassword: the password hash and the id of every
user whose email equals the login after UPPER. -/
def hashPasswordRows (database : Database) (login : Bytes) : List (Bytes×ℕ) :=
  (database.users.rows.filter fun row => upper row.email=upper login).map fun row =>
    (row.password,row.id)

/-- The email of a write that does not break down equals that of another user
after UPPER only where it equals it byte for byte, which the constraint refuses. -/
def ProfileWrite.Separate (write : ProfileWrite) (database : Database) : Prop :=
  match write with
  | .register broken userProperties => broken=false → ∀ other ∈ database.users.rows,
      upper other.email=upper (property userProperties (ascii "email")) →
        other.email=property userProperties (ascii "email")
  | .update broken jsonBody id => broken=false → ∀ update,profileUpdate jsonBody=.ok update →
      ∀ other ∈ database.users.rows,other.id≠id → upper other.email=upper update.email →
        other.email=update.email

/-- Every write of a run is separate in the state it finds. -/
def Separated : List ProfileWrite → Database → Prop
  | [],_ => True
  | write::rest,database => write.Separate upper database ∧ Separated rest (write.run database)

/-- No two users share an email after UPPER. -/
def Distinguished (database : Database) : Prop :=
  UniqueBy (fun row : UserRow => upper row.email) database.users.rows

/-- Distinguished emails give each login at most one row. -/
theorem hashPasswordRows_le_one {database : Database} (h : Distinguished upper database)
    (login : Bytes) : (hashPasswordRows upper database login).length ≤ 1 := by
  unfold hashPasswordRows
  rw [List.length_map]
  exact length_filter_le_one h (upper login)

/-- A user inserted with a separate email keeps emails distinguished. -/
theorem distinguished_insertUser {database after : Database} {user : UserRow}
    {hid : user.id=database.users.next} (h : Distinguished upper database)
    (hafter : database.insertUser user hid=.ok after)
    (hnew : ∀ other ∈ database.users.rows,upper other.email=upper user.email →
      other.email=user.email) : Distinguished upper after := by
  unfold Database.insertUser at hafter
  split at hafter
  · split at hafter
    · next hemail =>
      cases hafter
      exact uniqueBy_append h fun other hother heq => hemail other hother (hnew other hother heq)
    · cases hafter
  · cases hafter

/-- An update to a separate email keeps emails distinguished. -/
theorem distinguished_updateUser {database after : Database} {id : ℕ} {update : ProfileUpdate}
    (h : Distinguished upper database)
    (hafter : database.updateUser id update.apply (fun _ => rfl)=.ok after)
    (hnew : ∀ other ∈ database.users.rows,other.id≠id → upper other.email=upper update.email →
      other.email=update.email) : Distinguished upper after := by
  unfold Database.updateUser at hafter
  split at hafter
  · split at hafter
    · next hemail =>
      cases hafter
      exact uniqueBy_update h id update.apply (fun _ => rfl) fun row hrow hid other hother hne heq =>
        hemail row hrow hid other hother hne (hnew other hother hne heq)
    · cases hafter
  · cases hafter

/-- A separate write keeps emails distinguished. -/
theorem distinguished_run {database : Database} {write : ProfileWrite}
    (h : Distinguished upper database) (hseparate : write.Separate upper database) :
    Distinguished upper (write.run database) := by
  cases write with
  | register broken userProperties =>
    change Distinguished upper (addProperties broken userProperties database).2
    rcases addProperties_after broken userProperties database with hsame|⟨hbroken,hafter⟩
    · rw [hsame]
      exact h
    · exact distinguished_insertUser upper h hafter (hseparate hbroken)
  | update broken jsonBody id =>
    change Distinguished upper (updateData broken jsonBody id database).2
    rcases updateData_after broken jsonBody id database with hsame|⟨hbroken,update,hupdate,hafter⟩
    · rw [hsame]
      exact h
    · exact distinguished_updateUser upper h hafter (hseparate hbroken update hupdate)

/-- A run of separate writes keeps emails distinguished. -/
theorem distinguished_runWrites {writes : List ProfileWrite} {database : Database}
    (h : Distinguished upper database) (hseparated : Separated upper writes database) :
    Distinguished upper (runWrites writes database) := by
  induction writes generalizing database with
  | nil => exact h
  | cons write rest ih => exact ih (distinguished_run upper h hseparated.1) hseparated.2

/-- Every login finds at most one row. -/
def AtMostOneRow (database : Database) : Prop :=
  ∀ login,(hashPasswordRows upper database login).length ≤ 1

/-- In a run from the empty tables whose writes are all separate, the login
query finds at most one row for every login. -/
theorem runWrites_atMostOneRow (writes : List ProfileWrite)
    (hseparated : Separated upper writes Database.empty) :
    AtMostOneRow upper (runWrites writes Database.empty) :=
  hashPasswordRows_le_one upper (distinguished_runWrites upper List.Pairwise.nil hseparated)

end login

section letterCase

/-- UPPER on ASCII letters. -/
def upperAscii (text : Bytes) : Bytes := text.map fun c => if 97 ≤ c ∧ c ≤ 122 then c-32 else c

/-- A registration with a nickname and an email. -/
def registerAs (nickname email : Bytes) : ProfileWrite :=
  .register false (((∅ : PropertyMap).insert (ascii "nickname") nickname).insert (ascii "email") email)

/-- Two different emails are separate. -/
theorem runWrites_two_accounts :
    AtMostOneRow upperAscii
      (runWrites [registerAs (ascii "a") (ascii "a@x"),registerAs (ascii "b") (ascii "b@x")]
        Database.empty) :=
  runWrites_atMostOneRow upperAscii _
    ⟨fun _ _ hmem => absurd hmem List.not_mem_nil,
      fun _ => by simp only [registerAs]; decide +kernel,trivial⟩

/-- The same email in other letter case locks both accounts out. -/
theorem runWrites_same_letters :
    ¬AtMostOneRow upperAscii
      (runWrites [registerAs (ascii "a") (ascii "a@x"),registerAs (ascii "b") (ascii "A@x")]
        Database.empty) :=
  fun h => absurd (h (ascii "a@x")) (by decide +kernel)

end letterCase

end Photogram.AuthLogin
