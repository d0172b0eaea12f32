import Mathlib.Logic.Function.Basic
import Photogram.AuthRegistration
import Photogram.AuthLogin
import Photogram.Schedule

/-!
# Profile photos

WorkWithPostgreSQL::getProfilePhoto, updateProfilePhoto and checkPassword,
and the runs of a database that serves registrations, logins, photo updates
and reads. A registration is three transactions, and others may come between
them; its user can log in behind the first, and has no photo to update before
the last. An update that finds no photo writes nothing and is acknowledged
all the same. Texts are free of NUL, where a parameter of a statement would end.
-/

namespace Photogram.AuthPhotos

open CxxString QueryString RowTable AuthDatabase AuthRegistration AuthLogin Schedule

section transactions

/-- The only row of a result. -/
def execPrepared1 {ρ : Type} (rows : List ρ) : Except CxxException ρ :=
  match rows with
  | [row] => .ok row
  | [] => .error (.runtimeError "got 0")
  | _ => .error (.runtimeError "unexpected number of rows")

/-- What a read raises for an error of its statements. -/
def notFound (e : CxxException) : CxxException :=
  if e=.runtimeError "got 0" then .runtimeError "404" else e

/-- The photo of the user of a nickname, by the key in its row; a missing key
is no number to the second statement. -/
def readPhoto (nickname : Bytes) (database : Database) : Except CxxException (Bytes×Bytes) := do
  let user ← execPrepared1 (database.users.rows.filter fun row => row.nickname=nickname)
  match user.photoId with
  | none => throw (.runtimeError "invalid input syntax for type integer")
  | some photoId =>
    let picture ← execPrepared1 (database.pictures.rows.filter fun row => row.id=photoId)
    return (picture.photoType,picture.photo)

/-- Type and bytes of the photo of a nickname. -/
def getProfilePhoto (broken : Bool) (nickname : Bytes) : Transaction (Bytes×Bytes) :=
  fun database =>
    if broken then (.error (.runtimeError "connection to server was lost"),database)
    else ((readPhoto nickname database).mapError notFound,database)

/-- SELECT of the photo key of a user; without a row it is NULL as well. -/
def photoIdOf (database : Database) (userId : ℕ) : Option ℕ :=
  (database.users.rows.find? fun row => row.id=userId).bind UserRow.photoId

/-- UPDATE of the photo a user links to. -/
def setPicture (database : Database) (userId : ℕ) (photoType photo : Bytes) : Database :=
  match photoIdOf database userId with
  | some photoId =>
    ⟨database.users,
      database.pictures.update photoId
        (fun row => {row with photoType := photoType,photo := photo}) fun _ => rfl,
      database.nicknames,database.emails⟩
  | none => database

/-- Write the photo of a user; that a row was written is not asked for. -/
def updatePhoto (broken : Bool) (photoType photo : Bytes) (id : ℕ) : Transaction Unit :=
  fun database =>
    if broken then (.error (.runtimeError "Can't add photo"),database)
    else (.ok (),setPicture database id photoType photo)

/-- Write the photo of a user, raising again what is raised. -/
def updateProfilePhoto (broken : Bool) (photoType photo : Bytes) (id : ℕ) : Transaction Unit :=
  updatePhoto broken photoType photo id

/-- The password check behind its statements; the first asks for the user of
the key 18. -/
def login (upper : Bytes → Bytes) (verify : Bytes → Bytes → Bool) (email password : Bytes)
    (database : Database) : Except CxxException ℕ := do
  let _ ← execPrepared1 (database.users.rows.filter fun row => row.id=18)
  let (hashPassword,id) ← execPrepared1 (hashPasswordRows upper database email)
  if verify password hashPassword then return id
  else throw (.runtimeError "Invalid login or password")

/-- Key of the user of an email and a password. -/
def checkPassword (upper : Bytes → Bytes) (verify : Bytes → Bytes → Bool) (broken : Bool)
    (email password : Bytes) : Transaction ℕ := fun database =>
  if broken then (.error (.runtimeError "Invalid login or password"),database)
  else ((login upper verify email password database).mapError fun _ =>
    .runtimeError "Invalid login or password",database)

end transactions

section site

/-- A registration behind its first transaction. -/
structure Registering where
  /-- The text fields of the form. -/
  userProperties : PropertyMap
  /-- Bytes of the photo of the form. -/
  binaryData : Bytes
  /-- Key of the photo, once it is inserted. -/
  photoId : Option ℕ

/-- The tables, what registrations are under way, and what was acknowledged. -/
structure Site where
  /-- The tables. -/
  database : Database
  /-- The registrations under way, by the key of their user. -/
  registering : ℕ → Option Registering
  /-- Type and bytes of the last acknowledged update of each user. -/
  acknowledged : ℕ → Option (Bytes×Bytes)

/-- A transaction that is committed. -/
inductive Move where
  /-- The first one of a registration. -/
  | addProperties (userProperties : PropertyMap) (binaryData : Bytes)
  /-- The second one of the registration of a user. -/
  | addNewPhoto (userId : ℕ)
  /-- The last one of the registration of a user. -/
  | connectPropertiesAndPhoto (userId : ℕ)
  /-- That of a login. -/
  | checkPassword (email password : Bytes)
  /-- That of a photo update, acknowledged with OK. -/
  | updateProfilePhoto (photoType photo : Bytes) (id : ℕ)
  /-- That of a read. -/
  | getProfilePhoto (nickname : Bytes)

variable (upper : Bytes → Bytes) (verify : Bytes → Bytes → Bool)

/-- A committed transaction of a site; one that raises is none. -/
def step (site : Site) : Move → Option Site
  | .addProperties userProperties binaryData =>
    match addProperties false userProperties site.database with
    | (.ok userId,after) => some {site with
        database := after,
        registering := Function.update site.registering userId
          (some ⟨userProperties,binaryData,none⟩)}
    | (.error _,_) => none
  | .addNewPhoto userId =>
    match site.registering userId with
    | some ⟨userProperties,binaryData,none⟩ =>
      match addNewPhoto false (property userProperties (ascii "photo_type")) binaryData
          site.database with
      | (.ok photoId,after) => some {site with
          database := after,
          registering := Function.update site.registering userId
            (some ⟨userProperties,binaryData,some photoId⟩)}
      | (.error _,_) => none
    | _ => none
  | .connectPropertiesAndPhoto userId =>
    match site.registering userId with
    | some ⟨_,_,some photoId⟩ =>
      match connectPropertiesAndPhoto false userId photoId site.database with
      | (.ok _,after) => some {site with
          database := after,
          registering := Function.update site.registering userId none}
      | (.error _,_) => none
    | _ => none
  | .checkPassword email password =>
    match checkPassword upper verify false email password site.database with
    | (.ok _,after) => some {site with database := after}
    | (.error _,_) => none
  | .updateProfilePhoto photoType photo id =>
    match updateProfilePhoto false photoType photo id site.database with
    | (.ok _,after) => some {site with
        database := after,
        acknowledged := Function.update site.acknowledged id (some (photoType,photo))}
    | (.error _,_) => none
  | .getProfilePhoto nickname =>
    match getProfilePhoto false nickname site.database with
    | (.ok _,after) => some {site with database := after}
    | (.error _,_) => none

/-- The three transactions of a registration on its own make of the tables
what addNewUser makes of them. -/
theorem run_registration {site : Site} {userProperties : PropertyMap} {binaryData : Bytes}
    {userId : ℕ} {after : Database}
    (h : addProperties false userProperties site.database=(.ok userId,after)) :
    (run (step upper verify) site [.addProperties userProperties binaryData,.addNewPhoto userId,
        .connectPropertiesAndPhoto userId]).map Site.database=
      some (addNewUser ⟨false,false,false,false,false⟩ userProperties binaryData
        site.database).2 := by
  rw [addNewUser_inserted ⟨false,false,false,false,false⟩ userProperties binaryData
    site.database h]
  simp only [run,step,h,Function.update_self,addNewPhoto,connectPropertiesAndPhoto,
    Bool.false_eq_true,if_false,Option.map_some,outcomeBehindUser]

end site

section reads

variable {database : Database}

/-- The table holds a photo of the key. -/
def HasPicture (database : Database) (photoId : ℕ) : Prop :=
  ∃ picture ∈ database.pictures.rows,picture.id=photoId

/-- The user links to a photo with this type and these bytes. -/
def Shows (database : Database) (user : UserRow) (latest : Bytes×Bytes) : Prop :=
  ∃ photoId,user.photoId=some photoId ∧ ∃ picture ∈ database.pictures.rows,
    picture.id=photoId ∧ (picture.photoType,picture.photo)=latest

/-- A read by the nickname of a user finds its row. -/
theorem readPhoto_eq {user : UserRow} (hmem : user ∈ database.users.rows) :
    readPhoto user.nickname database=
      match user.photoId with
      | none => .error (.runtimeError "invalid input syntax for type integer")
      | some photoId =>
        (execPrepared1 (database.pictures.rows.filter fun row => row.id=photoId)).map
          fun picture => (picture.photoType,picture.photo) := by
  have hone : database.users.rows.filter (fun row => row.nickname=user.nickname)=[user] :=
    filter_unique database.nicknames hmem
  unfold readPhoto
  rw [hone]
  rfl

/-- A read returns a photo exactly when the user links to it. -/
theorem getProfilePhoto_iff {user : UserRow} (hmem : user ∈ database.users.rows)
    (latest : Bytes×Bytes) :
    (getProfilePhoto false user.nickname database).1=.ok latest ↔ Shows database user latest := by
  change (readPhoto user.nickname database).mapError notFound=.ok latest ↔ _
  rw [readPhoto_eq hmem]
  unfold Shows
  cases hphoto : user.photoId with
  | none => exact iff_of_false nofun nofun
  | some photoId =>
    dsimp only
    constructor
    · intro h
      cases hrows : database.pictures.rows.filter fun row => row.id=photoId with
      | nil =>
        rw [hrows] at h
        cases h
      | cons picture rest =>
        have hpicture : picture ∈ database.pictures.rows.filter fun row => row.id=photoId := by
          rw [hrows]
          exact List.mem_cons_self
        obtain ⟨hrow,hid⟩ := List.mem_filter.mp hpicture
        rw [hrows] at h
        cases rest with
        | nil =>
          cases h
          exact ⟨photoId,rfl,picture,hrow,of_decide_eq_true hid,rfl⟩
        | cons other rest => cases h
    · rintro ⟨linked,hlinked,picture,hrow,hid,rfl⟩
      cases hlinked
      cases hid
      rw [filter_key database.pictures hrow]
      rfl

end reads

section invariant

/-- A user links to a photo, or is about to be linked to it by its registration. -/
def Holds (site : Site) (userId photoId : ℕ) : Prop :=
  (∃ user ∈ site.database.users.rows,user.id=userId ∧ user.photoId=some photoId) ∨
    ∃ registering,site.registering userId=some registering ∧ registering.photoId=some photoId

/-- Every photo a user holds is in the table and nobody else's, and a user
under registration has no link yet. -/
structure Sound (site : Site) : Prop where
  /-- A held photo is in the table. -/
  present : ∀ userId photoId,Holds site userId photoId → HasPicture site.database photoId
  /-- No two users hold one photo. -/
  unshared : ∀ a b photoId,Holds site a photoId → Holds site b photoId → a=b
  /-- A registration under way has inserted its user and not linked it. -/
  begun : ∀ userId registering,site.registering userId=some registering →
    ∃ user ∈ site.database.users.rows,user.id=userId ∧ user.photoId=none

/-- Every acknowledged update of a user can be read by its nickname. -/
def Shown (site : Site) : Prop :=
  ∀ id latest,site.acknowledged id=some latest → ∃ user ∈ site.database.users.rows,
    user.id=id ∧ (getProfilePhoto false user.nickname site.database).1=.ok latest

/-- An update is made for a user that links to a photo. -/
def Linked (site : Site) : Move → Prop
  | .updateProfilePhoto _ _ id => ∃ user ∈ site.database.users.rows,
      user.id=id ∧ ∃ photoId,user.photoId=some photoId
  | _ => True

/-- Empty tables without registrations. -/
def unused : Site := ⟨Database.empty,fun _ => none,fun _ => none⟩

/-- Empty tables are sound. -/
theorem sound_unused : Sound unused := by
  have hnone : ∀ userId photoId,¬Holds unused userId photoId := by
    rintro userId photoId (⟨user,hmem,_⟩|⟨registering,hregistering,_⟩)
    · exact absurd hmem List.not_mem_nil
    · cases hregistering
  exact ⟨fun a p h => absurd h (hnone a p),fun a _ p h => absurd h (hnone a p),nofun⟩

end invariant

section steps

variable {upper : Bytes → Bytes} {verify : Bytes → Bytes → Bool} {site next : Site}

/-- What a committed transaction makes of a site. -/
def Took (site next : Site) : Move → Prop
  | .addProperties userProperties binaryData =>
    next.database.users.rows=site.database.users.rows++
        [registeredUser userProperties site.database.users.next] ∧
      next.database.pictures=site.database.pictures ∧
      next.registering=Function.update site.registering site.database.users.next
        (some ⟨userProperties,binaryData,none⟩) ∧
      next.acknowledged=site.acknowledged
  | .addNewPhoto userId => ∃ userProperties binaryData,
      site.registering userId=some ⟨userProperties,binaryData,none⟩ ∧
      next={site with
        database := site.database.insertPicture ⟨site.database.pictures.next,
          property userProperties (ascii "photo_type"),binaryData⟩ rfl,
        registering := Function.update site.registering userId
          (some ⟨userProperties,binaryData,some site.database.pictures.next⟩)}
  | .connectPropertiesAndPhoto userId => ∃ userProperties binaryData photoId,
      site.registering userId=some ⟨userProperties,binaryData,some photoId⟩ ∧
      next={site with
        database := site.database.setPhoto userId photoId,
        registering := Function.update site.registering userId none}
  | .updateProfilePhoto photoType photo id =>
      next={site with
        database := setPicture site.database id photoType photo,
        acknowledged := Function.update site.acknowledged id (some (photoType,photo))}
  | .checkPassword _ _ => next=site
  | .getProfilePhoto _ => next=site

/-- Everything a step can do. -/
theorem step_took {move : Move} (h : step upper verify site move=some next) :
    Took site next move := by
  cases move with
  | addProperties userProperties binaryData =>
    unfold step at h
    rcases addProperties_cases ⟨false,false,false,false,false⟩ userProperties site.database with
      ⟨_,e,hadd⟩|⟨_,after,hadd,hpictures,husers⟩
    · dsimp only at hadd h
      rw [hadd] at h
      cases h
    · dsimp only at hadd h
      rw [hadd] at h
      cases h
      exact ⟨congrArg Table.rows husers,hpictures,rfl,rfl⟩
  | addNewPhoto userId =>
    unfold step at h
    dsimp only at h
    split at h
    · next userProperties binaryData hregistering =>
      cases h
      exact ⟨userProperties,binaryData,hregistering,rfl⟩
    · cases h
  | connectPropertiesAndPhoto userId =>
    unfold step at h
    dsimp only at h
    split at h
    · next userProperties binaryData photoId hregistering =>
      cases h
      exact ⟨userProperties,binaryData,photoId,hregistering,rfl⟩
    · cases h
  | checkPassword email password =>
    unfold step at h
    dsimp only [checkPassword] at h
    rw [if_neg (by simp)] at h
    split at h
    · next heq =>
      cases h
      rw [←(Prod.mk.inj heq).2]
      rfl
    · cases h
  | updateProfilePhoto photoType photo id =>
    cases h
    rfl
  | getProfilePhoto nickname =>
    unfold step at h
    dsimp only [getProfilePhoto] at h
    rw [if_neg (by simp)] at h
    split at h
    · next heq =>
      cases h
      rw [←(Prod.mk.inj heq).2]
      rfl
    · cases h

/-- A photo key of a user is that of its row. -/
theorem photoIdOf_iff {database : Database} {userId photoId : ℕ} :
    photoIdOf database userId=some photoId ↔
      ∃ user ∈ database.users.rows,user.id=userId ∧ user.photoId=some photoId := by
  unfold photoIdOf
  rw [Option.bind_eq_some_iff]
  constructor
  · rintro ⟨user,hfind,hphoto⟩
    exact ⟨user,List.mem_of_find?_eq_some hfind,
      of_decide_eq_true (List.find?_some (p := fun row : UserRow => row.id=userId) hfind),hphoto⟩
  · rintro ⟨user,hmem,hid,hphoto⟩
    cases hfind : database.users.rows.find? fun row => row.id=userId with
    | none =>
      rw [List.find?_eq_none] at hfind
      exact absurd (decide_eq_true hid) (hfind user hmem)
    | some found =>
      have hfound : found.id=userId :=
        of_decide_eq_true (List.find?_some (p := fun row : UserRow => row.id=userId) hfind)
      have hsame : found=user := eq_of_key_eq database.users (List.mem_of_find?_eq_some hfind) hmem
        (hfound.trans hid.symm)
      exact ⟨found,rfl,hsame ▸ hphoto⟩

/-- A photo update leaves the users alone. -/
theorem setPicture_users (database : Database) (userId : ℕ) (photoType photo : Bytes) :
    (setPicture database userId photoType photo).users=database.users := by
  unfold setPicture
  split <;> rfl

/-- A photo update keeps the keys of photos. -/
theorem HasPicture.setPicture {database : Database} {photoId : ℕ} (h : HasPicture database photoId)
    (userId : ℕ) (photoType photo : Bytes) :
    HasPicture (setPicture database userId photoType photo) photoId := by
  obtain ⟨picture,hmem,hid⟩ := h
  unfold AuthPhotos.setPicture
  split
  · next written hwritten =>
    refine ⟨_,List.mem_map_of_mem hmem,?_⟩
    unfold changeAt
    split <;> exact hid
  · exact ⟨picture,hmem,hid⟩

/-- What holds its photos in a site that is sound, keeps its photos and
begins no registration of another user is sound. -/
theorem Sound.of_holds (h : Sound site)
    (hholds : ∀ userId photoId,Holds next userId photoId → Holds site userId photoId)
    (hpictures : ∀ photoId,HasPicture site.database photoId → HasPicture next.database photoId)
    (hbegun : ∀ userId registering,next.registering userId=some registering →
      ∃ user ∈ next.database.users.rows,user.id=userId ∧ user.photoId=none) : Sound next where
  present userId photoId hheld := hpictures photoId (h.present userId photoId (hholds _ _ hheld))
  unshared a b photoId ha hb := h.unshared a b photoId (hholds _ _ ha) (hholds _ _ hb)
  begun := hbegun

/-- The first transaction of a registration gives nobody a photo. -/
theorem sound_addProperties (h : Sound site) {userProperties : PropertyMap} {binaryData : Bytes}
    (htook : Took site next (.addProperties userProperties binaryData)) : Sound next := by
  obtain ⟨husers,hpictures,hregistering,_⟩ := htook
  refine h.of_holds ?_ ?_ ?_
  · rintro userId photoId (⟨user,hmem,hid,hphoto⟩|⟨registering,hrunning,hphoto⟩)
    · rw [husers] at hmem
      rcases List.mem_append.mp hmem with hold|hnew
      · exact Or.inl ⟨user,hold,hid,hphoto⟩
      · rw [List.mem_singleton.mp hnew] at hphoto
        cases hphoto
    · rw [hregistering] at hrunning
      by_cases hself : userId=site.database.users.next
      · rw [hself,Function.update_self] at hrunning
        cases hrunning
        cases hphoto
      · rw [Function.update_of_ne hself] at hrunning
        exact Or.inr ⟨registering,hrunning,hphoto⟩
  · unfold HasPicture
    rw [hpictures]
    exact fun _ hheld => hheld
  · intro userId registering hrunning
    rw [hregistering] at hrunning
    rw [husers]
    by_cases hself : userId=site.database.users.next
    · exact ⟨_,List.mem_append_right _ List.mem_cons_self,hself.symm,rfl⟩
    · rw [Function.update_of_ne hself] at hrunning
      obtain ⟨user,hmem,huser⟩ := h.begun userId registering hrunning
      exact ⟨user,List.mem_append_left _ hmem,huser⟩

/-- The second transaction of a registration holds a photo nobody had. -/
theorem sound_addNewPhoto (h : Sound site) {userId : ℕ}
    (htook : Took site next (.addNewPhoto userId)) : Sound next := by
  obtain ⟨userProperties,binaryData,hregistering,rfl⟩ := htook
  have hfresh : ∀ other,¬Holds site other site.database.pictures.next := by
    intro other hheld
    obtain ⟨picture,hmem,hid⟩ := h.present _ _ hheld
    have hlt := site.database.pictures.key_lt picture hmem
    omega
  have hholds : ∀ other photoId,Holds {site with
      database := site.database.insertPicture ⟨site.database.pictures.next,
        property userProperties (ascii "photo_type"),binaryData⟩ rfl,
      registering := Function.update site.registering userId
        (some ⟨userProperties,binaryData,some site.database.pictures.next⟩)} other photoId →
      Holds site other photoId ∨ other=userId ∧ photoId=site.database.pictures.next := by
    rintro other photoId (huser|⟨registering,hrunning,hphoto⟩)
    · exact Or.inl (Or.inl huser)
    · dsimp only at hrunning
      by_cases hself : other=userId
      · rw [hself,Function.update_self] at hrunning
        cases hrunning
        exact Or.inr ⟨hself,(Option.some.inj hphoto).symm⟩
      · rw [Function.update_of_ne hself] at hrunning
        exact Or.inl (Or.inr ⟨registering,hrunning,hphoto⟩)
  refine ⟨fun other photoId hheld => ?_,fun a b photoId ha hb => ?_,
    fun other registering hrunning => ?_⟩
  · rcases hholds other photoId hheld with hold|⟨_,rfl⟩
    · obtain ⟨picture,hmem,hid⟩ := h.present _ _ hold
      exact ⟨picture,List.mem_append_left _ hmem,hid⟩
    · exact ⟨_,List.mem_append_right _ List.mem_cons_self,rfl⟩
  · rcases hholds a photoId ha with hold|⟨hself,hnew⟩
    · rcases hholds b photoId hb with hother|⟨_,rfl⟩
      · exact h.unshared a b photoId hold hother
      · exact absurd hold (hfresh a)
    · rcases hholds b photoId hb with hother|⟨hself',_⟩
      · exact absurd (hnew ▸ hother) (hfresh b)
      · exact hself.trans hself'.symm
  · dsimp only at hrunning
    by_cases hself : other=userId
    · rw [hself]
      exact h.begun userId _ hregistering
    · rw [Function.update_of_ne hself] at hrunning
      exact h.begun other registering hrunning

/-- The last transaction of a registration hands its photo to its user. -/
theorem sound_connect (h : Sound site) {userId : ℕ}
    (htook : Took site next (.connectPropertiesAndPhoto userId)) : Sound next := by
  obtain ⟨userProperties,binaryData,photoId,hregistering,rfl⟩ := htook
  refine h.of_holds ?_ (fun _ hpicture => hpicture) ?_
  · rintro other held (⟨user,hmem,hid,hphoto⟩|⟨registering,hrunning,hphoto⟩)
    · obtain ⟨old,hold,rfl⟩ := mem_setPhoto.mp hmem
      by_cases hself : old.id=userId
      · rw [if_pos hself] at hid hphoto
        exact Or.inr ⟨_,(hself.symm.trans hid) ▸ hregistering,hphoto⟩
      · rw [if_neg hself] at hid hphoto
        exact Or.inl ⟨old,hold,hid,hphoto⟩
    · dsimp only at hrunning
      by_cases hself : other=userId
      · rw [hself,Function.update_self] at hrunning
        cases hrunning
      · rw [Function.update_of_ne hself] at hrunning
        exact Or.inr ⟨registering,hrunning,hphoto⟩
  · intro other registering hrunning
    dsimp only at hrunning
    by_cases hself : other=userId
    · rw [hself,Function.update_self] at hrunning
      cases hrunning
    · rw [Function.update_of_ne hself] at hrunning
      obtain ⟨user,hmem,hid,hphoto⟩ := h.begun other registering hrunning
      refine ⟨user,mem_setPhoto.mpr ⟨user,hmem,?_⟩,hid,hphoto⟩
      exact if_neg fun huser => hself (hid.symm.trans huser)

/-- Every step keeps a site sound. -/
theorem step_sound {move : Move} (h : Sound site) (hstep : step upper verify site move=some next) :
    Sound next := by
  have htook := step_took hstep
  cases move with
  | addProperties userProperties binaryData => exact sound_addProperties h htook
  | addNewPhoto userId => exact sound_addNewPhoto h htook
  | connectPropertiesAndPhoto userId => exact sound_connect h htook
  | checkPassword email password => exact htook.symm ▸ h
  | getProfilePhoto nickname => exact htook.symm ▸ h
  | updateProfilePhoto photoType photo id =>
    cases htook
    refine h.of_holds ?_ (fun _ hpicture => hpicture.setPicture id photoType photo) ?_
    · unfold Holds
      dsimp only
      rw [setPicture_users]
      exact fun _ _ hheld => hheld
    · dsimp only
      rw [setPicture_users]
      exact h.begun

/-- What keeps the acknowledgements, the linked users and the photos keeps
acknowledged photos readable. -/
theorem Shown.of_rows (h : Shown site) (hacknowledged : next.acknowledged=site.acknowledged)
    (husers : ∀ user ∈ site.database.users.rows,user.photoId≠none →
      user ∈ next.database.users.rows)
    (hpictures : ∀ picture ∈ site.database.pictures.rows,picture ∈ next.database.pictures.rows) :
    Shown next := by
  intro id latest hlatest
  rw [hacknowledged] at hlatest
  obtain ⟨user,hmem,hid,hread⟩ := h id latest hlatest
  obtain ⟨photoId,hphoto,picture,hpicture,hshows⟩ := (getProfilePhoto_iff hmem latest).mp hread
  have hkept : user ∈ next.database.users.rows := husers user hmem (by simp [hphoto])
  exact ⟨user,hkept,hid,(getProfilePhoto_iff hkept latest).mpr
    ⟨photoId,hphoto,picture,hpictures picture hpicture,hshows⟩⟩

/-- An update leaves what other users read. -/
theorem getProfilePhoto_other (h : Sound site) {user : UserRow}
    (hmem : user ∈ site.database.users.rows) {id : ℕ} (hne : user.id≠id)
    (photoType photo : Bytes) :
    (getProfilePhoto false user.nickname (setPicture site.database id photoType photo)).1=
      (getProfilePhoto false user.nickname site.database).1 := by
  change (readPhoto user.nickname _).mapError notFound=(readPhoto user.nickname _).mapError notFound
  have hkept : user ∈ (setPicture site.database id photoType photo).users.rows := by
    rwa [setPicture_users]
  rw [readPhoto_eq hmem,readPhoto_eq hkept]
  cases hphoto : user.photoId with
  | none => rfl
  | some photoId =>
    unfold setPicture
    cases hwritten : photoIdOf site.database id with
    | none => rfl
    | some written =>
      have hother : written≠photoId := by
        rintro rfl
        exact hne (h.unshared user.id id written (Or.inl ⟨user,hmem,rfl,hphoto⟩)
          (Or.inl (photoIdOf_iff.mp hwritten)))
      dsimp only
      rw [filter_update_other site.database.pictures hother]

/-- An update of a user that links to a photo is what the user reads. -/
theorem getProfilePhoto_self (h : Sound site) {user : UserRow}
    (hmem : user ∈ site.database.users.rows) {photoId : ℕ} (hphoto : user.photoId=some photoId)
    (photoType photo : Bytes) :
    (getProfilePhoto false user.nickname
      (setPicture site.database user.id photoType photo)).1=.ok (photoType,photo) := by
  have hkept : user ∈ (setPicture site.database user.id photoType photo).users.rows := by
    rwa [setPicture_users]
  obtain ⟨picture,hpicture,hid⟩ := h.present user.id photoId (Or.inl ⟨user,hmem,rfl,hphoto⟩)
  refine (getProfilePhoto_iff hkept _).mpr ⟨photoId,hphoto,⟨picture.id,photoType,photo⟩,?_,hid,rfl⟩
  unfold setPicture
  rw [photoIdOf_iff.mpr ⟨user,hmem,rfl,hphoto⟩]
  exact List.mem_map.mpr ⟨picture,hpicture,if_pos hid⟩

/-- An update keeps acknowledged photos readable exactly when its user links
to a photo. -/
theorem shown_update_iff (h : Sound site) (hshown : Shown site) {photoType photo : Bytes} {id : ℕ}
    (htook : Took site next (.updateProfilePhoto photoType photo id)) :
    Shown next ↔ Linked site (.updateProfilePhoto photoType photo id) := by
  cases htook
  constructor
  · intro hnext
    obtain ⟨user,hmem,hid,hread⟩ := hnext id (photoType,photo) (Function.update_self ..)
    obtain ⟨photoId,hphoto,_⟩ := (getProfilePhoto_iff hmem _).mp hread
    dsimp only at hmem
    rw [setPicture_users] at hmem
    exact ⟨user,hmem,hid,photoId,hphoto⟩
  · rintro ⟨user,hmem,hid,photoId,hphoto⟩ other latest hlatest
    dsimp only at hlatest ⊢
    rw [setPicture_users]
    by_cases hself : other=id
    · rw [hself,Function.update_self] at hlatest
      cases hlatest
      cases hid
      exact ⟨user,hmem,hself.symm,getProfilePhoto_self h hmem hphoto photoType photo⟩
    · rw [Function.update_of_ne hself] at hlatest
      obtain ⟨reader,hreader,hreaderId,hread⟩ := hshown other latest hlatest
      refine ⟨reader,hreader,hreaderId,?_⟩
      rw [getProfilePhoto_other h hreader (fun heq => hself (hreaderId.symm.trans heq))]
      exact hread

/-- A step keeps acknowledged photos readable exactly when it is no update of
a user without a photo. -/
theorem step_shown_iff {move : Move} (h : Sound site) (hshown : Shown site)
    (hstep : step upper verify site move=some next) : Shown next ↔ Linked site move := by
  have htook := step_took hstep
  cases move with
  | updateProfilePhoto photoType photo id => exact shown_update_iff h hshown htook
  | checkPassword email password => exact iff_of_true (htook.symm ▸ hshown) trivial
  | getProfilePhoto nickname => exact iff_of_true (htook.symm ▸ hshown) trivial
  | addProperties userProperties binaryData =>
    obtain ⟨husers,hpictures,_,hacknowledged⟩ := htook
    refine iff_of_true (hshown.of_rows hacknowledged (fun user hmem _ => ?_) fun _ hmem => ?_)
      trivial
    · rw [husers]
      exact List.mem_append_left _ hmem
    · rwa [hpictures]
  | addNewPhoto userId =>
    obtain ⟨_,_,_,rfl⟩ := htook
    exact iff_of_true (hshown.of_rows rfl (fun _ hmem _ => hmem)
      fun _ hmem => List.mem_append_left _ hmem) trivial
  | connectPropertiesAndPhoto userId =>
    obtain ⟨_,_,photoId,hregistering,rfl⟩ := htook
    obtain ⟨begun,hbegun,hid,hnone⟩ := h.begun _ _ hregistering
    refine iff_of_true (hshown.of_rows rfl (fun user hmem hphoto => ?_) fun _ hmem => hmem) trivial
    refine mem_setPhoto.mpr ⟨user,hmem,if_neg fun huser => hphoto ?_⟩
    rw [eq_of_key_eq site.database.users hmem hbegun (huser.trans hid.symm),hnone]

end steps

section runs

variable (upper : Bytes → Bytes) (verify : Bytes → Bytes → Bool)

/-- Along a run of committed transactions, acknowledged photos are readable
at every moment exactly when every update is made for a user that links to a
photo; and no update changes what another user reads. -/
theorem acknowledged_shown_iff {start final : Site} (hsound : Sound start)
    (hstart : ∀ id,start.acknowledged id=none) (schedule : List Move)
    (hrun : run (step upper verify) start schedule=some final) :
    (Throughout (step upper verify) Shown start schedule ↔
        EachMeets (step upper verify) Linked start schedule) ∧
      ∀ before photoType photo id after reached next,
        schedule=before++.updateProfilePhoto photoType photo id::after →
        run (step upper verify) start before=some reached →
        step upper verify reached (.updateProfilePhoto photoType photo id)=some next →
        ∀ user ∈ reached.database.users.rows,user.id≠id → user ∈ next.database.users.rows ∧
          (getProfilePhoto false user.nickname next.database).1=
            (getProfilePhoto false user.nickname reached.database).1 := by
  have hkeep : ∀ site move next,Sound site → step upper verify site move=some next → Sound next :=
    fun _ _ _ h hstep => step_sound h hstep
  have hshown : Shown start := by
    intro id latest hlatest
    rw [hstart] at hlatest
    cases hlatest
  refine ⟨throughout_iff hkeep (fun _ _ _ h hshown hstep => step_shown_iff h hshown hstep) hsound
    hshown hrun,?_⟩
  intro before photoType photo id after reached next happend hreached hstep user hmem hne
  have hreachedSound : Sound reached :=
    throughout_invariant hkeep hsound schedule before _ reached happend hreached
  cases step_took hstep
  refine ⟨?_,getProfilePhoto_other hreachedSound hmem hne photoType photo⟩
  dsimp only
  rwa [setPicture_users]

/-- A form with a nickname, an email, a password hash and a photo type. -/
def namedForm : PropertyMap :=
  (∅ : PropertyMap).insert (ascii "nickname") (ascii "ann")|>.insert (ascii "email") (ascii "a@x")
    |>.insert (ascii "password") (ascii "hash of secret")
    |>.insert (ascii "photo_type") (ascii "image/png")

/-- Passwords checked against such hashes. -/
def verifyHash (password hash : Bytes) : Bool := hash==ascii "hash of "++password

/-- A user is registered, updates its photo and reads it. -/
theorem acknowledged_shown_registered :
    ∃ final,run (step upperAscii verifyHash) unused [.addProperties namedForm (ascii "first"),
        .addNewPhoto 1,.connectPropertiesAndPhoto 1,
        .updateProfilePhoto (ascii "image/jpeg") (ascii "second") 1,
        .getProfilePhoto (ascii "ann")]=some final ∧ Shown final := by
  obtain ⟨final,hrun⟩ : ∃ final,run (step upperAscii verifyHash) unused
      [.addProperties namedForm (ascii "first"),.addNewPhoto 1,.connectPropertiesAndPhoto 1,
        .updateProfilePhoto (ascii "image/jpeg") (ascii "second") 1,
        .getProfilePhoto (ascii "ann")]=some final := ⟨_,rfl⟩
  have hshown := acknowledged_shown_iff upperAscii verifyHash sound_unused (fun _ => rfl) _ hrun
  exact ⟨final,hrun,hshown.1.mpr ⟨trivial,trivial,trivial,⟨_,List.mem_cons_self,rfl,_,rfl⟩,
    trivial,trivial⟩ _ [] final (List.append_nil _).symm hrun⟩

/-- Empty tables whose next user gets the key a login asks for. -/
def eighteenth : Site :=
  ⟨⟨⟨[],18,nofun,List.Pairwise.nil⟩,Table.empty _,Database.empty.nicknames,Database.empty.emails⟩,
    fun _ => none,fun _ => none⟩

/-- A user logs in and updates its photo while its registration is under way.
The update is acknowledged, and the photo read afterwards is that of the form. -/
theorem acknowledged_lost :
    ∃ final,run (step upperAscii verifyHash) eighteenth
        [.addProperties namedForm (ascii "first"),.checkPassword (ascii "a@x") (ascii "secret"),
          .updateProfilePhoto (ascii "image/jpeg") (ascii "second") 18,.addNewPhoto 18,
          .connectPropertiesAndPhoto 18,.getProfilePhoto (ascii "ann")]=some final ∧
      final.acknowledged 18=some (ascii "image/jpeg",ascii "second") ∧
      (getProfilePhoto false (ascii "ann") final.database).1=
        .ok (ascii "image/png",ascii "first") ∧ ¬Shown final := by
  obtain ⟨final,hrun,hacknowledged,hread,husers⟩ : ∃ final,run (step upperAscii verifyHash)
      eighteenth [.addProperties namedForm (ascii "first"),
        .checkPassword (ascii "a@x") (ascii "secret"),
        .updateProfilePhoto (ascii "image/jpeg") (ascii "second") 18,.addNewPhoto 18,
        .connectPropertiesAndPhoto 18,.getProfilePhoto (ascii "ann")]=some final ∧
      final.acknowledged 18=some (ascii "image/jpeg",ascii "second") ∧
      (getProfilePhoto false (ascii "ann") final.database).1=
        .ok (ascii "image/png",ascii "first") ∧
      ∀ user ∈ final.database.users.rows,user.nickname=ascii "ann" :=
    ⟨_,rfl,rfl,by decide +kernel,by decide +kernel⟩
  refine ⟨final,hrun,hacknowledged,hread,fun hshown => ?_⟩
  obtain ⟨user,hmem,_,hshows⟩ := hshown 18 _ hacknowledged
  rw [husers user hmem,hread] at hshows
  exact absurd hshows (by decide +kernel)

end runs

section passwords

variable (upper : Bytes → Bytes) (verify : Bytes → Bytes → Bool)

/-- A user of the key the password check asks for. -/
def HasAsked (database : Database) : Prop := ∃ user ∈ database.users.rows,user.id=18

/-- The row is the only one whose email equals a login after UPPER. -/
def SoleLogin (database : Database) (email : Bytes) (row : UserRow) : Prop :=
  database.users.rows.filter (fun other => upper other.email=upper email)=[row]

instance (database : Database) (email : Bytes) (row : UserRow) :
    Decidable (SoleLogin upper database email row) :=
  inferInstanceAs (Decidable (_=_))

/-- What a password check should answer for the only user of a login. -/
def loginAnswer (row : UserRow) (password : Bytes) :
    Except CxxException ℕ :=
  if verify password row.password=true then .ok row.id
  else .error (.runtimeError "Invalid login or password")

/-- The statement that asks for the key answers exactly when a user has it. -/
theorem execPrepared1_asked (database : Database) :
    (∃ user,execPrepared1 (database.users.rows.filter fun row => row.id=18)=.ok user) ↔
      HasAsked database := by
  constructor
  · rintro ⟨user,hanswer⟩
    have hmem : user ∈ database.users.rows.filter fun row => row.id=18 := by
      unfold execPrepared1 at hanswer
      split at hanswer
      · next hrows =>
        cases hanswer
        rw [hrows]
        exact List.mem_singleton_self user
      · cases hanswer
      · cases hanswer
    obtain ⟨hrow,hid⟩ := List.mem_filter.mp hmem
    exact ⟨user,hrow,of_decide_eq_true hid⟩
  · rintro ⟨user,hmem,hid⟩
    have hrows := filter_key database.users hmem
    rw [hid] at hrows
    exact ⟨user,by rw [hrows]; rfl⟩

/-- The answer of a password check for the only user of a login. -/
theorem checkPassword_sole {database : Database} {email : Bytes} {row : UserRow}
    (hsole : SoleLogin upper database email row) (password : Bytes) :
    (HasAsked database →
      (checkPassword upper verify false email password database).1=loginAnswer verify row password) ∧
    (¬HasAsked database → (checkPassword upper verify false email password database).1=
      .error (.runtimeError "Invalid login or password")) := by
  have hrows : execPrepared1 (hashPasswordRows upper database email)=.ok (row.password,row.id) := by
    unfold hashPasswordRows
    rw [hsole]
    rfl
  have hcheck : (checkPassword upper verify false email password database).1=
      (login upper verify email password database).mapError fun _ =>
        .runtimeError "Invalid login or password" := rfl
  rw [hcheck]
  constructor
  · intro hasked
    obtain ⟨user,huser⟩ := (execPrepared1_asked database).mpr hasked
    unfold login loginAnswer
    rw [huser,hrows]
    change Except.mapError _ (if verify password row.password=true then pure row.id else throw _)=_
    split <;> rfl
  · intro hmissing
    cases hanswer : execPrepared1 (database.users.rows.filter fun user => user.id=18) with
    | ok user => exact absurd ((execPrepared1_asked database).mp ⟨user,hanswer⟩) hmissing
    | error e =>
      unfold login
      rw [hanswer]
      rfl

/-- The only user of a login is answered as it should be exactly when its
password is wrong or a user has the key that is asked for first; and two
databases with that user answer alike exactly when its password is wrong, or
both have such a user or neither. -/
theorem checkPassword_sole_iff {database other : Database} {email : Bytes} {row : UserRow}
    (hsole : SoleLogin upper database email row) (hother : SoleLogin upper other email row)
    (password : Bytes) :
    ((checkPassword upper verify false email password database).1=loginAnswer verify row password ↔
        (verify password row.password=true → HasAsked database)) ∧
      ((checkPassword upper verify false email password database).1=
          (checkPassword upper verify false email password other).1 ↔
        (verify password row.password=true → (HasAsked database ↔ HasAsked other))) := by
  have hfirst := checkPassword_sole upper verify hsole password
  have hsecond := checkPassword_sole upper verify hother password
  by_cases hverify : verify password row.password=true
  · have hanswer : loginAnswer verify row password=.ok row.id := if_pos hverify
    rw [hanswer] at hfirst hsecond ⊢
    simp only [hverify,forall_const]
    by_cases hasked : HasAsked database
    · rw [hfirst.1 hasked]
      refine ⟨iff_of_true rfl hasked,?_⟩
      by_cases hotherAsked : HasAsked other
      · rw [hsecond.1 hotherAsked]
        exact iff_of_true rfl (iff_of_true hasked hotherAsked)
      · rw [hsecond.2 hotherAsked]
        exact iff_of_false nofun fun h => hotherAsked (h.mp hasked)
    · rw [hfirst.2 hasked]
      refine ⟨iff_of_false nofun hasked,?_⟩
      by_cases hotherAsked : HasAsked other
      · rw [hsecond.1 hotherAsked]
        exact iff_of_false nofun fun h => hasked (h.mpr hotherAsked)
      · rw [hsecond.2 hotherAsked]
        exact iff_of_true rfl (iff_of_false hasked hotherAsked)
  · -- a wrong password is refused whoever else is registered
    have hanswer : loginAnswer verify row password=
      .error (.runtimeError "Invalid login or password") := if_neg hverify
    have hrefused : ∀ {db : Database},SoleLogin upper db email row →
        (checkPassword upper verify false email password db).1=
          .error (.runtimeError "Invalid login or password") := by
      intro db hdb
      have hboth := checkPassword_sole upper verify hdb password
      rw [hanswer] at hboth
      by_cases hasked : HasAsked db
      · exact hboth.1 hasked
      · exact hboth.2 hasked
    rw [hrefused hsole,hrefused hother,hanswer]
    exact ⟨iff_of_true rfl fun h => absurd h hverify,iff_of_true rfl fun h => absurd h hverify⟩

/-- The form of another user. -/
def secondForm : PropertyMap :=
  (∅ : PropertyMap).insert (ascii "nickname") (ascii "bob")|>.insert (ascii "email") (ascii "b@x")

/-- Tables with one user, of the first key. -/
def firstAlone : Database := (addProperties false namedForm Database.empty).2

/-- Tables with one user, of the key that is asked for. -/
def askedAlone : Database := (addProperties false namedForm eighteenth.database).2

/-- A user of the key that is asked for logs in, with and without another one. -/
theorem checkPassword_asked :
    (checkPassword upperAscii verifyHash false (ascii "A@X") (ascii "secret") askedAlone).1=
        loginAnswer verifyHash (registeredUser namedForm 18) (ascii "secret") ∧
      (checkPassword upperAscii verifyHash false (ascii "A@X") (ascii "secret") askedAlone).1=
        (checkPassword upperAscii verifyHash false (ascii "A@X") (ascii "secret")
          (addProperties false secondForm askedAlone).2).1 := by
  have hasked : HasAsked askedAlone := ⟨registeredUser namedForm 18,List.mem_cons_self,rfl⟩
  have hboth : HasAsked (addProperties false secondForm askedAlone).2 :=
    ⟨registeredUser namedForm 18,List.mem_cons_self,rfl⟩
  have hsole : SoleLogin upperAscii askedAlone (ascii "A@X") (registeredUser namedForm 18) := by
    decide +kernel
  have hother : SoleLogin upperAscii (addProperties false secondForm askedAlone).2 (ascii "A@X")
      (registeredUser namedForm 18) := by
    decide +kernel
  have hiff := checkPassword_sole_iff upperAscii verifyHash hsole hother (ascii "secret")
  exact ⟨hiff.1.mpr fun _ => hasked,hiff.2.mpr fun _ => iff_of_true hasked hboth⟩

/-- The only user of the tables has the first key and the right password, and
is refused. -/
theorem checkPassword_unasked :
    SoleLogin upperAscii firstAlone (ascii "a@x") (registeredUser namedForm 1) ∧
      verifyHash (ascii "secret") (registeredUser namedForm 1).password=true ∧
      (checkPassword upperAscii verifyHash false (ascii "a@x") (ascii "secret") firstAlone).1≠
        loginAnswer verifyHash (registeredUser namedForm 1) (ascii "secret") := by
  have hsole : SoleLogin upperAscii firstAlone (ascii "a@x") (registeredUser namedForm 1) := by
    decide +kernel
  have hverify : verifyHash (ascii "secret") (registeredUser namedForm 1).password=true := by
    decide +kernel
  have hmissing : ¬HasAsked firstAlone := by
    rintro ⟨user,hmem,hid⟩
    have huser : user=registeredUser namedForm 1 := List.mem_singleton.mp hmem
    rw [huser] at hid
    exact absurd hid (by decide)
  refine ⟨hsole,hverify,?_⟩
  rw [(checkPassword_sole upperAscii verifyHash hsole _).2 hmissing]
  unfold loginAnswer
  rw [if_pos hverify]
  exact nofun

end passwords

end Photogram.AuthPhotos
