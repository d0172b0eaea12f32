import Photogram.StoreNetwork

/-!
# Reads are answered from the network

What both servers read from the tables, against what the acknowledged and the
committed changes have made of the network: nicknames, profiles, pictures,
passwords, friends, and the elements of all lists.
-/

namespace Photogram.NetworkReads

open CxxString JsonValue QueryString RowTable HttpReader AuthConnection AuthDatabase
open ContentConnection ContentPosts ListPages LikeToggle PagedQuery Schedule AuthStore
open SocialNetwork SharedStore StoreNetwork
open AuthPhotos (execPrepared1 getProfilePhoto checkPassword login notFound photoIdOf)

section statements

variable (dialect : Dialect) (network : Network)

/-- Profile of an account. -/
def accountProfile (userId : ℕ) (account : Account) (isMale : Bool) : Json := .object
  [(ascii "birthdate",.string account.birthdate),(ascii "email",.string account.email),
    (ascii "first_name",.string account.firstName),(ascii "id",.string (numeral userId)),
    (ascii "is_male",.boolean isMale),(ascii "last_name",.string account.lastName),
    (ascii "nickname",.string account.nickname)]

/-- Element of a list of users for an account. -/
def accountElement (id : ℤ) (userId : ℕ) (account : Account) : Json := .object
  [(ascii "nickname",.string account.nickname),
    (ascii "photo_id",.string (nullableText numeral (account.picture.map PictureRow.id))),
    (ascii "friend_id",.string (numeral userId)),
    (ascii "is_friend",.string (boolText (network.friends id userId)))]

/-- Element of a list of posts for a publication and the account of its owner. -/
def publicationElement (id : ℤ) (postId : ℕ) (publication : Publication) (account : Account) :
    Json := .object
  [(ascii "post_id",.string (numeral postId)),
    (ascii "nickname",.string account.nickname),
    (ascii "date_posted",.string (dialect.timestampText publication.datePosted)),
    (ascii "description",.string publication.description),
    (ascii "like_count",.string (nullableText integerText publication.likeCount)),
    (ascii "photo_id",.string (nullableText numeral (publication.photo.map PostPhoto.id))),
    (ascii "profile_picture_id",
      .string (nullableText numeral (account.picture.map PictureRow.id))),
    (ascii "is_liked",.string (boolText (network.likes postId id)))]

/-- A login finds an account: a user of the key 18 exists, the account is the
only one with the email, and the password belongs to its hash. -/
structure LogsIn (email password : Bytes) (userId : ℕ) (account : Account) : Prop where
  /-- The statement in front asks for this key. -/
  asked : ∃ other,network.accounts 18=some other
  /-- The account. -/
  found : network.accounts userId=some account
  /-- It has the email, whatever the case of its letters. -/
  matching : dialect.upper account.email=dialect.upper email
  /-- No other account has. -/
  sole : ∀ otherId other,network.accounts otherId=some other →
    dialect.upper other.email=dialect.upper email → otherId=userId
  /-- The password is right. -/
  verified : dialect.verify password account.password=true

/-- A post of the network with its owner's account. -/
def Authored (postId : ℕ) (publication : Publication) (account : Account) : Prop :=
  network.publications postId=some publication ∧
    ∃ author : ℕ,publication.owner=author ∧ network.accounts author=some account

/-- Tables answer reads as the network says. -/
structure AnswersFrom (store : Store) : Prop where
  /-- A nickname by key. -/
  nickname : ∀ id nickname,getNicknameById dialect false id store.accounts=.ok nickname ↔
    ∃ (userId : ℕ) (account : Account),dialect.readInteger id=some (userId : ℤ) ∧
      network.accounts userId=some account ∧ nickname=account.nickname
  /-- A profile by nickname. -/
  profile : ∀ nickname json,getProfileInformation dialect false nickname store.accounts=.ok json ↔
    ∃ userId account isMale,network.accounts userId=some account ∧ account.nickname=nickname ∧
      dialect.readBoolean account.isMale=some isMale ∧ json=accountProfile userId account isMale
  /-- A picture by nickname. -/
  picture : ∀ nickname photo,(getProfilePhoto false nickname store.accounts).1=.ok photo ↔
    ∃ userId account picture,network.accounts userId=some account ∧ account.nickname=nickname ∧
      account.picture=some picture ∧ photo=(picture.photoType,picture.photo)
  /-- A picture by its key. -/
  pictureByKey : ∀ id userId account picture,network.accounts userId=some account →
    account.picture=some picture → dialect.readInteger id=some (picture.id : ℤ) →
    getPhotoById dialect false id store.accounts=.ok (picture.photoType,picture.photo)
  /-- A login. -/
  login : ∀ email password userId,
    (checkPassword dialect.upper dialect.verify false email password store.accounts).1=.ok userId ↔
      ∃ account,LogsIn dialect network email password userId account
  /-- Whether a user has a friend. -/
  status : ∀ userId friendId json,getStatus dialect false userId friendId store.friends=.ok json ↔
    ∃ user friend,dialect.readInteger userId=some user ∧ dialect.readInteger friendId=some friend ∧
      json=.object [(ascii "status",.string
        (if network.friends user friend then ascii "friend" else ascii "stranger"))]
  /-- Elements of a list of users. -/
  users : ∀ substr id element,
    element ∈ (usersList dialect.upper dialect.like store substr id).map
        (userElement store.friends id) ↔
      ∃ (userId : ℕ) (account : Account),network.accounts userId=some account ∧
        dialect.like (dialect.upper account.nickname) (dialect.upper (37::substr++[37]))=true ∧
        (userId : ℤ)≠id ∧ element=accountElement network id userId account
  /-- Elements of the list of posts of a user and the friends. -/
  feed : ∀ id element,
    element ∈ (postsList store id).map (postElement dialect.timestampText store.content id) ↔
      ∃ postId publication account,Authored network postId publication account ∧
        (network.friends id publication.owner=true ∨ publication.owner=id) ∧
        element=publicationElement dialect network id postId publication account
  /-- Elements of the list of posts of an author. -/
  postsBy : ∀ authorId id element,
    element ∈ (postsListById store authorId).map
        (postElement dialect.timestampText store.content id) ↔
      ∃ postId publication account,Authored network postId publication account ∧
        publication.owner=authorId ∧
        element=publicationElement dialect network id postId publication account
  /-- The photo of a post by its key. -/
  photo : ∀ circumstances id postId publication,circumstances.Healthy →
    network.publications postId=some publication → ∃ photo,publication.photo=some photo ∧
      (dialect.readInteger id=some (photo.id : ℤ) →
        getPostPhotoById dialect.readInteger circumstances id store.content=
          .ok (photo.photoType,photo.photo))

end statements

section selections

/-- A statement for one row answers it when it selects nothing else. -/
theorem execPrepared1_ok_iff {ρ : Type} {rows : List ρ} {row : ρ} :
    execPrepared1 rows=.ok row ↔ rows=[row] := by
  unfold execPrepared1
  constructor
  · intro h
    split at h
    · cases h
      rfl
    · cases h
    · cases h
  · rintro rfl
    rfl

/-- A value in a unique column selects the row that has it. -/
theorem filter_eq_singleton_iff {ρ κ : Type} [DecidableEq κ] {column : ρ → κ} {rows : List ρ}
    (h : UniqueBy column rows) {value : κ} {row : ρ} :
    rows.filter (fun other => column other=value)=[row] ↔ row ∈ rows ∧ column row=value := by
  constructor
  · intro hrows
    have hmem : row ∈ rows.filter fun other => column other=value := by
      rw [hrows]
      exact List.mem_singleton_self row
    exact ⟨(List.mem_filter.mp hmem).1,of_decide_eq_true (List.mem_filter.mp hmem).2⟩
  · rintro ⟨hmem,rfl⟩
    exact filter_unique h hmem

/-- Keys are unique as integers too. -/
theorem uniqueBy_intKey {ρ : Type} {key : ρ → ℕ} (table : Table key) :
    UniqueBy (fun row => (key row : ℤ)) table.rows :=
  table.distinct.imp fun hne heq => hne (Int.ofNat_inj.mp heq)

/-- An outcome that is some value as an option is that value. -/
theorem ok_of_toOption {ε α : Type} {outcome : Except ε α} {value : α}
    (h : outcome.toOption=some value) : outcome=.ok value := by
  cases outcome with
  | error e => cases h
  | ok found => exact congrArg Except.ok (Option.some.inj h)

/-- A sequence behind a value goes on with it. -/
theorem except_ok_bind {ε α β : Type} (value : α) (rest : α → Except ε β) :
    ((.ok value : Except ε α)>>=rest)=rest value := rfl

/-- Errors replaced, the same values. -/
theorem mapError_eq_ok_iff {α ε ε' : Type} {call : Except ε α} {f : ε → ε'} {value : α} :
    call.mapError f=.ok value ↔ call=.ok value := by
  cases call with
  | error e => exact iff_of_false nofun nofun
  | ok found =>
    constructor
    · intro h
      cases h
      rfl
    · intro h
      cases h
      rfl

/-- Accounts of the network are those of the rows. -/
theorem account_iff {accounts : Database} {userId : ℕ} {account : Account} :
    accountOf accounts userId=some account ↔ ∃ user ∈ accounts.users.rows,user.id=userId ∧
      rowAccount accounts.pictures user=account := by
  unfold accountOf
  rw [Option.map_eq_some_iff]
  constructor
  · rintro ⟨user,hlookup,haccount⟩
    obtain ⟨hmem,hid⟩ := lookup_eq_some_iff.mp hlookup
    exact ⟨user,hmem,hid,haccount⟩
  · rintro ⟨user,hmem,hid,haccount⟩
    exact ⟨user,lookup_eq_some_iff.mpr ⟨hmem,hid⟩,haccount⟩

/-- Publications of the network are those of the rows. -/
theorem publication_iff {tables : Tables} {postId : ℕ} {publication : Publication} :
    publicationOf tables postId=some publication ↔ ∃ post ∈ tables.posts.rows,post.id=postId ∧
      rowPublication tables.postPhotos post=publication := by
  unfold publicationOf
  rw [Option.map_eq_some_iff]
  constructor
  · rintro ⟨post,hlookup,hpublication⟩
    obtain ⟨hmem,hid⟩ := lookup_eq_some_iff.mp hlookup
    exact ⟨post,hmem,hid,hpublication⟩
  · rintro ⟨post,hmem,hid,hpublication⟩
    exact ⟨post,lookup_eq_some_iff.mpr ⟨hmem,hid⟩,hpublication⟩

end selections

section reads

variable {dialect : Dialect} {site : Site} {store : Store}

/-- The nickname of a key is that of its account. -/
theorem nickname_iff (id nickname : Bytes) :
    getNicknameById dialect false id store.accounts=.ok nickname ↔
      ∃ (userId : ℕ) (account : Account),dialect.readInteger id=some (userId : ℤ) ∧
        (networkOf store).accounts userId=some account ∧ nickname=account.nickname := by
  have huser : ∀ user,userOfKey dialect id store.accounts=.ok user ↔
      dialect.readInteger id=some (user.id : ℤ) ∧ user ∈ store.accounts.users.rows := by
    intro user
    constructor
    · intro h
      obtain ⟨key,hkey,h⟩ := except_bind_ok h
      obtain ⟨hmem,hid⟩ := (filter_eq_singleton_iff (uniqueBy_intKey store.accounts.users)).mp
        (execPrepared1_ok_iff.mp h)
      exact ⟨hid ▸ integer_ok _ hkey,hmem⟩
    · rintro ⟨hkey,hmem⟩
      unfold userOfKey
      rw [integer_of_read _ hkey]
      exact execPrepared1_ok_iff.mpr
        ((filter_eq_singleton_iff (uniqueBy_intKey store.accounts.users)).mpr ⟨hmem,rfl⟩)
  unfold getNicknameById
  rw [mapError_eq_ok_iff]
  change (userOfKey dialect id store.accounts).map UserRow.nickname=.ok nickname ↔ _
  constructor
  · intro h
    cases hfound : userOfKey dialect id store.accounts with
    | error e =>
      rw [hfound] at h
      cases h
    | ok user =>
      rw [hfound] at h
      cases h
      obtain ⟨hkey,hmem⟩ := (huser user).mp hfound
      exact ⟨user.id,_,hkey,account_iff.mpr ⟨user,hmem,rfl,rfl⟩,rfl⟩
  · rintro ⟨userId,account,hkey,haccount,rfl⟩
    obtain ⟨user,hmem,rfl,rfl⟩ := account_iff.mp haccount
    rw [(huser user).mpr ⟨hkey,hmem⟩]
    rfl

/-- The row of a nickname is the only one that a statement for it selects. -/
theorem named_iff {nickname : Bytes} {user : UserRow} :
    execPrepared1 (store.accounts.users.rows.filter fun row => row.nickname=nickname)=.ok user ↔
      user ∈ store.accounts.users.rows ∧ user.nickname=nickname :=
  execPrepared1_ok_iff.trans (filter_eq_singleton_iff store.accounts.nicknames)

/-- The profile of a nickname is that of its account. -/
theorem profile_iff (nickname : Bytes) (json : Json) :
    getProfileInformation dialect false nickname store.accounts=.ok json ↔
      ∃ userId account isMale,(networkOf store).accounts userId=some account ∧
        account.nickname=nickname ∧ dialect.readBoolean account.isMale=some isMale ∧
        json=accountProfile userId account isMale := by
  unfold getProfileInformation
  rw [mapError_eq_ok_iff]
  change readProfile dialect nickname store.accounts=.ok json ↔ _
  constructor
  · intro h
    obtain ⟨user,hfound,h⟩ := except_bind_ok h
    obtain ⟨hmem,hnickname⟩ := named_iff.mp hfound
    split at h
    · next isMale hmale =>
      cases h
      exact ⟨user.id,_,isMale,account_iff.mpr ⟨user,hmem,rfl,rfl⟩,hnickname,hmale,rfl⟩
    · cases h
  · rintro ⟨userId,account,isMale,haccount,hnickname,hmale,rfl⟩
    obtain ⟨user,hmem,rfl,rfl⟩ := account_iff.mp haccount
    have hread : dialect.readBoolean user.isMale=some isMale := hmale
    unfold readProfile
    rw [named_iff.mpr ⟨hmem,hnickname⟩]
    rw [except_ok_bind,hread]
    rfl

/-- The picture of a nickname is that of its account. -/
theorem picture_iff (nickname : Bytes) (photo : Bytes×Bytes) :
    (getProfilePhoto false nickname store.accounts).1=.ok photo ↔
      ∃ userId account picture,(networkOf store).accounts userId=some account ∧
        account.nickname=nickname ∧ account.picture=some picture ∧
        photo=(picture.photoType,picture.photo) := by
  have hselected : ∀ photoId picture,
      execPrepared1 (store.accounts.pictures.rows.filter fun row => row.id=photoId)=.ok picture ↔
        store.accounts.pictures.lookup photoId=some picture := by
    intro photoId picture
    rw [execPrepared1_ok_iff,filter_eq_singleton_iff store.accounts.pictures.distinct,
      lookup_eq_some_iff]
  change (AuthPhotos.readPhoto nickname store.accounts).mapError notFound=.ok photo ↔ _
  rw [mapError_eq_ok_iff]
  constructor
  · intro h
    obtain ⟨user,hfound,h⟩ := except_bind_ok h
    obtain ⟨hmem,hnickname⟩ := named_iff.mp hfound
    split at h
    · cases h
    · next photoId hphoto =>
      obtain ⟨picture,hpicture,h⟩ := except_bind_ok h
      cases h
      refine ⟨user.id,_,picture,account_iff.mpr ⟨user,hmem,rfl,rfl⟩,hnickname,?_,rfl⟩
      change user.photoId.bind store.accounts.pictures.lookup=some picture
      rw [hphoto]
      exact (hselected photoId picture).mp hpicture
  · rintro ⟨userId,account,picture,haccount,hnickname,hpicture,rfl⟩
    obtain ⟨user,hmem,rfl,rfl⟩ := account_iff.mp haccount
    obtain ⟨photoId,hphoto,hlookup⟩ := Option.bind_eq_some_iff.mp hpicture
    unfold AuthPhotos.readPhoto
    rw [named_iff.mpr ⟨hmem,hnickname⟩]
    rw [except_ok_bind,hphoto]
    dsimp only
    rw [(hselected photoId picture).mpr hlookup]
    rfl

/-- The picture of an account can be read by its key. -/
theorem pictureByKey_ok {id : Bytes} {userId : ℕ} {account : Account} {picture : PictureRow}
    (haccount : (networkOf store).accounts userId=some account)
    (hpicture : account.picture=some picture)
    (hkey : dialect.readInteger id=some (picture.id : ℤ)) :
    getPhotoById dialect false id store.accounts=.ok (picture.photoType,picture.photo) := by
  obtain ⟨user,_,rfl,rfl⟩ := account_iff.mp haccount
  obtain ⟨photoId,_,hlookup⟩ := Option.bind_eq_some_iff.mp hpicture
  have hselected := execPrepared1_ok_iff.mpr
    ((filter_eq_singleton_iff (uniqueBy_intKey store.accounts.pictures)).mpr
      ⟨(lookup_eq_some_iff.mp hlookup).1,rfl⟩)
  unfold getPhotoById
  rw [mapError_eq_ok_iff]
  change readPicture dialect id store.accounts=_
  unfold readPicture
  rw [integer_of_read _ hkey]
  change (execPrepared1 _>>=_)=_
  rw [hselected]
  rfl

/-- A login answers the account it finds. -/
theorem login_iff (email password : Bytes) (userId : ℕ) :
    (checkPassword dialect.upper dialect.verify false email password store.accounts).1=.ok userId ↔
      ∃ account,LogsIn dialect (networkOf store) email password userId account := by
  have hrows : ∀ (hash : Bytes) (id : ℕ),
      execPrepared1 (AuthLogin.hashPasswordRows dialect.upper store.accounts email)=.ok (hash,id) ↔
        ∃ user,store.accounts.users.rows.filter
          (fun row => dialect.upper row.email=dialect.upper email)=[user] ∧
          user.password=hash ∧ user.id=id := by
    intro hash id
    rw [execPrepared1_ok_iff]
    unfold AuthLogin.hashPasswordRows
    rw [List.map_eq_singleton_iff]
    simp only [Prod.mk.injEq]
  change (login dialect.upper dialect.verify email password store.accounts).mapError _=.ok userId ↔ _
  rw [mapError_eq_ok_iff]
  constructor
  · intro h
    obtain ⟨asked,hasked,h⟩ := except_bind_ok h
    obtain ⟨⟨hash,id⟩,hfound,h⟩ := except_bind_ok h
    obtain ⟨user,hselected,rfl,rfl⟩ := (hrows hash id).mp hfound
    have hselects : ∀ row,row ∈ store.accounts.users.rows ∧
        dialect.upper row.email=dialect.upper email ↔ row=user := by
      intro row
      have hboth : row ∈ store.accounts.users.rows.filter
          (fun row => dialect.upper row.email=dialect.upper email) ↔ row ∈ [user] := by rw [hselected]
      rwa [List.mem_filter,decide_eq_true_eq,List.mem_singleton] at hboth
    obtain ⟨hmem,hemail⟩ := (hselects user).mpr rfl
    obtain ⟨hrow,hid⟩ := (filter_eq_singleton_iff store.accounts.users.distinct).mp
      (execPrepared1_ok_iff.mp hasked)
    dsimp only at h
    split at h
    · next hverify =>
      cases h
      refine ⟨_,⟨_,account_iff.mpr ⟨asked,hrow,hid,rfl⟩⟩,account_iff.mpr ⟨user,hmem,rfl,rfl⟩,hemail,
        fun otherId other hother hsame => ?_,hverify⟩
      obtain ⟨row,hrow,rfl,rfl⟩ := account_iff.mp hother
      rw [(hselects row).mp ⟨hrow,hsame⟩]
    · cases h
  · rintro ⟨account,⟨other,hasked⟩,haccount,hemail,hsole,hverify⟩
    obtain ⟨asked,hrow,hid,_⟩ := account_iff.mp hasked
    obtain ⟨user,hmem,rfl,rfl⟩ := account_iff.mp haccount
    have hselected : store.accounts.users.rows.filter
        (fun row => dialect.upper row.email=dialect.upper email)=[user] := by
      rw [←filter_key store.accounts.users hmem]
      refine List.filter_congr fun row hrow => decide_eq_decide.mpr ⟨fun hsame => ?_,fun hkey => ?_⟩
      · exact hsole row.id _ (account_iff.mpr ⟨row,hrow,rfl,rfl⟩) hsame
      · rw [eq_of_key_eq store.accounts.users hrow hmem hkey]
        exact hemail
    unfold login
    rw [execPrepared1_ok_iff.mpr
      ((filter_eq_singleton_iff store.accounts.users.distinct).mpr ⟨hrow,hid⟩)]
    change (execPrepared1 _>>=_)=_
    rw [(hrows user.password user.id).mpr ⟨user,hselected,rfl,rfl⟩]
    exact if_pos hverify

/-- A status is that of the network. -/
theorem status_iff (userId friendId : Bytes) (json : Json) :
    getStatus dialect false userId friendId store.friends=.ok json ↔
      ∃ user friend,dialect.readInteger userId=some user ∧ dialect.readInteger friendId=some friend ∧
        json=.object [(ascii "status",.string
          (if (networkOf store).friends user friend then ascii "friend" else ascii "stranger"))] := by
  have hstatus : ∀ row : Friend,(if row ∈ store.friends then ascii "friend" else ascii "stranger")=
      if (networkOf store).friends row.userId row.friendId then ascii "friend"
      else ascii "stranger" := by
    intro row
    refine if_congr ?_ rfl rfl
    exact (decide_eq_true_iff).symm
  constructor
  · intro h
    obtain ⟨row,hrow,h⟩ := except_bind_ok h
    obtain ⟨_,huser,hfriend⟩ := friendRow_ok dialect hrow
    cases h
    exact ⟨row.userId,row.friendId,huser,hfriend,by rw [←hstatus row]⟩
  · rintro ⟨user,friend,huser,hfriend,rfl⟩
    unfold getStatus friendRow
    rw [integer_of_read _ huser,integer_of_read _ hfriend,←hstatus ⟨user,friend⟩]
    rfl

end reads

section lists

variable {dialect : Dialect} {site : Site}

/-- The key of a linked photo is that of the picture behind it. -/
theorem picture_key (h : Sound site) {user : UserRow}
    (hmem : user ∈ site.store.accounts.users.rows) :
    (rowAccount site.store.accounts.pictures user).picture.map PictureRow.id=user.photoId := by
  change (user.photoId.bind site.store.accounts.pictures.lookup).map PictureRow.id=user.photoId
  cases hphoto : user.photoId with
  | none => rfl
  | some photoId =>
    have hlinked : photoIdOf site.store.accounts user.id=some photoId :=
      (photoIdOf_lookup (lookup_key hmem)).trans hphoto
    obtain ⟨picture,hpicture⟩ := h.present user.id photoId (Or.inl hlinked)
    rw [Option.bind_some,hpicture]
    exact congrArg some (lookup_eq_some_iff.mp hpicture).2

/-- The key of the photo of a post is that of the photo behind it. -/
theorem photo_key (h : Sound site) {post : Post} (hmem : post ∈ site.store.content.posts.rows) :
    (rowPublication site.store.content.postPhotos post).photo.map PostPhoto.id=
      some post.photoId := by
  obtain ⟨photo,hphoto⟩ := h.attached post hmem
  change (site.store.content.postPhotos.lookup post.photoId).map PostPhoto.id=some post.photoId
  rw [hphoto]
  exact congrArg some (lookup_eq_some_iff.mp hphoto).2

/-- Having a friend is read from the rows. -/
theorem friends_any (store : Store) (id friendId : ℤ) :
    (store.friends.any fun friend => friend.userId=id ∧ friend.friendId=friendId)=
      (networkOf store).friends id friendId := by
  rw [Bool.eq_iff_iff,List.any_eq_true]
  change _ ↔ decide _=true
  rw [decide_eq_true_iff]
  constructor
  · rintro ⟨row,hmem,hrow⟩
    obtain ⟨rfl,rfl⟩ := of_decide_eq_true hrow
    exact hmem
  · exact fun hmem => ⟨_,hmem,decide_eq_true ⟨rfl,rfl⟩⟩

/-- A like is read from the rows. -/
theorem likes_any (store : Store) (postId userId : ℤ) :
    (store.content.likes.rows.any fun like => like.postId=postId ∧ like.userId=userId)=
      (networkOf store).likes postId userId := by
  rw [Bool.eq_iff_iff,any_likes_iff]
  exact (decide_eq_true_iff).symm

/-- An element of a list of users shows an account. -/
theorem userElement_account (h : Sound site) (id : ℤ) {user : UserRow}
    (hmem : user ∈ site.store.accounts.users.rows) :
    userElement site.store.friends id user=accountElement (networkOf site.store) id user.id
      (rowAccount site.store.accounts.pictures user) := by
  unfold userElement accountElement
  rw [picture_key h hmem,friends_any]
  rfl

/-- An element of a list of posts shows a publication and its owner. -/
theorem postElement_publication (h : Sound site) (id : ℤ) {row : AuthoredPost}
    (hpost : row.post ∈ site.store.content.posts.rows)
    (hauthor : row.author ∈ site.store.accounts.users.rows) :
    postElement dialect.timestampText site.store.content id row=
      publicationElement dialect (networkOf site.store) id row.post.id
        (rowPublication site.store.content.postPhotos row.post)
        (rowAccount site.store.accounts.pictures row.author) := by
  unfold postElement publicationElement
  rw [picture_key h hauthor,photo_key h hpost,likes_any]
  rfl

/-- Posts joined with their owners are the authored ones. -/
theorem mem_authoredPosts {store : Store} {row : AuthoredPost} :
    row ∈ store.authoredPosts ↔ row.post ∈ store.content.posts.rows ∧
      row.author ∈ store.accounts.users.rows ∧ (row.author.id : ℤ)=row.post.userId := by
  unfold Store.authoredPosts
  rw [List.mem_flatMap]
  constructor
  · rintro ⟨post,hpost,hrow⟩
    obtain ⟨user,huser,rfl⟩ := List.mem_map.mp hrow
    obtain ⟨hmem,hid⟩ := List.mem_filter.mp huser
    exact ⟨hpost,hmem,of_decide_eq_true hid⟩
  · rintro ⟨hpost,hauthor,hid⟩
    exact ⟨row.post,hpost,List.mem_map.mpr ⟨row.author,List.mem_filter.mpr
      ⟨hauthor,decide_eq_true hid⟩,rfl⟩⟩

/-- Elements of a selection of the authored posts. -/
theorem mem_selection (h : Sound site) (id : ℤ) {selected : AuthoredPost → Bool} (chosen : ℤ → Prop)
    (hselected : ∀ row,selected row=true ↔ chosen row.post.userId) (element : Json) :
    element ∈ (site.store.authoredPosts.filter selected).map
        (postElement dialect.timestampText site.store.content id) ↔
      ∃ postId publication account,Authored (networkOf site.store) postId publication account ∧
        chosen publication.owner ∧
        element=publicationElement dialect (networkOf site.store) id postId publication account := by
  rw [List.mem_map]
  constructor
  · rintro ⟨row,hrow,rfl⟩
    obtain ⟨hmem,hchosen⟩ := List.mem_filter.mp hrow
    obtain ⟨hpost,hauthor,hid⟩ := mem_authoredPosts.mp hmem
    exact ⟨row.post.id,_,_,⟨publication_iff.mpr ⟨row.post,hpost,rfl,rfl⟩,row.author.id,hid.symm,
      account_iff.mpr ⟨row.author,hauthor,rfl,rfl⟩⟩,(hselected row).mp hchosen,
      postElement_publication h id hpost hauthor⟩
  · rintro ⟨postId,publication,account,⟨hpublication,author,howner,haccount⟩,hchosen,rfl⟩
    obtain ⟨post,hpost,rfl,rfl⟩ := publication_iff.mp hpublication
    obtain ⟨user,huser,rfl,rfl⟩ := account_iff.mp haccount
    refine ⟨⟨post,user⟩,List.mem_filter.mpr ⟨mem_authoredPosts.mpr ⟨hpost,huser,howner.symm⟩,
      (hselected _).mpr hchosen⟩,?_⟩
    exact postElement_publication h id hpost huser

/-- Elements of a list of users. -/
theorem mem_usersList (h : Sound site) (substr : Bytes) (id : ℤ) (element : Json) :
    element ∈ (usersList dialect.upper dialect.like site.store substr id).map
        (userElement site.store.friends id) ↔
      ∃ (userId : ℕ) (account : Account),(networkOf site.store).accounts userId=some account ∧
        dialect.like (dialect.upper account.nickname) (dialect.upper (37::substr++[37]))=true ∧
        (userId : ℤ)≠id ∧ element=accountElement (networkOf site.store) id userId account := by
  rw [List.mem_map]
  constructor
  · rintro ⟨user,huser,rfl⟩
    obtain ⟨hmem,hmatch⟩ := List.mem_filter.mp huser
    obtain ⟨hlike,hother⟩ := of_decide_eq_true hmatch
    exact ⟨user.id,_,account_iff.mpr ⟨user,hmem,rfl,rfl⟩,hlike,hother,userElement_account h id hmem⟩
  · rintro ⟨userId,account,haccount,hlike,hother,rfl⟩
    obtain ⟨user,hmem,rfl,rfl⟩ := account_iff.mp haccount
    exact ⟨user,List.mem_filter.mpr ⟨hmem,decide_eq_true ⟨hlike,hother⟩⟩,
      userElement_account h id hmem⟩

/-- The photo of a publication is there, and can be read by its key. -/
theorem photo_ok (h : Sound site) {circumstances : Circumstances} (hhealthy : circumstances.Healthy)
    {id : Bytes} {postId : ℕ} {publication : Publication}
    (hpublication : (networkOf site.store).publications postId=some publication) :
    ∃ photo,publication.photo=some photo ∧ (dialect.readInteger id=some (photo.id : ℤ) →
      getPostPhotoById dialect.readInteger circumstances id site.store.content=
        .ok (photo.photoType,photo.photo)) := by
  obtain ⟨post,hpost,rfl,rfl⟩ := publication_iff.mp hpublication
  obtain ⟨photo,hphoto⟩ := h.attached post hpost
  refine ⟨photo,hphoto,fun hkey => ?_⟩
  have hrows := (filter_eq_singleton_iff (uniqueBy_intKey site.store.content.postPhotos)).mpr
    ⟨(lookup_eq_some_iff.mp hphoto).1,rfl⟩
  have hstatement : ∀ number,statement circumstances number=.ok () := by
    intro number
    unfold statement
    rw [hhealthy.fault]
    rfl
  unfold getPostPhotoById getPostPhotoByIdWork
  rw [mapError_eq_ok_iff,hstatement,hstatement,integer_of_read _ hkey,hhealthy.commit]
  rw [except_ok_bind,except_ok_bind,except_ok_bind,hrows]
  rfl

/-- A sound site answers every read from the network its tables stand for. -/
theorem sound_answers (h : Sound site) : AnswersFrom dialect (networkOf site.store) site.store where
  nickname := nickname_iff
  profile := profile_iff
  picture := picture_iff
  pictureByKey _ _ _ _ haccount hpicture hkey := pictureByKey_ok haccount hpicture hkey
  login := login_iff
  status := status_iff
  users := mem_usersList h
  feed id element := by
    have hchosen : ∀ row : AuthoredPost,
        decide ((site.store.friends.any fun friend =>
            friend.userId=id ∧ friend.friendId=row.post.userId)=true ∨ row.post.userId=id)=true ↔
          (networkOf site.store).friends id row.post.userId=true ∨ row.post.userId=id := by
      intro row
      rw [decide_eq_true_eq,friends_any]
    exact mem_selection h id
      (fun owner => (networkOf site.store).friends id owner=true ∨ owner=id) hchosen element
  postsBy authorId id element :=
    mem_selection h id (·=authorId) (fun _ => decide_eq_true_iff) element
  photo _ _ _ _ hhealthy hpublication := photo_ok h hhealthy hpublication

end lists

section pages

variable {dialect : Dialect} {site : Site} {ρ ι : Type}

/-- A list shows a page of all that is chosen: of a listing of it, with nothing
twice and in an order, what is behind the offset and within the limit. -/
def ListsPage (dialect : Dialect) (chosen : ι → Prop) (before : ι → ι → Prop) (element : ι → Json)
    (limitText offsetText : Bytes) (json : Json) : Prop :=
  ∃ (listing : List ι) (limit offset : ℕ),listing.Nodup ∧ (∀ item,item ∈ listing ↔ chosen item) ∧
    listing.Pairwise before ∧ dialect.readBigint limitText=some (limit : ℤ) ∧
    dialect.readBigint offsetText=some (offset : ℤ) ∧
    elementsOf json=(page listing limit offset).map element

variable (network : Network)

/-- The account of a key is found by a search of another user. -/
def Matches (dialect : Dialect) (substr : Bytes) (id : ℤ) (found : ℕ×Account) : Prop :=
  network.accounts found.1=some found.2 ∧
    dialect.like (dialect.upper found.2.nickname) (dialect.upper (37::substr++[37]))=true ∧
    (found.1 : ℤ)≠id

/-- A post with its owner's account, for an owner who is chosen. -/
def PostOf (chosen : ℤ → Prop) (found : ℕ×Publication×Account) : Prop :=
  Authored network found.1 found.2.1 found.2.2 ∧ chosen found.2.1.owner

/-- The latest posts stand first. -/
def NotOlder (found other : ℕ×Publication×Account) : Prop :=
  other.2.1.datePosted ≤ found.2.1.datePosted

end pages

section runs

variable {dialect : Dialect}

/-- Wherever the transactions of both servers lead from empty tables, in any
order and whatever breaks down, every read is answered from the network that
the committed changes make. -/
theorem reads_answer_network {final : Site} {schedule : List Move}
    (hrun : run (step dialect) (Site.opened emptyStore) schedule=some final) :
    AnswersFrom dialect (Network.empty.replay (committedBy dialect (Site.opened emptyStore) schedule))
      final.store := by
  have hnetwork := run_refined sound_empty hrun
  rw [←networkOf_empty]
  exact hnetwork ▸ sound_answers (run_sound sound_empty hrun)

/-- The picture read by the nickname of a user is the one that replaced the
picture of the registration, and the user of the failed one has none. -/
theorem reads_answer_network_sample :
    ∃ final,run (step plainDialect) (Site.opened emptyStore) (registrations++activities)=some final ∧
      (getProfilePhoto false (ascii "ann") final.store.accounts).1=
        .ok (ascii "image/png",ascii "second") ∧
      getStatus plainDialect false (ascii "1") (ascii "2") final.store.friends=
        .ok (.object [(ascii "status",.string (ascii "friend"))]) := by
  have hmap : (run (step plainDialect) (Site.opened emptyStore)
      (registrations++activities)).isSome=true := by
    decide +kernel
  have haccount : ((Network.empty.replay (committedBy plainDialect (Site.opened emptyStore)
      (registrations++activities))).accounts 1).map (fun account =>
        (account.nickname,account.picture))=
      some (ascii "ann",some ⟨1,ascii "image/png",ascii "second"⟩) := by
    decide +kernel
  have hfriends : (Network.empty.replay (committedBy plainDialect (Site.opened emptyStore)
      (registrations++activities))).friends 1 2=true := by
    decide +kernel
  obtain ⟨final,hrun⟩ := Option.isSome_iff_exists.mp hmap
  obtain ⟨account,hfound,hshown⟩ := Option.map_eq_some_iff.mp haccount
  obtain ⟨hnickname,hpicture⟩ := Prod.mk.inj hshown
  have hanswers := reads_answer_network hrun
  refine ⟨final,hrun,(hanswers.picture _ _).mpr ⟨1,account,_,hfound,hnickname,hpicture,rfl⟩,
    (hanswers.status _ _ _).mpr ⟨1,2,by decide +kernel,by decide +kernel,?_⟩⟩
  rw [hfriends]
  rfl

end runs

end Photogram.NetworkReads
