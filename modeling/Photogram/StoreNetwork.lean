import Photogram.SharedStore
import Photogram.UserSearch

/-!
# The tables refine the network

What the tables stand for, read through their links, is the network that the
committed changes make, wherever the transactions of both servers lead. No
photo is linked twice, and one that a registration has not linked yet is
nobody else's, so that a transaction on one row changes one account.
-/

namespace Photogram.StoreNetwork

open CxxString JsonValue QueryString RowTable AuthConnection AuthDatabase ContentConnection
open ContentPosts ListPages LikeToggle Schedule AuthStore SocialNetwork SharedStore
open AuthPhotos (photoIdOf setPicture setPicture_users)
open ContentLikes (oneMore oneLess)
open PostPhotos (noRows)

section abstraction

/-- Account of a row. -/
def rowAccount (pictures : Table PictureRow.id) (user : UserRow) : Account where
  nickname := user.nickname
  firstName := user.firstName
  lastName := user.lastName
  email := user.email
  isMale := user.isMale
  birthdate := user.birthdate
  password := user.password
  picture := user.photoId.bind pictures.lookup

/-- Account of a key. -/
def accountOf (accounts : Database) (id : ℕ) : Option Account :=
  (accounts.users.lookup id).map (rowAccount accounts.pictures)

/-- Publication of a row. -/
def rowPublication (postPhotos : Table PostPhoto.id) (post : Post) : Publication where
  owner := post.userId
  datePosted := post.datePosted
  description := post.postDescription
  likeCount := post.likeCount
  photo := postPhotos.lookup post.photoId

/-- Publication of a key. -/
def publicationOf (tables : Tables) (id : ℕ) : Option Publication :=
  (tables.posts.lookup id).map (rowPublication tables.postPhotos)

/-- The network that tables stand for. -/
def networkOf (store : Store) : Network where
  accounts := accountOf store.accounts
  friends user friend := decide ((⟨user,friend⟩ : Friend) ∈ store.friends)
  publications := publicationOf store.content
  likes := liked store.content

/-- A registration has inserted a photo and not deleted it. -/
def stagedPhoto (registering : ℕ → Option Stage) (userId : ℕ) : Option ℕ :=
  (registering userId).bind Stage.photoId

/-- A user links to a photo, or its registration has inserted it. -/
def Holds (site : Site) (userId photoId : ℕ) : Prop :=
  photoIdOf site.store.accounts userId=some photoId ∨
    stagedPhoto site.registering userId=some photoId

/-- Links lead to rows, those of users to one of their own; a user under
registration has none yet, and its photo is the one of the form. -/
structure Sound (site : Site) : Prop where
  /-- A held photo is in the table. -/
  present : ∀ userId photoId,Holds site userId photoId →
    ∃ picture,site.store.accounts.pictures.lookup photoId=some picture
  /-- No two users hold one photo. -/
  unshared : ∀ a b photoId,Holds site a photoId → Holds site b photoId → a=b
  /-- A registration under way has inserted its user and not linked it. -/
  begun : ∀ userId stage,site.registering userId=some stage →
    ∃ user,site.store.accounts.users.lookup userId=some user ∧ user.photoId=none
  /-- A photo to be linked is that of the form. -/
  staged : ∀ userId userProperties binaryData photoId,
    site.registering userId=some (.pictured userProperties binaryData photoId) →
    site.store.accounts.pictures.lookup photoId=
      some ⟨photoId,property userProperties (ascii "photo_type"),binaryData⟩
  /-- The photo of a post is in the table. -/
  attached : ∀ post ∈ site.store.content.posts.rows,
    ∃ photo,site.store.content.postPhotos.lookup post.photoId=some photo

/-- Tables as they are created. -/
def emptyStore : Store := ⟨Database.empty,[],noRows⟩

/-- They stand for nothing yet. -/
theorem networkOf_empty : networkOf emptyStore=Network.empty := rfl

/-- They are sound. -/
theorem sound_empty : Sound (Site.opened emptyStore) := by
  have hnone : ∀ userId photoId,¬Holds (Site.opened emptyStore) userId photoId := by
    rintro userId photoId (hlinked|hstaged)
    · cases hlinked
    · cases hstaged
  exact ⟨fun a p h => absurd h (hnone a p),fun a _ p h => absurd h (hnone a p),nofun,nofun,
    fun _ h => absurd h List.not_mem_nil⟩

/-- Tables stay sound when registrations under way are left out of account. -/
theorem Sound.opened {site : Site} (h : Sound site) : Sound (Site.opened site.store) := by
  have hholds : ∀ {userId photoId},Holds (Site.opened site.store) userId photoId →
      Holds site userId photoId := by
    rintro userId photoId (hlinked|hstaged)
    · exact Or.inl hlinked
    · cases hstaged
  exact ⟨fun a p hheld => h.present a p (hholds hheld),
    fun a b p ha hb => h.unshared a b p (hholds ha) (hholds hb),nofun,nofun,h.attached⟩

end abstraction

section frames

variable {site : Site} {accounts : Database} {userId : ℕ} {stage : Option Stage}

/-- A linked photo is that of the row of its user. -/
theorem photoIdOf_lookup {user : UserRow} (h : accounts.users.lookup userId=some user) :
    photoIdOf accounts userId=user.photoId :=
  congrArg (fun row : Option UserRow => row.bind UserRow.photoId) h

/-- What a registration under way has inserted, as others see it. -/
theorem stagedPhoto_other {other : ℕ} (h : other≠userId) :
    stagedPhoto (site.staged accounts userId stage).registering other=
      stagedPhoto site.registering other := by
  unfold stagedPhoto Site.staged
  dsimp only
  rw [Function.update_of_ne h]

/-- What the registration of a user has inserted. -/
theorem stagedPhoto_self : stagedPhoto (site.staged accounts userId stage).registering userId=
    stage.bind Stage.photoId := by
  unfold stagedPhoto Site.staged
  dsimp only
  rw [Function.update_self]

/-- A transaction on the row and the photos of one user. -/
structure OnUser (site : Site) (accounts : Database) (userId : ℕ) : Prop where
  /-- Other rows stay. -/
  users : ∀ other,other≠userId →
    accounts.users.lookup other=site.store.accounts.users.lookup other
  /-- So do photos others hold. -/
  pictures : ∀ other photoId,other≠userId → Holds site other photoId →
    accounts.pictures.lookup photoId=site.store.accounts.pictures.lookup photoId

/-- Others link to what they linked to. -/
theorem OnUser.photoIdOf (h : OnUser site accounts userId) {other : ℕ} (hne : other≠userId) :
    AuthPhotos.photoIdOf accounts other=AuthPhotos.photoIdOf site.store.accounts other :=
  congrArg (fun row : Option UserRow => row.bind UserRow.photoId) (h.users other hne)

/-- Others hold what they held. -/
theorem OnUser.holds (h : OnUser site accounts userId) {other photoId : ℕ} (hne : other≠userId) :
    Holds (site.staged accounts userId stage) other photoId ↔ Holds site other photoId := by
  unfold Holds
  rw [stagedPhoto_other hne]
  change AuthPhotos.photoIdOf accounts other=_ ∨ _ ↔ _
  rw [h.photoIdOf hne]

/-- A transaction on one user keeps a site sound, when what the user holds
behind it was held by nobody else, and the user's registration is sound. -/
theorem Sound.onUser (h : Sound site) (hon : OnUser site accounts userId)
    (hown : ∀ photoId,Holds (site.staged accounts userId stage) userId photoId →
      (∀ other,other≠userId → ¬Holds site other photoId) ∧
        ∃ picture,accounts.pictures.lookup photoId=some picture)
    (hbegun : ∀ reached,stage=some reached →
      ∃ user,accounts.users.lookup userId=some user ∧ user.photoId=none)
    (hform : ∀ userProperties binaryData photoId,
      stage=some (.pictured userProperties binaryData photoId) →
      accounts.pictures.lookup photoId=
        some ⟨photoId,property userProperties (ascii "photo_type"),binaryData⟩) :
    Sound (site.staged accounts userId stage) where
  present other photoId hheld := by
    by_cases hself : other=userId
    · exact (hown photoId (hself ▸ hheld)).2
    · have hbefore := (hon.holds hself).mp hheld
      exact (h.present other photoId hbefore).imp fun picture hpicture =>
        (hon.pictures other photoId hself hbefore).trans hpicture
  unshared a b photoId ha hb := by
    by_cases haself : a=userId
    · by_cases hbself : b=userId
      · exact haself.trans hbself.symm
      · exact absurd ((hon.holds hbself).mp hb) ((hown photoId (haself ▸ ha)).1 b hbself)
    · by_cases hbself : b=userId
      · exact absurd ((hon.holds haself).mp ha) ((hown photoId (hbself ▸ hb)).1 a haself)
      · exact h.unshared a b photoId ((hon.holds haself).mp ha) ((hon.holds hbself).mp hb)
  begun other reached hreached := by
    unfold Site.staged at hreached
    dsimp only at hreached
    by_cases hself : other=userId
    · rw [hself,Function.update_self] at hreached
      rw [hself]
      exact hbegun reached hreached
    · rw [Function.update_of_ne hself] at hreached
      exact (h.begun other reached hreached).imp fun user huser =>
        ⟨(hon.users other hself).trans huser.1,huser.2⟩
  staged other userProperties binaryData photoId hreached := by
    unfold Site.staged at hreached
    dsimp only at hreached
    by_cases hself : other=userId
    · rw [hself,Function.update_self] at hreached
      exact hform userProperties binaryData photoId hreached
    · rw [Function.update_of_ne hself] at hreached
      have hheld : Holds site other photoId := Or.inr (congrArg (·.bind Stage.photoId) hreached)
      exact (hon.pictures other photoId hself hheld).trans
        (h.staged other userProperties binaryData photoId hreached)
  attached := h.attached

/-- A transaction on one user changes one account. -/
theorem networkOf_onUser (hon : OnUser site accounts userId) :
    networkOf {site.store with accounts := accounts}=
      (networkOf site.store).setAccount userId (accountOf accounts userId) := by
  refine Network.ext (funext fun other => ?_) rfl rfl rfl
  change accountOf accounts other=Function.update (accountOf site.store.accounts) userId _ other
  by_cases hself : other=userId
  · rw [hself,Function.update_self]
  · rw [Function.update_of_ne hself]
    unfold accountOf
    rw [hon.users other hself]
    cases huser : site.store.accounts.users.lookup other with
    | none => rfl
    | some user =>
      have hpicture : user.photoId.bind accounts.pictures.lookup=
          user.photoId.bind site.store.accounts.pictures.lookup := by
        cases hphoto : user.photoId with
        | none => rfl
        | some photoId =>
          exact hon.pictures other photoId hself (Or.inl ((photoIdOf_lookup huser).trans hphoto))
      exact congrArg (fun picture => some {rowAccount site.store.accounts.pictures user with
        picture := picture}) hpicture

/-- The account behind an integer is that of its key, and there is none behind
a negative one. -/
theorem onAccount_userKey (store : Store) (key : ℤ) (change : Account → Account) :
    (networkOf store).onAccount key change=
      (networkOf store).setAccount (userKey key store.accounts)
        ((accountOf store.accounts (userKey key store.accounts)).map change) := by
  refine Network.ext (funext fun id => ?_) rfl rfl rfl
  change (if (id : ℤ)=key then (accountOf store.accounts id).map change
    else accountOf store.accounts id)=Function.update (accountOf store.accounts) _ _ id
  by_cases hnext : id=store.accounts.users.next
  · have hnone : accountOf store.accounts id=none := by
      unfold accountOf
      rw [hnext,lookup_next]
      rfl
    rw [hnone,Option.map_none,ite_self]
    by_cases hself : id=userKey key store.accounts
    · rw [←hself,Function.update_self,hnone]
      rfl
    · rw [Function.update_of_ne hself,hnone]
  · have hkey : (id : ℤ)=key ↔ id=userKey key store.accounts := by
      unfold userKey
      split <;> omega
    by_cases hself : id=userKey key store.accounts
    · rw [if_pos (hkey.mpr hself),←hself,Function.update_self]
    · rw [if_neg fun heq => hself (hkey.mp heq),Function.update_of_ne hself]

/-- An account that stays where it is. -/
theorem setAccount_self (store : Store) (userId : ℕ) :
    (networkOf store).setAccount userId (accountOf store.accounts userId)=networkOf store := by
  refine Network.ext ?_ rfl rfl rfl
  exact Function.update_eq_self userId (accountOf store.accounts)

end frames

section calls

variable {site : Site} {accounts : Database}

/-- What a transaction makes of a site and of the network behind it. -/
structure Refined (site next : Site) (changes : List Change) : Prop where
  /-- The site is sound. -/
  sound : Sound next
  /-- The network has changed by what was committed. -/
  network : networkOf next.store=(networkOf site.store).replay changes

/-- A user under registration links to nothing. -/
theorem Sound.unlinked (h : Sound site) {userId : ℕ} {stage : Stage}
    (hstage : site.registering userId=some stage) : photoIdOf site.store.accounts userId=none := by
  obtain ⟨user,huser,hphoto⟩ := h.begun userId stage hstage
  rw [photoIdOf_lookup huser,hphoto]

/-- Others do not hold what a user holds. -/
theorem Sound.others (h : Sound site) {userId photoId : ℕ} (hheld : Holds site userId photoId) :
    ∀ other,other≠userId → ¬Holds site other photoId :=
  fun other hne hother => hne (h.unshared other userId photoId hother hheld)

/-- Other accounts with the registrations as they are. -/
theorem staged_self (site : Site) (accounts : Database) (userId : ℕ) :
    site.staged accounts userId (site.registering userId)=
      {site with store := {site.store with accounts := accounts}} := by
  unfold Site.staged
  rw [Function.update_eq_self]

/-- A change of one row is a transaction on its user. -/
theorem onUser_update {userId : ℕ} {change : UserRow → UserRow} {hkey : ∀ row,(change row).id=row.id}
    (husers : accounts.users=site.store.accounts.users.update userId change hkey)
    (hpictures : accounts.pictures=site.store.accounts.pictures) : OnUser site accounts userId where
  users other hne := by rw [husers,lookup_update,if_neg hne]
  pictures other photoId _ _ := by rw [hpictures]

/-- An update that succeeds has changed its row. -/
theorem updateUser_ok {database after : Database} {id : ℕ} {change : UserRow → UserRow}
    {hkey : ∀ row,(change row).id=row.id} (h : database.updateUser id change hkey=.ok after) :
    after.users=database.users.update id change hkey ∧ after.pictures=database.pictures := by
  unfold Database.updateUser at h
  split at h
  · split at h
    · cases h
      exact ⟨rfl,rfl⟩
    · cases h
  · cases h

/-- An acknowledged change of a row that keeps its link changes its account. -/
theorem refined_row (h : Sound site) (key : ℤ) (changed : Account → Account)
    {change : UserRow → UserRow} {hkey : ∀ row,(change row).id=row.id}
    (husers : accounts.users=site.store.accounts.users.update (userKey key site.store.accounts)
      change hkey)
    (hpictures : accounts.pictures=site.store.accounts.pictures)
    (hphoto : ∀ row,(change row).photoId=row.photoId)
    (hchanged : ∀ pictures row,rowAccount pictures (change row)=changed (rowAccount pictures row)) :
    Sound {site with store := {site.store with accounts := accounts}} ∧
      networkOf {site.store with accounts := accounts}=
        (networkOf site.store).onAccount key changed := by
  have hon : OnUser site accounts (userKey key site.store.accounts) := onUser_update husers hpictures
  have hself : accounts.users.lookup (userKey key site.store.accounts)=
      (site.store.accounts.users.lookup (userKey key site.store.accounts)).map change := by
    rw [husers,lookup_update,if_pos rfl]
  have hlinks : photoIdOf accounts (userKey key site.store.accounts)=
      photoIdOf site.store.accounts (userKey key site.store.accounts) := by
    change (accounts.users.lookup _).bind _=(site.store.accounts.users.lookup _).bind _
    rw [hself,Option.bind_map]
    exact congrArg (Option.bind _) (funext hphoto)
  rw [←staged_self site accounts (userKey key site.store.accounts)]
  refine ⟨h.onUser hon (fun photoId hheld => ?_) (fun stage hstage => ?_)
    fun userProperties binaryData photoId hstage => ?_,?_⟩
  · have hbefore : Holds site (userKey key site.store.accounts) photoId := by
      unfold Holds at hheld ⊢
      rw [stagedPhoto_self] at hheld
      exact hheld.imp_left hlinks.symm.trans
    rw [hpictures]
    exact ⟨h.others hbefore,h.present _ _ hbefore⟩
  · obtain ⟨user,huser,hnone⟩ := h.begun _ stage hstage
    exact ⟨change user,by rw [hself,huser]; rfl,(hphoto user).trans hnone⟩
  · rw [hpictures]
    exact h.staged _ userProperties binaryData photoId hstage
  · rw [onAccount_userKey]
    refine (networkOf_onUser hon).trans (congrArg _ ?_)
    unfold accountOf
    rw [hself,hpictures,Option.map_map,Option.map_map]
    exact congrArg (fun f => Option.map f _) (funext (hchanged _))

/-- A photo update is a transaction on the user that links to the photo. -/
theorem onUser_setPicture (h : Sound site) (userId : ℕ) (photoType photo : Bytes) :
    OnUser site (setPicture site.store.accounts userId photoType photo) userId where
  users other _ := by rw [setPicture_users]
  pictures other photoId hne hheld := by
    unfold setPicture
    split
    · next linked hlinked =>
      have hother : photoId≠linked := by
        rintro rfl
        exact hne (h.unshared other userId photoId hheld (Or.inl hlinked))
      dsimp only
      rw [lookup_update,if_neg hother]
    · rfl

/-- An acknowledged photo update changes the picture of its account. -/
theorem refined_picture (h : Sound site) (key : ℤ) (photoType photo : Bytes) :
    Sound {site with store := {site.store with accounts :=
        (setPicture site.store.accounts (userKey key site.store.accounts) photoType photo)}} ∧
      networkOf {site.store with accounts :=
          (setPicture site.store.accounts (userKey key site.store.accounts) photoType photo)}=
        (networkOf site.store).onAccount key fun account => account.withPhoto photoType photo := by
  have hon := onUser_setPicture h (userKey key site.store.accounts) photoType photo
  rw [←staged_self site _ (userKey key site.store.accounts)]
  generalize huserId : userKey key site.store.accounts=userId at hon
  have hlinks : photoIdOf (setPicture site.store.accounts userId photoType photo) userId=
      photoIdOf site.store.accounts userId := by
    change ((setPicture site.store.accounts userId photoType photo).users.lookup userId).bind _=_
    rw [setPicture_users]
    rfl
  refine ⟨h.onUser hon (fun photoId hheld => ?_) (fun stage hstage => ?_)
    fun userProperties binaryData photoId hstage => ?_,?_⟩
  · have hbefore : Holds site userId photoId := by
      unfold Holds at hheld ⊢
      rw [stagedPhoto_self] at hheld
      exact hheld.imp_left hlinks.symm.trans
    refine ⟨h.others hbefore,?_⟩
    obtain ⟨picture,hpicture⟩ := h.present _ _ hbefore
    unfold setPicture
    split
    · next linked hlinked =>
      rw [lookup_update,hpicture]
      split
      · exact ⟨_,rfl⟩
      · exact ⟨_,rfl⟩
    · exact ⟨picture,hpicture⟩
  · rw [setPicture_users]
    exact h.begun _ stage hstage
  · have hsame : setPicture site.store.accounts userId photoType photo=site.store.accounts := by
      unfold setPicture
      rw [h.unlinked hstage]
    rw [hsame]
    exact h.staged _ userProperties binaryData photoId hstage
  · rw [onAccount_userKey,huserId]
    refine (networkOf_onUser hon).trans (congrArg _ ?_)
    unfold accountOf
    rw [setPicture_users]
    cases huser : site.store.accounts.users.lookup userId with
    | none => rfl
    | some user =>
      have hphoto := photoIdOf_lookup huser
      refine congrArg some ?_
      unfold setPicture rowAccount Account.withPhoto
      rw [hphoto]
      cases hlinked : user.photoId with
      | none => rfl
      | some photoId =>
        dsimp only [Option.bind_some]
        rw [lookup_update,if_pos rfl]

/-- Every acknowledged call of the authentication server changes the network as
it says. -/
theorem refined_written {dialect : Dialect} (h : Sound site) {call : DbCall} {after : Store}
    (hwritten : Written dialect site.store after call) :
    Refined site {site with store := after} (callChanges dialect call) := by
  cases call with
  | updateProfilePhoto postInfo id =>
    obtain ⟨key,hkey,rfl⟩ := hwritten
    unfold callChanges
    dsimp only
    rw [hkey]
    exact ⟨(refined_picture h key _ _).1,(refined_picture h key _ _).2⟩
  | updateProfileData jsonBody id =>
    obtain ⟨key,profile,accounts,hkey,hprofile,hupdate,rfl⟩ := hwritten
    unfold callChanges
    dsimp only
    rw [hkey,hprofile]
    obtain ⟨husers,hpictures⟩ := updateUser_ok hupdate
    obtain ⟨hsound,hnetwork⟩ := refined_row h key (fun account => account.withProfile profile) husers
      hpictures (fun _ => rfl) fun _ _ => rfl
    exact ⟨hsound,hnetwork⟩
  | updateProfilePassword password id =>
    obtain ⟨key,hkey,rfl⟩ := hwritten
    unfold callChanges
    dsimp only
    rw [hkey]
    have husers : (setPassword site.store.accounts (userKey key site.store.accounts) password).users=
        site.store.accounts.users.update (userKey key site.store.accounts)
          (fun row => {row with password := password}) fun _ => rfl := rfl
    obtain ⟨hsound,hnetwork⟩ := refined_row h key (fun account => {account with password := password})
      husers rfl (fun _ => rfl) fun _ _ => rfl
    exact ⟨hsound,hnetwork⟩
  | makeFriend userId friendId =>
    obtain ⟨row,huser,hfriend,rfl⟩ := hwritten
    unfold callChanges
    dsimp only
    rw [huser,hfriend]
    refine ⟨⟨h.present,h.unshared,h.begun,h.staged,h.attached⟩,Network.ext rfl ?_ rfl rfl⟩
    funext user friend
    change decide (_ ∈ site.store.friends++[row])=if _ then true else decide (_ ∈ site.store.friends)
    by_cases hrow : user=row.userId ∧ friend=row.friendId
    · rw [if_pos hrow,hrow.1,hrow.2]
      exact decide_eq_true (List.mem_append_right _ List.mem_cons_self)
    · rw [if_neg hrow]
      refine decide_eq_decide.mpr ?_
      rw [List.mem_append,List.mem_singleton]
      exact or_iff_left fun heq => hrow ⟨congrArg Friend.userId heq,congrArg Friend.friendId heq⟩
  | deleteFriend userId friendId =>
    obtain ⟨row,huser,hfriend,rfl⟩ := hwritten
    unfold callChanges
    dsimp only
    rw [huser,hfriend]
    refine ⟨⟨h.present,h.unshared,h.begun,h.staged,h.attached⟩,Network.ext rfl ?_ rfl rfl⟩
    funext user friend
    change decide (_ ∈ site.store.friends.filter _)=
      if _ then false else decide (_ ∈ site.store.friends)
    by_cases hrow : user=row.userId ∧ friend=row.friendId
    · rw [if_pos hrow,hrow.1,hrow.2]
      exact decide_eq_false fun hmem => of_decide_eq_true (List.mem_filter.mp hmem).2 rfl
    · rw [if_neg hrow]
      refine decide_eq_decide.mpr ?_
      rw [List.mem_filter,decide_eq_true_eq]
      exact and_iff_left fun heq => hrow ⟨congrArg Friend.userId heq,congrArg Friend.friendId heq⟩
  | _ => exact hwritten.elim

end calls

section operations

variable {site : Site}

/-- A post that the tables get with its photo is published. -/
theorem publicationOf_added {tables : Tables}
    (hattached : ∀ post ∈ tables.posts.rows,∃ photo,tables.postPhotos.lookup post.photoId=some photo)
    (photoType photo : Bytes) (user : ℤ) (now : ℕ) (description : Bytes) (id : ℕ) :
    publicationOf ((tables.addPhoto photoType photo).addPost user now description
        tables.postPhotos.next) id=
      Function.update (publicationOf tables) tables.posts.next (some ⟨user,now,description,none,
        some ⟨tables.postPhotos.next,photoType,photo⟩⟩) id := by
  have hposts : ((tables.addPhoto photoType photo).addPost user now description
        tables.postPhotos.next).posts.lookup id=
      if id=tables.posts.next then
        some ⟨tables.posts.next,user,now,description,none,tables.postPhotos.next⟩
      else tables.posts.lookup id := lookup_insert rfl
  have hphotos : ∀ photoId,((tables.addPhoto photoType photo).addPost user now description
        tables.postPhotos.next).postPhotos.lookup photoId=
      if photoId=tables.postPhotos.next then some ⟨tables.postPhotos.next,photoType,photo⟩
      else tables.postPhotos.lookup photoId := fun photoId => lookup_insert rfl
  unfold publicationOf
  rw [hposts]
  by_cases hnew : id=tables.posts.next
  · rw [if_pos hnew,hnew,Function.update_self,Option.map_some]
    unfold rowPublication
    rw [hphotos,if_pos rfl]
  · rw [if_neg hnew,Function.update_of_ne hnew]
    cases hpost : tables.posts.lookup id with
    | none => rfl
    | some post =>
      obtain ⟨attached,hphoto⟩ := hattached post (lookup_eq_some_iff.mp hpost).1
      have hold : post.photoId≠tables.postPhotos.next := Nat.ne_of_lt (lt_next_of_lookup hphoto)
      rw [Option.map_some,Option.map_some]
      unfold rowPublication
      rw [hphotos,if_neg hold]

/-- A deleted post is retracted. -/
theorem publicationOf_deleted (tables : Tables) (postId : ℤ) (id : ℕ) :
    publicationOf (tables.deletePost postId) id=
      if (id : ℤ)=postId then none else publicationOf tables id := by
  have hposts : (tables.deletePost postId).posts.lookup id=
      (tables.posts.lookup id).filter fun row => !decide ((row.id : ℤ)=postId) :=
    lookup_deleteWhere _
  unfold publicationOf
  rw [hposts]
  cases hpost : tables.posts.lookup id with
  | none =>
    rw [Option.map_none,ite_self]
    rfl
  | some post =>
    rw [←(lookup_eq_some_iff.mp hpost).2]
    by_cases hid : (post.id : ℤ)=postId
    · rw [if_pos hid,Option.filter_some,if_neg (by simp [hid])]
      rfl
    · rw [if_neg hid,Option.filter_some,if_pos (by simp [hid])]
      rfl

/-- Pairs of a deleted post are gone. -/
theorem likedPairs_deleted (tables : Tables) (postId post user : ℤ) :
    (post,user) ∈ likedPairs (tables.deletePost postId) ↔
      post≠postId ∧ (post,user) ∈ likedPairs tables := by
  unfold likedPairs
  rw [List.mem_map,List.mem_map]
  constructor
  · rintro ⟨row,hrow,hpair⟩
    obtain ⟨hmem,hkept⟩ := mem_deleteWhere.mp hrow
    cases hpair
    exact ⟨of_decide_eq_false hkept,row,hmem,rfl⟩
  · rintro ⟨hne,row,hmem,hpair⟩
    cases hpair
    exact ⟨row,mem_deleteWhere.mpr ⟨hmem,decide_eq_false hne⟩,rfl⟩

/-- A click counts a post up or down. -/
theorem publicationOf_click (tables : Tables) (postId userId : ℤ) (id : ℕ) :
    publicationOf (click tables postId userId) id=
      if (id : ℤ)=postId then (publicationOf tables id).map fun publication =>
        {publication with
          likeCount :=
            clickedCount (decide ((postId,userId) ∈ likedPairs tables)) publication.likeCount}
      else publicationOf tables id := by
  have hcounted : ∀ change : Option ℤ → Option ℤ,
      ((tables.posts.updateAll (changeLikes postId change) (id_changeLikes postId change)).lookup
          id).map (rowPublication tables.postPhotos)=
        if (id : ℤ)=postId then (publicationOf tables id).map fun publication =>
          {publication with likeCount := change publication.likeCount}
        else publicationOf tables id := by
    intro change
    unfold publicationOf
    rw [lookup_updateAll]
    cases hpost : tables.posts.lookup id with
    | none =>
      rw [Option.map_none,Option.map_none,Option.map_none,ite_self]
    | some post =>
      rw [←(lookup_eq_some_iff.mp hpost).2,Option.map_some,Option.map_some,Option.map_some]
      unfold changeLikes
      by_cases hid : (post.id : ℤ)=postId
      · rw [if_pos hid,if_pos hid]
        rfl
      · rw [if_neg hid,if_neg hid]
  unfold click
  by_cases hliked : (postId,userId) ∈ likedPairs tables
  · rw [if_pos hliked,decide_eq_true hliked]
    exact hcounted oneLess
  · rw [if_neg hliked,decide_eq_false hliked]
    exact hcounted oneMore

/-- A click puts its pair in or takes it out. -/
theorem likedPairs_click (tables : Tables) (postId userId post user : ℤ) :
    decide ((post,user) ∈ likedPairs (click tables postId userId))=
      if post=postId ∧ user=userId then !decide ((postId,userId) ∈ likedPairs tables)
      else decide ((post,user) ∈ likedPairs tables) := by
  have hpair : (post,user)=(postId,userId) ↔ post=postId ∧ user=userId := Prod.mk.injEq .. ▸ Iff.rfl
  unfold click
  by_cases hliked : (postId,userId) ∈ likedPairs tables
  · rw [if_pos hliked,likedPairs_removeLike,decide_eq_true hliked]
    by_cases hself : post=postId ∧ user=userId
    · rw [if_pos hself,hpair.mpr hself]
      exact decide_eq_false fun hmem => by simpa using (List.mem_filter.mp hmem).2
    · rw [if_neg hself]
      refine decide_eq_decide.mpr ?_
      rw [List.mem_filter]
      exact and_iff_left (bne_iff_ne.mpr fun heq => hself (hpair.mp heq))
  · rw [if_neg hliked,likedPairs_addLike,decide_eq_false hliked]
    by_cases hself : post=postId ∧ user=userId
    · rw [if_pos hself,hpair.mpr hself]
      exact decide_eq_true (List.mem_append_right _ List.mem_cons_self)
    · rw [if_neg hself]
      refine decide_eq_decide.mpr ?_
      rw [List.mem_append,List.mem_singleton]
      exact or_iff_left fun heq => hself (hpair.mp heq)

/-- Every committed operation of the content server changes the network as it
says. -/
theorem refined_operated {dialect : Dialect} {circumstances : Circumstances} (h : Sound site)
    {op : DbOperation} {after : Tables}
    (heffected : Effected dialect circumstances site.store.content after op) :
    Refined site {site with store := {site.store with content := after}}
      (operationChanges dialect circumstances site.store.content op) := by
  have hsound : (∀ post ∈ after.posts.rows,∃ photo,after.postPhotos.lookup post.photoId=some photo) →
      Sound {site with store := {site.store with content := after}} :=
    fun hattached => ⟨h.present,h.unshared,h.begun,h.staged,hattached⟩
  cases op with
  | addNewPost userId propertyMap =>
    obtain ⟨user,huser,rfl⟩ := heffected
    unfold operationChanges
    dsimp only
    rw [huser]
    refine ⟨hsound fun post hpost => ?_,Network.ext rfl rfl ?_ rfl⟩
    · have hphotos : ∀ photoId,(site.store.content.postPhotos.insert
            ⟨site.store.content.postPhotos.next,field propertyMap (ascii "Content-Type"),
              field propertyMap (ascii "photo")⟩ rfl).lookup photoId=
          if photoId=site.store.content.postPhotos.next then _
          else site.store.content.postPhotos.lookup photoId := fun photoId => lookup_insert rfl
      rcases (mem_insert rfl).mp hpost with hold|rfl
      · obtain ⟨photo,hphoto⟩ := h.attached post hold
        exact ⟨photo,(hphotos _).trans ((if_neg (Nat.ne_of_lt (lt_next_of_lookup hphoto))).trans
          hphoto)⟩
      · exact ⟨_,(hphotos _).trans (if_pos rfl)⟩
    · funext id
      exact publicationOf_added h.attached _ _ user circumstances.now _ id
  | delPostById postId id =>
    obtain ⟨post,user,hpost,huser,_,rfl⟩ := heffected
    unfold operationChanges
    dsimp only
    rw [hpost]
    refine ⟨hsound fun kept hkept => h.attached kept (mem_deleteWhere.mp hkept).1,
      Network.ext rfl rfl ?_ ?_⟩
    · funext id
      exact publicationOf_deleted site.store.content post id
    · funext liked fan
      change decide ((liked,fan) ∈ _)=if liked=post then false else decide _
      by_cases hself : liked=post
      · rw [if_pos hself]
        exact decide_eq_false fun hmem => ((likedPairs_deleted _ _ _ _).mp hmem).1 hself
      · rw [if_neg hself]
        exact decide_eq_decide.mpr ((likedPairs_deleted _ _ _ _).trans (and_iff_right hself))
  | likeClicked postId userId =>
    obtain ⟨post,user,hpost,huser,rfl⟩ := heffected
    unfold operationChanges
    dsimp only
    rw [hpost,huser]
    refine ⟨hsound fun kept hkept => ?_,Network.ext rfl rfl ?_ ?_⟩
    · have hclicked : ∃ change : Option ℤ → Option ℤ,
          (click site.store.content post user).posts.rows=
            site.store.content.posts.rows.map (changeLikes post change) ∧
          (click site.store.content post user).postPhotos=site.store.content.postPhotos := by
        unfold click
        split
        · exact ⟨oneLess,rfl,rfl⟩
        · exact ⟨oneMore,rfl,rfl⟩
      obtain ⟨change,hposts,hphotos⟩ := hclicked
      rw [hposts] at hkept
      obtain ⟨before,hbefore,rfl⟩ := List.mem_map.mp hkept
      rw [hphotos,PostPhotos.photoId_changeLikes]
      exact h.attached before hbefore
    · funext id
      exact publicationOf_click site.store.content post user id
    · funext liked fan
      exact likedPairs_click site.store.content post user liked fan
  | getPostsList id limit offset => exact heffected.elim
  | getPostsListById authorId userId limit offset => exact heffected.elim
  | getPostPhotoById photoId => exact heffected.elim

end operations

section registrations

variable {site : Site} {accounts : Database} {userId : ℕ}

/-- A transaction that leaves the account of its user leaves the network. -/
theorem networkOf_stayed (hon : OnUser site accounts userId)
    (haccount : accountOf accounts userId=accountOf site.store.accounts userId) :
    networkOf {site.store with accounts := accounts}=networkOf site.store := by
  rw [networkOf_onUser hon,haccount,setAccount_self]

/-- A user who links to nothing holds what the registration has inserted. -/
theorem holds_unlinked {stage : Option Stage} {photoId : ℕ} (hnone : photoIdOf accounts userId=none)
    (hheld : Holds (site.staged accounts userId stage) userId photoId) :
    stage.bind Stage.photoId=some photoId := by
  rcases hheld with hlinked|hstaged
  · exact absurd (hnone.symm.trans hlinked) nofun
  · rwa [stagedPhoto_self] at hstaged

/-- The account of a user who links to nothing has no picture, whatever photos there are. -/
theorem accountOf_unlinked (h : Sound site) {stage : Stage}
    (hstage : site.registering userId=some stage) (husers : accounts.users=site.store.accounts.users) :
    accountOf accounts userId=accountOf site.store.accounts userId := by
  obtain ⟨user,huser,hnone⟩ := h.begun userId stage hstage
  unfold accountOf rowAccount
  rw [husers,huser,Option.map_some,Option.map_some,hnone]
  rfl

/-- A stage of a registration that leaves its user unlinked. -/
theorem refined_stage (h : Sound site) {before : Stage} (stage : Option Stage)
    (hstage : site.registering userId=some before)
    (husers : accounts.users=site.store.accounts.users)
    (hpictures : ∀ other photoId,other≠userId → Holds site other photoId →
      accounts.pictures.lookup photoId=site.store.accounts.pictures.lookup photoId)
    (hown : ∀ photoId,stage.bind Stage.photoId=some photoId →
      (∀ other,other≠userId → ¬Holds site other photoId) ∧
        ∃ picture,accounts.pictures.lookup photoId=some picture)
    (hform : ∀ userProperties binaryData photoId,
      stage=some (.pictured userProperties binaryData photoId) →
      accounts.pictures.lookup photoId=
        some ⟨photoId,property userProperties (ascii "photo_type"),binaryData⟩) :
    Refined site (site.staged accounts userId stage) [] := by
  have hon : OnUser site accounts userId := ⟨fun other _ => by rw [husers],hpictures⟩
  have hnone : photoIdOf accounts userId=none := by
    change (accounts.users.lookup userId).bind _=none
    rw [husers]
    exact h.unlinked hstage
  refine ⟨h.onUser hon (fun photoId hheld => hown photoId (holds_unlinked hnone hheld))
    (fun _ _ => ?_) hform,networkOf_stayed hon (accountOf_unlinked h hstage husers)⟩
  rw [husers]
  exact h.begun userId before hstage

/-- Nobody holds a photo that is not inserted yet. -/
theorem Sound.unheld (h : Sound site) (other : ℕ) :
    ¬Holds site other site.store.accounts.pictures.next := by
  intro hheld
  obtain ⟨picture,hpicture⟩ := h.present _ _ hheld
  exact absurd (lt_next_of_lookup hpicture) (Nat.lt_irrefl _)

/-- The first transaction of a registration opens an account. -/
theorem refined_inserted (h : Sound site) (userProperties : PropertyMap) (binaryData : Bytes)
    (hpictures : accounts.pictures=site.store.accounts.pictures)
    (husers : accounts.users=site.store.accounts.users.insert
      (registeredUser userProperties site.store.accounts.users.next) rfl) :
    Refined site
      (site.staged accounts site.store.accounts.users.next
        (some (.inserted userProperties binaryData)))
      [.registered site.store.accounts.users.next (openedAccount userProperties)] := by
  have hrows : ∀ id,accounts.users.lookup id=if id=site.store.accounts.users.next
      then some (registeredUser userProperties site.store.accounts.users.next)
      else site.store.accounts.users.lookup id :=
    fun id => (congrArg (Table.lookup · id) husers).trans (lookup_insert rfl)
  have hself := (hrows _).trans (if_pos rfl)
  have hon : OnUser site accounts site.store.accounts.users.next :=
    ⟨fun other hne => (hrows other).trans (if_neg hne),fun _ _ _ _ => by rw [hpictures]⟩
  refine ⟨h.onUser hon (fun photoId hheld => ?_) (fun _ _ => ⟨_,hself,rfl⟩) nofun,?_⟩
  · exact absurd (holds_unlinked (photoIdOf_lookup hself) hheld) nofun
  · refine (networkOf_onUser hon).trans (congrArg (Network.setAccount _ _) ?_)
    unfold accountOf
    rw [hself]
    rfl

/-- The second transaction of a registration inserts a photo nobody sees yet. -/
theorem refined_pictured (h : Sound site) {userProperties : PropertyMap} {binaryData : Bytes}
    (hstage : site.registering userId=some (.inserted userProperties binaryData)) :
    Refined site (site.staged (site.store.accounts.insertPicture
        ⟨site.store.accounts.pictures.next,property userProperties (ascii "photo_type"),binaryData⟩
        rfl) userId
      (some (.pictured userProperties binaryData site.store.accounts.pictures.next))) [] := by
  have hphotos : ∀ photoId,(site.store.accounts.pictures.insert
        ⟨site.store.accounts.pictures.next,property userProperties (ascii "photo_type"),binaryData⟩
        rfl).lookup photoId=
      if photoId=site.store.accounts.pictures.next then some ⟨site.store.accounts.pictures.next,
        property userProperties (ascii "photo_type"),binaryData⟩
      else site.store.accounts.pictures.lookup photoId := fun photoId => lookup_insert rfl
  refine refined_stage h _ hstage rfl (fun other photoId _ hheld => ?_) (fun photoId hown => ?_) ?_
  · refine (hphotos photoId).trans (if_neg ?_)
    rintro rfl
    exact h.unheld other hheld
  · cases hown
    exact ⟨fun other _ => h.unheld other,_,(hphotos _).trans (if_pos rfl)⟩
  · intro _ _ photoId heq
    cases heq
    exact (hphotos _).trans (if_pos rfl)

/-- The last transaction of a registration gives the account its picture. -/
theorem refined_connected (h : Sound site) {userProperties : PropertyMap} {binaryData : Bytes}
    {photoId : ℕ}
    (hstage : site.registering userId=some (.pictured userProperties binaryData photoId)) :
    Refined site (site.staged (site.store.accounts.setPhoto userId photoId) userId none)
      [.pictured userId ⟨photoId,property userProperties (ascii "photo_type"),binaryData⟩] := by
  have hrows : ∀ id,(site.store.accounts.setPhoto userId photoId).users.lookup id=if id=userId
      then (site.store.accounts.users.lookup id).map fun row => {row with photoId := some photoId}
      else site.store.accounts.users.lookup id := fun id =>
    lookup_update userId (fun row : UserRow => {row with photoId := some photoId}) fun _ => rfl
  have hon : OnUser site (site.store.accounts.setPhoto userId photoId) userId :=
    ⟨fun other hne => (hrows other).trans (if_neg hne),fun _ _ _ _ => rfl⟩
  obtain ⟨user,huser,_⟩ := h.begun userId _ hstage
  have hself : (site.store.accounts.setPhoto userId photoId).users.lookup userId=
      some {user with photoId := some photoId} := by
    rw [hrows,if_pos rfl,huser]
    rfl
  have hheld : Holds site userId photoId := Or.inr (congrArg (·.bind Stage.photoId) hstage)
  refine ⟨h.onUser hon (fun other hlinked => ?_) nofun nofun,?_⟩
  · rcases hlinked with hlinked|hstaged
    · cases (photoIdOf_lookup hself).symm.trans hlinked
      exact ⟨h.others hheld,h.present userId photoId hheld⟩
    · rw [stagedPhoto_self] at hstaged
      cases hstaged
  · have hkey : userKey userId site.store.accounts=userId := if_pos (Int.natCast_nonneg userId)
    refine (networkOf_onUser hon).trans ?_
    change _=(networkOf site.store).onAccount userId _
    rw [onAccount_userKey,hkey]
    refine congrArg (Network.setAccount _ _) ?_
    unfold accountOf
    rw [hself,huser,Option.map_some,Option.map_some,Option.map_some]
    refine congrArg some ?_
    unfold rowAccount
    rw [←h.staged userId userProperties binaryData photoId hstage]
    rfl

/-- A withdrawn user takes the account away. -/
theorem refined_removed (h : Sound site) (userId : ℕ) :
    Refined site (site.staged (site.store.accounts.deleteUser userId) userId none)
      [.withdrawn userId] := by
  have hon : OnUser site (site.store.accounts.deleteUser userId) userId :=
    ⟨fun other hne => (lookup_delete userId).trans (if_neg hne),fun _ _ _ _ => rfl⟩
  have hself : (site.store.accounts.deleteUser userId).users.lookup userId=none :=
    (lookup_delete userId).trans (if_pos rfl)
  have hnone : photoIdOf (site.store.accounts.deleteUser userId) userId=none :=
    congrArg (fun row : Option UserRow => row.bind UserRow.photoId) hself
  refine ⟨h.onUser hon (fun photoId hheld => ?_) nofun nofun,?_⟩
  · exact absurd (holds_unlinked hnone hheld) nofun
  · refine (networkOf_onUser hon).trans (congrArg (Network.setAccount _ _) ?_)
    unfold accountOf
    rw [hself]
    rfl

end registrations

section runs

variable {dialect : Dialect} {site next : Site} {move : Move}

/-- Every transaction keeps a site sound and changes the network by what it commits. -/
theorem moved_refined {changes : List Change} (h : Sound site)
    (hmoved : Moved dialect site move changes next) : Refined site next changes := by
  cases hmoved with
  | stayed => exact ⟨h,rfl⟩
  | wrote conditions call after hwritten => exact refined_written h hwritten
  | operated circumstances arrangement op after heffected => exact refined_operated h heffected
  | inserted userProperties binaryData after hpictures husers =>
    exact refined_inserted h userProperties binaryData hpictures husers
  | pictured userId userProperties binaryData hstage => exact refined_pictured h hstage
  | unpictured userId userProperties binaryData hstage =>
    exact refined_stage h _ hstage rfl (fun _ _ _ _ => rfl) nofun nofun
  | connected userId userProperties binaryData photoId hstage => exact refined_connected h hstage
  | unconnected userId userProperties binaryData photoId hstage =>
    have hheld : Holds site userId photoId := Or.inr (congrArg (·.bind Stage.photoId) hstage)
    refine refined_stage h _ hstage rfl (fun _ _ _ _ => rfl) (fun other hown => ?_) nofun
    cases hown
    exact ⟨h.others hheld,h.present userId photoId hheld⟩
  | unphotographed broken userId photoId hstage =>
    have hheld : Holds site userId photoId := Or.inr (congrArg (·.bind Stage.photoId) hstage)
    refine refined_stage h _ hstage (by split <;> rfl) (fun other kept hne hkept => ?_) nofun nofun
    split
    · rfl
    · refine (lookup_delete photoId).trans (if_neg ?_)
      rintro rfl
      exact h.others hheld other hne hkept
  | removed userId hstage => exact refined_removed h userId
  | abandoned userId hstage =>
    exact refined_stage h _ hstage rfl (fun _ _ _ _ => rfl) nofun nofun

/-- Every step keeps a site sound and changes the network by what it commits. -/
theorem step_refined (h : Sound site) (hstep : step dialect site move=some next) :
    Refined site next (committed dialect site move) := moved_refined h (step_moved hstep)

/-- Changes that a run commits. -/
def committedBy (dialect : Dialect) (site : Site) (schedule : List Move) : List Change :=
  ledger (step dialect) (committed dialect) site schedule

/-- Every run keeps a site sound. -/
theorem run_sound {final : Site} {schedule : List Move} (h : Sound site)
    (hrun : run (step dialect) site schedule=some final) : Sound final :=
  run_invariant (fun _ _ _ hsound _ hstep => (step_refined hsound hstep).sound) h
    (eachMeets_always (fun _ _ => trivial) site schedule) hrun

/-- Wherever the transactions of both servers lead, the tables stand for the
network that the committed changes make. -/
theorem run_refined {final : Site} {schedule : List Move} (h : Sound site)
    (hrun : run (step dialect) site schedule=some final) :
    networkOf final.store=(networkOf site.store).replay (committedBy dialect site schedule) :=
  run_ledger (fun _ _ _ hsound hstep => (step_refined hsound hstep).sound)
    (fun _ _ _ hsound hstep => (step_refined hsound hstep).network) h hrun

end runs

section tables

/-- Wherever the transactions of both servers lead from empty tables, in any
order and whatever breaks down: the tables stand for the network that the
committed changes make, each linked photo is in its table, and no two users
share one. -/
theorem tables_stand_for_changes {dialect : Dialect} {final : Site} {schedule : List Move}
    (hrun : run (step dialect) (Site.opened emptyStore) schedule=some final) :
    networkOf final.store=
        Network.empty.replay (committedBy dialect (Site.opened emptyStore) schedule) ∧
      Sound final :=
  ⟨run_refined sound_empty hrun,run_sound sound_empty hrun⟩

/-- Text in ASCII, and decimal numerals. -/
def plainDialect : Dialect where
  upper := AuthLogin.upperAscii
  like := UserSearch.asciiTexts.like
  timestampText := HttpReader.numeral
  readBigint text := (HttpReader.readNumeral text).map Int.ofNat
  readInteger text := (HttpReader.readNumeral text).map Int.ofNat
  readBoolean text :=
    if text=ascii "t" then some true else if text=ascii "f" then some false else none
  verify := AuthPhotos.verifyHash

/-- A call that does not break down. -/
def intact : Conditions :=
  ⟨⟨false,false,false,false,false⟩,false,PostPhotos.healthy,PagedQuery.Arrangement.ofSort unordered⟩

/-- A user registers while another one's registration fails and is undone. -/
def registrations : List Move :=
  [.addProperties false AuthPhotos.namedForm (ascii "first"),.addNewPhoto false 1,
    .addProperties false AuthPhotos.secondForm (ascii "other"),.addNewPhoto true 2,
    .connectPropertiesAndPhoto false 1,.deleteRow false 2]

/-- The user publishes a post, likes it, and replaces the photo. -/
def activities : List Move :=
  [.operation PostPhotos.healthy (PagedQuery.Arrangement.ofSort latestFirst)
      (.addNewPost (ascii "1") PostPhotos.photoForm),
    .operation PostPhotos.healthy (PagedQuery.Arrangement.ofSort latestFirst)
      (.likeClicked (ascii "1") (ascii "1")),
    .call intact (.updateProfilePhoto ⟨[],.updateProfilePhoto,.null,[],AuthPhotos.namedForm,∅,
      ascii "second"⟩ (ascii "1")),
    .call intact (.makeFriend (ascii "1") (ascii "2"))]

/-- The user is left with the second photo and the liked post, and the other
one is gone. -/
theorem tables_stand_for_changes_sample :
    ∃ final,run (step plainDialect) (Site.opened emptyStore) (registrations++activities)=some final ∧
      networkOf final.store=Network.empty.replay
        (committedBy plainDialect (Site.opened emptyStore) (registrations++activities)) ∧
      ((networkOf final.store).accounts 1).bind Account.picture=
        some ⟨1,ascii "image/png",ascii "second"⟩ ∧
      (networkOf final.store).accounts 2=none ∧ (networkOf final.store).likes 1 1=true := by
  have hmap : (run (step plainDialect) (Site.opened emptyStore) (registrations++activities)).map
      (fun final => (((networkOf final.store).accounts 1).bind Account.picture,
        (networkOf final.store).accounts 2,(networkOf final.store).likes 1 1))=
      some (some ⟨1,ascii "image/png",ascii "second"⟩,none,true) := by
    decide +kernel
  obtain ⟨final,hrun,hseen⟩ := Option.map_eq_some_iff.mp hmap
  obtain ⟨hpicture,hrest⟩ := Prod.mk.inj hseen
  obtain ⟨hother,hlikes⟩ := Prod.mk.inj hrest
  exact ⟨final,hrun,(tables_stand_for_changes hrun).1,hpicture,hother,hlikes⟩

end tables

end Photogram.StoreNetwork
