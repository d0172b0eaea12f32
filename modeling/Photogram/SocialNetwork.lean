import Mathlib.Logic.Function.Basic
import Photogram.AuthDatabase
import Photogram.ContentPosts

/-!
# The network the tables stand for

Accounts with their pictures, who befriended whom, published posts with their
photos and who likes them. A network knows neither rows nor links between
tables, and changes by one thing at a time.
-/

namespace Photogram.SocialNetwork

open CxxString AuthDatabase ContentLikes ContentPosts

/-- An account. -/
@[ext]
structure Account where
  /-- Nickname. -/
  nickname : Bytes
  /-- First name. -/
  firstName : Bytes
  /-- Last name. -/
  lastName : Bytes
  /-- Email. -/
  email : Bytes
  /-- Text of a truth value. -/
  isMale : Bytes
  /-- Text of a date. -/
  birthdate : Bytes
  /-- Password hash. -/
  password : Bytes
  /-- The picture, once there is one. -/
  picture : Option PictureRow
  deriving DecidableEq

/-- A published post. -/
@[ext]
structure Publication where
  /-- Who published it. -/
  owner : ℤ
  /-- When it was published. -/
  datePosted : ℕ
  /-- Its description. -/
  description : Bytes
  /-- Number of its likes; null before the first one. -/
  likeCount : Option ℤ
  /-- Its photo. -/
  photo : Option PostPhoto
  deriving DecidableEq

/-- Accounts, friends, posts and likes. -/
@[ext]
structure Network where
  /-- The account of a key. -/
  accounts : ℕ → Option Account
  /-- A user has a friend. -/
  friends : ℤ → ℤ → Bool
  /-- The post of a key. -/
  publications : ℕ → Option Publication
  /-- A post is liked by a user. -/
  likes : ℤ → ℤ → Bool

/-- Nothing yet. -/
def Network.empty : Network := ⟨fun _ => none,fun _ _ => false,fun _ => none,fun _ _ => false⟩

/-- What can happen to a network. -/
inductive Change where
  /-- A new account. -/
  | registered (userId : ℕ) (account : Account)
  /-- An account gets its first picture. -/
  | pictured (userId : ℕ) (picture : PictureRow)
  /-- A failed registration takes its account back. -/
  | withdrawn (userId : ℕ)
  /-- Another picture, for an account that has one. -/
  | replacedPicture (userId : ℤ) (photoType photo : Bytes)
  /-- Another profile. -/
  | replacedProfile (userId : ℤ) (profile : ProfileUpdate)
  /-- Another password. -/
  | replacedPassword (userId : ℤ) (password : Bytes)
  /-- A user has a friend. -/
  | befriended (userId friendId : ℤ)
  /-- A user has a friend no more. -/
  | unfriended (userId friendId : ℤ)
  /-- A new post. -/
  | published (postId : ℕ) (publication : Publication)
  /-- A post is gone, and its likes. -/
  | retracted (postId : ℤ)
  /-- A user likes a post, or takes the like back. -/
  | clicked (postId userId : ℤ)

/-- Columns of an account under another profile. -/
def Account.withProfile (account : Account) (profile : ProfileUpdate) : Account :=
  {account with
    nickname := profile.nickname,
    firstName := profile.firstName,
    lastName := profile.lastName,
    email := profile.email,
    isMale := boolText profile.isMale,
    birthdate := profile.birthdate}

/-- A picture with other bytes keeps its key. -/
def Account.withPhoto (account : Account) (photoType photo : Bytes) : Account :=
  {account with
    picture := account.picture.map fun row => {row with photoType := photoType,photo := photo}}

/-- Change the account of a key, if there is one. -/
def Network.onAccount (network : Network) (userId : ℤ) (change : Account → Account) : Network :=
  {network with
    accounts := fun id =>
      if (id : ℤ)=userId then (network.accounts id).map change else network.accounts id}

/-- Open the account of a key, or close it. -/
def Network.setAccount (network : Network) (userId : ℕ) (account : Option Account) : Network :=
  {network with accounts := Function.update network.accounts userId account}

/-- Replace who the friends of a user are. -/
def Network.setFriend (network : Network) (userId friendId : ℤ) (status : Bool) : Network :=
  {network with
    friends := fun user friend =>
      if user=userId ∧ friend=friendId then status else network.friends user friend}

/-- Number of likes behind a click. -/
def clickedCount (liked : Bool) : Option ℤ → Option ℤ := if liked then oneLess else oneMore

/-- A network behind a change. -/
def Network.after (network : Network) : Change → Network
  | .registered userId account => network.setAccount userId (some account)
  | .pictured userId picture =>
    network.onAccount userId fun account => {account with picture := some picture}
  | .withdrawn userId => network.setAccount userId none
  | .replacedPicture userId photoType photo =>
    network.onAccount userId fun account => account.withPhoto photoType photo
  | .replacedProfile userId profile =>
    network.onAccount userId fun account => account.withProfile profile
  | .replacedPassword userId password =>
    network.onAccount userId fun account => {account with password := password}
  | .befriended userId friendId => network.setFriend userId friendId true
  | .unfriended userId friendId => network.setFriend userId friendId false
  | .published postId publication =>
    {network with publications := Function.update network.publications postId (some publication)}
  | .retracted postId =>
    {network with
      publications := fun id => if (id : ℤ)=postId then none else network.publications id,
      likes := fun post user => if post=postId then false else network.likes post user}
  | .clicked postId userId =>
    {network with
      publications := fun id =>
        if (id : ℤ)=postId then (network.publications id).map fun publication =>
          {publication with
            likeCount := clickedCount (network.likes postId userId) publication.likeCount}
        else network.publications id,
      likes := fun post user =>
        if post=postId ∧ user=userId then !network.likes postId userId
        else network.likes post user}

/-- A network behind changes. -/
def Network.replay (network : Network) (changes : List Change) : Network :=
  changes.foldl Network.after network

end Photogram.SocialNetwork
