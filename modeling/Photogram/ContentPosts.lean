import Photogram.ContentConnection
import Photogram.ContentLikes

/-!
# Database client of the content server

DBclient.cpp over the tables of posts, likes and photos, one call after the
other. Each call is one transaction of several statements. A statement or the
commit may fail, and so does a statement whose text parameter is no integer;
a transaction that fails leaves the tables as they were, unless the answer to
its commit was lost. The calls raise one text for every error, but for the
post that does not belong to the caller.
-/

namespace Photogram.ContentPosts

open CxxString JsonValue RowTable FormDataParser ContentConnection ContentLikes

/-- Row of posts. -/
structure Post where
  /-- Key of the post. -/
  id : ℕ
  /-- Its owner. -/
  userId : ℤ
  /-- When it was posted. -/
  datePosted : ℕ
  /-- Its description. -/
  postDescription : Bytes
  /-- Number of its likes; null for a post that never had one. -/
  likeCount : Option ℤ
  /-- Key of its photo. -/
  photoId : ℕ
  deriving DecidableEq

/-- Row of likes, with an identity the statements do not see. -/
structure Like where
  /-- Identity of the row. -/
  id : ℕ
  /-- The post. -/
  postId : ℤ
  /-- Who likes it. -/
  userId : ℤ
  deriving DecidableEq

/-- Row of post_photos. -/
structure PostPhoto where
  /-- Key of the photo. -/
  id : ℕ
  /-- Its type. -/
  photoType : Bytes
  /-- Its bytes. -/
  photo : Bytes
  deriving DecidableEq

/-- The tables. -/
structure Tables where
  /-- The posts. -/
  posts : Table Post.id
  /-- The likes. -/
  likes : Table Like.id
  /-- The photos. -/
  postPhotos : Table PostPhoto.id

/-- How the database treats a call. -/
structure Circumstances where
  /-- Exception of opening the client, if it fails. -/
  connect : Option CxxException
  /-- Exceptions of the statements by their number, for those that fail; the
  number zero stands for preparing them and opening the transaction. -/
  fault : ℕ → Option CxxException
  /-- Exception of the commit, if it raises, and whether its writes are kept. -/
  commit : Option (CxxException×Bool)
  /-- Local time. -/
  now : ℕ

/-- Nothing fails. -/
structure Circumstances.Healthy (circumstances : Circumstances) : Prop where
  /-- No statement fails. -/
  fault : ∀ number,circumstances.fault number=none
  /-- The commit does not raise. -/
  commit : circumstances.commit=none

/-- The error every failure is turned into. -/
def serverError : CxxException := .runtimeError "500"

/-- The error of a post that does not belong to the caller. -/
def badRequestError : CxxException := .runtimeError "400"

/-- An operation that raises, if there is an exception. -/
def raise? : Option CxxException → Except CxxException Unit
  | some e => .error e
  | none => .ok ()

section operations

variable (readInteger : Bytes → Option ℤ) (circumstances : Circumstances)

/-- Run the statement of a number. -/
def statement (number : ℕ) : Except CxxException Unit := raise? (circumstances.fault number)

/-- Value of a text parameter of an integer column. -/
def integer (text : Bytes) : Except CxxException ℤ :=
  match readInteger text with
  | some value => .ok value
  | none => .error (.runtimeError "invalid input syntax for type integer")

/-- End a transaction: commit what it wrote, or roll it back. -/
def finish (tables : Tables) : Except CxxException Tables → Except CxxException Unit×Tables
  | .error e => (.error e,tables)
  | .ok written =>
    match circumstances.commit with
    | none => (.ok (),written)
    | some (e,kept) => (.error e,if kept then written else tables)

/-- Delete a post and its likes. -/
def Tables.deletePost (tables : Tables) (postId : ℤ) : Tables :=
  {tables with
    likes := tables.likes.deleteWhere fun row => row.postId=postId,
    posts := tables.posts.deleteWhere fun row => row.id=postId}

/-- Statements of delPostById. -/
def delPostByIdWork (postId id : Bytes) (tables : Tables) : Except CxxException Tables := do
  statement circumstances 0
  statement circumstances 1
  let post ← integer readInteger postId
  let user ← integer readInteger id
  if tables.posts.rows.any fun row => row.id=post ∧ row.userId=user then
    statement circumstances 2
    statement circumstances 3
    return tables.deletePost post
  else throw (.runtimeError "Bad request")

/-- Delete a post of a user. -/
def delPostById (postId id : Bytes) (tables : Tables) : Except CxxException Unit×Tables :=
  let ended := finish circumstances tables
    (delPostByIdWork readInteger circumstances postId id tables)
  match ended.1 with
  | .ok _ => ended
  | .error e => (.error (if e=.runtimeError "Bad request" then badRequestError else serverError),
      ended.2)

/-- A deletion leaves what its transaction leaves. -/
theorem delPostById_ended (postId id : Bytes) (tables : Tables) :
    (delPostById readInteger circumstances postId id tables).2=
      (finish circumstances tables
        (delPostByIdWork readInteger circumstances postId id tables)).2 := by
  unfold delPostById
  dsimp only
  split <;> rfl

/-- Delete a photo. The text of the statement runs into post_photosWHERE, and
the statement that is executed was never prepared, so that the call always fails. -/
def delPostPhotoById (_photoId : ℕ) (tables : Tables) : Except CxxException Unit×Tables :=
  (.error serverError,tables)

/-- Insert a photo. -/
def Tables.addPhoto (tables : Tables) (photoType photo : Bytes) : Tables :=
  {tables with postPhotos := tables.postPhotos.insert ⟨tables.postPhotos.next,photoType,photo⟩ rfl}

/-- Insert a post. -/
def Tables.addPost (tables : Tables) (userId : ℤ) (datePosted : ℕ) (postDescription : Bytes)
    (photoId : ℕ) : Tables :=
  {tables with
    posts := tables.posts.insert
      ⟨tables.posts.next,userId,datePosted,postDescription,none,photoId⟩ rfl}

/-- Field of a form; an absent one reads as the empty string. -/
def field (propertyMap : FieldMap) (key : Bytes) : Bytes := propertyMap.getD key []

/-- Insert the photo of a form. -/
def addNewPostPhoto (propertyMap : FieldMap) (tables : Tables) : Except CxxException Tables := do
  statement circumstances 0
  statement circumstances 1
  return tables.addPhoto (field propertyMap (ascii "Content-Type")) (field propertyMap (ascii "photo"))

/-- Insert the post of a form, with the photo inserted before. -/
def addNewPostInformation (userId : Bytes) (propertyMap : FieldMap) (photoId : ℕ) (tables : Tables) :
    Except CxxException Tables := do
  statement circumstances 2
  let user ← integer readInteger userId
  return tables.addPost user circumstances.now (field propertyMap (ascii "description")) photoId

/-- Add a post with its photo. Behind the insertion of the photo an error
deletes the photo once more, which fails in turn. -/
def addNewPost (userId : Bytes) (propertyMap : FieldMap) (tables : Tables) :
    Except CxxException Unit×Tables :=
  match addNewPostPhoto circumstances propertyMap tables with
  | .error _ => (.error serverError,tables)
  | .ok withPhoto =>
    let photoId := tables.postPhotos.next
    let ended := finish circumstances tables
      (addNewPostInformation readInteger circumstances userId propertyMap photoId withPhoto)
    match ended.1 with
    | .ok _ => ended
    | .error _ =>
      let cleaned := delPostPhotoById photoId ended.2
      match cleaned.1 with
      | .ok _ => (.error serverError,cleaned.2)
      | .error e => (.error e,cleaned.2)

/-- Change the number of likes of a post. -/
def changeLikes (postId : ℤ) (change : Option ℤ → Option ℤ) (row : Post) : Post :=
  if row.id=postId then {row with likeCount := change row.likeCount} else row

/-- A changed number of likes leaves the key of a post. -/
theorem id_changeLikes (postId : ℤ) (change : Option ℤ → Option ℤ) (row : Post) :
    (changeLikes postId change row).id=row.id := by
  unfold changeLikes
  split <;> rfl

/-- Add a like. -/
def Tables.addLike (tables : Tables) (postId userId : ℤ) : Tables :=
  {tables with
    likes := tables.likes.insert ⟨tables.likes.next,postId,userId⟩ rfl,
    posts := tables.posts.updateAll (changeLikes postId oneMore) (id_changeLikes postId oneMore)}

/-- Take the likes of a user from a post. -/
def Tables.removeLike (tables : Tables) (postId userId : ℤ) : Tables :=
  {tables with
    likes := tables.likes.deleteWhere fun row => row.postId=postId ∧ row.userId=userId,
    posts := tables.posts.updateAll (changeLikes postId oneLess) (id_changeLikes postId oneLess)}

/-- Statements of likeClicked. -/
def likeClickedWork (postId userId : Bytes) (tables : Tables) : Except CxxException Tables := do
  statement circumstances 0
  statement circumstances 1
  let post ← integer readInteger postId
  let user ← integer readInteger userId
  statement circumstances 2
  statement circumstances 3
  if tables.likes.rows.any fun row => row.postId=post ∧ row.userId=user then
    return tables.removeLike post user
  else return tables.addLike post user

/-- Like a post, or take the like back. -/
def likeClicked (postId userId : Bytes) (tables : Tables) : Except CxxException Unit×Tables :=
  let ended := finish circumstances tables
    (likeClickedWork readInteger circumstances postId userId tables)
  match ended.1 with
  | .ok _ => ended
  | .error _ => (.error serverError,ended.2)

/-- A click leaves what its transaction leaves. -/
theorem likeClicked_ended (postId userId : Bytes) (tables : Tables) :
    (likeClicked readInteger circumstances postId userId tables).2=
      (finish circumstances tables
        (likeClickedWork readInteger circumstances postId userId tables)).2 := by
  unfold likeClicked
  dsimp only
  split <;> rfl

/-- The photo of a key, as its only row. -/
def getPostPhotoByIdWork (photoId : Bytes) (tables : Tables) :
    Except CxxException (Bytes×Bytes) := do
  statement circumstances 0
  statement circumstances 1
  let photo ← integer readInteger photoId
  raise? (circumstances.commit.map Prod.fst)
  match tables.postPhotos.rows.filter fun row => row.id=photo with
  | [row] => return (row.photoType,row.photo)
  | _ => throw (.runtimeError "unexpected number of rows")

/-- Read a photo. -/
def getPostPhotoById (photoId : Bytes) (tables : Tables) : Except CxxException (Bytes×Bytes) :=
  (getPostPhotoByIdWork readInteger circumstances photoId tables).mapError fun _ => serverError

/-- The operations of the client on the tables; the texts of the lists are
joined with tables this server only reads. -/
def operateTables (lists : DbOperation → Tables → Except CxxException Json) :
    (op : DbOperation) → Tables → Except CxxException op.Answer×Tables
  | .getPostsList id limit offset,tables => (lists (.getPostsList id limit offset) tables,tables)
  | .getPostsListById authorId userId limit offset,tables =>
    (lists (.getPostsListById authorId userId limit offset) tables,tables)
  | .getPostPhotoById photoId,tables =>
    (getPostPhotoById readInteger circumstances photoId tables,tables)
  | .addNewPost userId propertyMap,tables =>
    addNewPost readInteger circumstances userId propertyMap tables
  | .delPostById postId id,tables => delPostById readInteger circumstances postId id tables
  | .likeClicked postId userId,tables => likeClicked readInteger circumstances postId userId tables

/-- What an operation that takes effect does to the tables: add a post with
its photo, delete a post of the caller, or add or remove likes of the caller. -/
def TakesEffect (tables after : Tables) : DbOperation → Prop
  | .addNewPost userId propertyMap => ∃ user,readInteger userId=some user ∧
      after=(tables.addPhoto (field propertyMap (ascii "Content-Type"))
        (field propertyMap (ascii "photo"))).addPost user circumstances.now
          (field propertyMap (ascii "description")) tables.postPhotos.next
  | .delPostById postId id => ∃ post user,readInteger postId=some post ∧ readInteger id=some user ∧
      (∃ row ∈ tables.posts.rows,(row.id : ℤ)=post ∧ row.userId=user) ∧
      after=tables.deletePost post
  | .likeClicked postId userId => ∃ post user,readInteger userId=some user ∧
      readInteger postId=some post ∧
      (after=tables.addLike post user ∨ after=tables.removeLike post user)
  | _ => False

/-- A transaction ends with the tables it found or with those it wrote. -/
theorem finish_cases (tables : Tables) (result : Except CxxException Tables) :
    (finish circumstances tables result).2=tables ∨
      result=.ok (finish circumstances tables result).2 := by
  unfold finish
  cases result with
  | error e => exact Or.inl rfl
  | ok written =>
    cases circumstances.commit with
    | none => exact Or.inr rfl
    | some raised =>
      obtain ⟨e,kept⟩ := raised
      cases kept with
      | false => exact Or.inl rfl
      | true => exact Or.inr rfl

/-- A sequence of raising calls that returns went through its first part. -/
theorem except_bind_ok {α β : Type} {first : Except CxxException α}
    {rest : α → Except CxxException β} {value : β} (h : (first>>=rest)=.ok value) :
    ∃ head,first=.ok head ∧ rest head=.ok value := by
  cases first with
  | error e => cases h
  | ok head => exact ⟨head,rfl,h⟩

/-- A text is read as an integer. -/
theorem integer_ok {text : Bytes} {value : ℤ} (h : integer readInteger text=.ok value) :
    readInteger text=some value := by
  unfold integer at h
  split at h
  · next found hread =>
    cases h
    exact hread
  · cases h

/-- The statements of delPostById that succeed delete a post of the caller. -/
theorem delPostByIdWork_ok {postId id : Bytes} {tables after : Tables}
    (h : delPostByIdWork readInteger circumstances postId id tables=.ok after) :
    TakesEffect readInteger circumstances tables after (.delPostById postId id) := by
  obtain ⟨_,_,h⟩ := except_bind_ok h
  obtain ⟨_,_,h⟩ := except_bind_ok h
  obtain ⟨post,hpost,h⟩ := except_bind_ok h
  obtain ⟨user,huser,h⟩ := except_bind_ok h
  split at h
  · next hown =>
    obtain ⟨_,_,h⟩ := except_bind_ok h
    obtain ⟨_,_,h⟩ := except_bind_ok h
    cases h
    obtain ⟨row,hmem,hrow⟩ := List.any_eq_true.mp hown
    exact ⟨post,user,integer_ok readInteger hpost,integer_ok readInteger huser,
      ⟨row,hmem,by simpa using hrow⟩,rfl⟩
  · cases h

/-- The statements of likeClicked that succeed add or remove likes of the caller. -/
theorem likeClickedWork_ok {postId userId : Bytes} {tables after : Tables}
    (h : likeClickedWork readInteger circumstances postId userId tables=.ok after) :
    TakesEffect readInteger circumstances tables after (.likeClicked postId userId) := by
  obtain ⟨_,_,h⟩ := except_bind_ok h
  obtain ⟨_,_,h⟩ := except_bind_ok h
  obtain ⟨post,hpost,h⟩ := except_bind_ok h
  obtain ⟨user,huser,h⟩ := except_bind_ok h
  obtain ⟨_,_,h⟩ := except_bind_ok h
  obtain ⟨_,_,h⟩ := except_bind_ok h
  refine ⟨post,user,integer_ok readInteger huser,integer_ok readInteger hpost,?_⟩
  split at h
  · cases h
    exact Or.inr rfl
  · cases h
    exact Or.inl rfl

/-- The statements of addNewPost that succeed add a post with its photo. -/
theorem addNewPostWork_ok {userId : Bytes} {propertyMap : FieldMap}
    {tables withPhoto after : Tables}
    (hphoto : addNewPostPhoto circumstances propertyMap tables=.ok withPhoto)
    (h : addNewPostInformation readInteger circumstances userId propertyMap
      tables.postPhotos.next withPhoto=.ok after) :
    TakesEffect readInteger circumstances tables after (.addNewPost userId propertyMap) := by
  obtain ⟨_,_,hphoto⟩ := except_bind_ok hphoto
  obtain ⟨_,_,hphoto⟩ := except_bind_ok hphoto
  cases hphoto
  obtain ⟨_,_,h⟩ := except_bind_ok h
  obtain ⟨user,huser,h⟩ := except_bind_ok h
  cases h
  exact ⟨user,integer_ok readInteger huser,rfl⟩

/-- Every operation leaves the tables as they were or takes effect, whether
it returns or raises. -/
theorem operateTables_cases (lists : DbOperation → Tables → Except CxxException Json)
    (op : DbOperation) (tables : Tables) :
    (operateTables readInteger circumstances lists op tables).2=tables ∨
      TakesEffect readInteger circumstances tables
        (operateTables readInteger circumstances lists op tables).2 op := by
  cases op with
  | getPostsList id limit offset => exact Or.inl rfl
  | getPostsListById authorId userId limit offset => exact Or.inl rfl
  | getPostPhotoById photoId => exact Or.inl rfl
  | addNewPost userId propertyMap =>
    change (addNewPost readInteger circumstances userId propertyMap tables).2=tables ∨
      TakesEffect readInteger circumstances tables
        (addNewPost readInteger circumstances userId propertyMap tables).2 _
    unfold addNewPost
    cases hphoto : addNewPostPhoto circumstances propertyMap tables with
    | error e => exact Or.inl rfl
    | ok withPhoto =>
      dsimp only
      have hended : ∀ ended : Except CxxException Unit×Tables,
          (match ended.1 with
            | .ok _ => ended
            | .error _ =>
              match (delPostPhotoById tables.postPhotos.next ended.2).1 with
              | .ok _ => (.error serverError,
                  (delPostPhotoById tables.postPhotos.next ended.2).2)
              | .error e => (.error e,
                  (delPostPhotoById tables.postPhotos.next ended.2).2)).2=ended.2 := by
        rintro ⟨outcome,after⟩
        cases outcome <;> rfl
      rw [hended]
      exact (finish_cases circumstances tables _).imp_right
        (addNewPostWork_ok readInteger circumstances hphoto)
  | delPostById postId id =>
    change (delPostById readInteger circumstances postId id tables).2=tables ∨
      TakesEffect readInteger circumstances tables
        (delPostById readInteger circumstances postId id tables).2 _
    rw [delPostById_ended]
    exact (finish_cases circumstances tables _).imp_right
      (delPostByIdWork_ok readInteger circumstances)
  | likeClicked postId userId =>
    change (likeClicked readInteger circumstances postId userId tables).2=tables ∨
      TakesEffect readInteger circumstances tables
        (likeClicked readInteger circumstances postId userId tables).2 _
    rw [likeClicked_ended]
    exact (finish_cases circumstances tables _).imp_right
      (likeClickedWork_ok readInteger circumstances)

end operations

end Photogram.ContentPosts
