import Mathlib.Data.Fintype.Defs
import Mathlib.Logic.Function.Basic
import Photogram.RowTable
import Photogram.Schedule

/-!
# Likes of the content server

DBclient::likeClicked. A click is a transaction of a check and two writes:
the likes row, and the number of likes kept with the post. Any number of
clicks run at once, each of their statements seeing the rows committed when
it starts. A row changed by a transaction stays locked until that transaction
ends; a delete that waited skips a row that is gone. A transaction may fail at
any point, and then leaves nothing.
-/

namespace Photogram.ContentLikes

open RowTable Schedule

/-- Row of posts, with the column the clicks use. -/
structure PostRow where
  /-- Key of the post. -/
  id : ℕ
  /-- Number of its likes; null for a post that never had one. -/
  likeCount : Option ℤ
  deriving DecidableEq

/-- Row of likes, with an identity the statements do not see. -/
structure LikeRow where
  /-- Identity of the row. -/
  id : ℕ
  /-- The post. -/
  postId : ℕ
  /-- Who likes it. -/
  userId : ℕ
  deriving DecidableEq

/-- The committed tables. -/
structure Committed where
  /-- The posts. -/
  posts : Table PostRow.id
  /-- The likes. -/
  likes : Table LikeRow.id

/-- The statement a call runs next. -/
inductive Stage where
  /-- The transaction is not open yet. -/
  | start
  | isExists
  | addLikeFirst
  | addLikeSecond
  | delLikeFirst
  /-- The delete is under way, with the rows it still has to visit. -/
  | deleting (rows : List LikeRow)
  | delLikeSecond
  | commit
  /-- The transaction is committed. -/
  | done
  /-- The transaction is rolled back. -/
  | failed
  deriving DecidableEq

/-- Writes of an open transaction. -/
structure Writes where
  /-- A likes row is inserted. -/
  inserted : Bool
  /-- Likes rows it deleted, which it keeps locked. -/
  removed : List LikeRow
  /-- New like_count of its post, whose row it keeps locked. -/
  likeCount : Option (Option ℤ)
  deriving DecidableEq

/-- No writes. -/
def noWrites : Writes := ⟨false,[],none⟩

/-- A call of likeClicked. -/
structure LikeClicked where
  /-- The clicked post. -/
  postId : ℕ
  /-- The clicking user. -/
  userId : ℕ
  /-- Next statement. -/
  stage : Stage
  /-- Writes so far. -/
  writes : Writes
  deriving DecidableEq

/-- The database with the calls running on it. -/
structure Server (ι : Type) where
  /-- Committed rows. -/
  committed : Committed
  /-- The calls. -/
  calls : ι → LikeClicked

/-- What happens next to a call. -/
inductive Move (ι : Type) where
  /-- It runs its next statement, or visits the next row of its delete. -/
  | proceed (call : ι)
  /-- It fails. -/
  | fail (call : ι)
  deriving DecidableEq

/-- Likes rows of a post and a user. -/
def matching (committed : Committed) (postId userId : ℕ) : List LikeRow :=
  committed.likes.rows.filter fun row => row.postId=postId ∧ row.userId=userId

/-- Posts row of a post. -/
def postRow (committed : Committed) (postId : ℕ) : Option PostRow :=
  committed.posts.rows.find? fun row => row.id=postId

/-- Commit the insertion of a likes row. -/
def Committed.addLike (committed : Committed) (postId userId : ℕ) : Committed :=
  {committed with
    likes := committed.likes.insert ⟨committed.likes.next,postId,userId⟩ rfl}

/-- Commit a new like_count. -/
def Committed.setLikeCount (committed : Committed) (postId : ℕ) (likeCount : Option ℤ) : Committed :=
  {committed with
    posts := committed.posts.update postId (fun row => {row with likeCount := likeCount})
      fun _ => rfl}

/-- Commit the deletion of a likes row. -/
def Committed.removeLike (committed : Committed) (row : LikeRow) : Committed :=
  {committed with likes := committed.likes.delete row.id}

/-- Commit a new like_count, if one was written. -/
def Committed.writeLikeCount (committed : Committed) (postId : ℕ) :
    Option (Option ℤ) → Committed
  | some likeCount => committed.setLikeCount postId likeCount
  | none => committed

/-- Commit the writes of a call. -/
def LikeClicked.apply (call : LikeClicked) (committed : Committed) : Committed :=
  let deleted := call.writes.removed.foldl Committed.removeLike committed
  let added := if call.writes.inserted then deleted.addLike call.postId call.userId else deleted
  added.writeLikeCount call.postId call.writes.likeCount

/-- COALESCE(like_count, 0) + 1. -/
def oneMore (likeCount : Option ℤ) : Option ℤ := some (likeCount.getD 0+1)

/-- like_count - 1, which is null for a null. -/
def oneLess (likeCount : Option ℤ) : Option ℤ := likeCount.map (·-1)

/-- The like_count an update writes, if the post exists. -/
def writtenCount (committed : Committed) (postId : ℕ) (change : Option ℤ → Option ℤ) :
    Option (Option ℤ) :=
  (postRow committed postId).map fun row => change row.likeCount

section moves

variable {ι : Type} [Fintype ι] [DecidableEq ι]

/-- Another call holds the lock of a likes row. -/
def RowLocked (server : Server ι) (call : ι) (row : LikeRow) : Prop :=
  ∃ other,other≠call ∧ row ∈ (server.calls other).writes.removed

/-- Another call holds the lock of a posts row. -/
def PostLocked (server : Server ι) (call : ι) (postId : ℕ) : Prop :=
  ∃ other,other≠call ∧ (server.calls other).postId=postId ∧
    (server.calls other).writes.likeCount.isSome

instance (server : Server ι) (call : ι) (row : LikeRow) : Decidable (RowLocked server call row) :=
  inferInstanceAs (Decidable (∃ _,_))

instance (server : Server ι) (call : ι) (postId : ℕ) : Decidable (PostLocked server call postId) :=
  inferInstanceAs (Decidable (∃ _,_))

/-- Put a call into a new state. -/
def Server.setCall (server : Server ι) (call : ι) (next : LikeClicked) : Server ι :=
  {server with calls := Function.update server.calls call next}

/-- Write a new like_count into the posts row of a call, unless it has to wait. -/
def updateLikeCount (server : Server ι) (call : ι) (change : Option ℤ → Option ℤ) :
    Option (Server ι) :=
  let click := server.calls call
  if PostLocked server call click.postId then none
  else
    let likeCount := writtenCount server.committed click.postId change
    some (server.setCall call
      {click with stage := .commit, writes := {click.writes with likeCount := likeCount}})

/-- The next statement of a call; none when it has to wait or has ended. -/
def proceed (server : Server ι) (call : ι) : Option (Server ι) :=
  let click := server.calls call
  let rows := matching server.committed click.postId click.userId
  match click.stage with
  | .start => some (server.setCall call {click with stage := .isExists})
  | .isExists =>
    some (server.setCall call
      {click with stage := if rows.isEmpty then .addLikeFirst else .delLikeFirst})
  | .addLikeFirst =>
    some (server.setCall call
      {click with stage := .addLikeSecond, writes := {click.writes with inserted := true}})
  | .addLikeSecond => updateLikeCount server call oneMore
  | .delLikeFirst => some (server.setCall call {click with stage := .deleting rows})
  | .deleting [] => some (server.setCall call {click with stage := .delLikeSecond})
  | .deleting (row::rest) =>
    if RowLocked server call row then none
    else if row ∈ server.committed.likes.rows then
      some (server.setCall call
        {click with
          stage := .deleting rest, writes := {click.writes with removed := click.writes.removed++[row]}})
    else some (server.setCall call {click with stage := .deleting rest})
  | .delLikeSecond => updateLikeCount server call oneLess
  | .commit =>
    some ⟨click.apply server.committed,
      Function.update server.calls call {click with stage := .done, writes := noWrites}⟩
  | .done | .failed => none

/-- A move of a call; one that fails leaves nothing. -/
def step (server : Server ι) : Move ι → Option (Server ι)
  | .proceed call => proceed server call
  | .fail call =>
    match (server.calls call).stage with
    | .done | .failed => none
    | _ =>
      some (server.setCall call {server.calls call with stage := .failed, writes := noWrites})

/-- Calls that are not open yet, for clicks of users on posts. -/
def clicked (committed : Committed) (clicks : ι → ℕ×ℕ) : Server ι :=
  ⟨committed,fun call => ⟨(clicks call).1,(clicks call).2,.start,noWrites⟩⟩

/-- No transaction is open. -/
def NoneOpen (server : Server ι) : Prop :=
  ∀ call,(server.calls call).stage ∈ [.start,.done,.failed]

instance (server : Server ι) : Decidable (NoneOpen server) := inferInstanceAs (Decidable (∀ _,_))

end moves

end Photogram.ContentLikes
