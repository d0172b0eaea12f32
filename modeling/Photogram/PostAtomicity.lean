import Photogram.PostPhotos

/-!
# Adding a post is atomic

DBclient::addNewPost with the call of its error path as a parameter: whatever
that call does to the photo it is given, and whether it raises or not. The
photo of a failed post is rolled back before the call runs, and its key belongs
to no row, so that there is nothing left for the call to delete.
-/

namespace Photogram.PostAtomicity

open CxxString RowTable FormDataParser ContentConnection ContentPosts PostPhotos

/-- What the error path may call: it deletes the photo of the key or nothing,
and raises the text of a failure or returns. -/
structure Cleans (cleanup : ℕ → Tables → Except CxxException Unit×Tables) : Prop where
  /-- It raises one error only. -/
  raises : ∀ photoId tables e,(cleanup photoId tables).1=.error e → e=serverError
  /-- It deletes at most the photo it is given. -/
  tables : ∀ photoId tables,(cleanup photoId tables).2=tables ∨
    (cleanup photoId tables).2={tables with postPhotos := tables.postPhotos.delete photoId}

variable (readInteger : Bytes → Option ℤ) (circumstances : Circumstances)

/-- Add a post with its photo, with the call of the error path open. -/
def addNewPostCleaning (cleanup : ℕ → Tables → Except CxxException Unit×Tables) (userId : Bytes)
    (propertyMap : FieldMap) (tables : Tables) : Except CxxException Unit×Tables :=
  match addNewPostPhoto circumstances propertyMap tables with
  | .error _ => (.error serverError,tables)
  | .ok withPhoto =>
    let photoId := tables.postPhotos.next
    let ended := finish circumstances tables
      (addNewPostInformation readInteger circumstances userId propertyMap photoId withPhoto)
    match ended.1 with
    | .ok _ => ended
    | .error _ =>
      let cleaned := cleanup photoId ended.2
      match cleaned.1 with
      | .ok _ => (.error serverError,cleaned.2)
      | .error e => (.error e,cleaned.2)

/-- A call adds a whole post or nothing: it raises "500" with posts and photos
as they were, or returns with one photo and one post of the user that refers to it. -/
def AllOrNothing (userId : Bytes) (propertyMap : FieldMap) (tables : Tables)
    (ended : Except CxxException Unit×Tables) : Prop :=
  (∀ e,ended.1=.error e → e=serverError ∧ ended.2.posts.rows=tables.posts.rows ∧
    ended.2.postPhotos.rows=tables.postPhotos.rows) ∧
  (ended.1=.ok () → ∃ user photo post,readInteger userId=some user ∧
    ended.2.postPhotos.rows=tables.postPhotos.rows++[photo] ∧
    ended.2.posts.rows=tables.posts.rows++[post] ∧
    photo.photoType=field propertyMap (ascii "Content-Type") ∧
    photo.photo=field propertyMap (ascii "photo") ∧
    post.userId=user ∧ post.postDescription=field propertyMap (ascii "description") ∧
    post.photoId=photo.id)

/-- The transactions of the error path fail or leave nothing behind. -/
def RollsBack : Prop := ∀ raised,circumstances.commit=some raised → raised.2=false

/-- The call the error path really makes always fails. -/
theorem delPostPhotoById_cleans : Cleans delPostPhotoById where
  raises _ _ _ h := (Except.error.inj h).symm
  tables _ _ := Or.inl rfl

/-- Adding a post is adding it with that call. -/
theorem addNewPost_eq_cleaning :
    addNewPost readInteger circumstances=addNewPostCleaning readInteger circumstances delPostPhotoById :=
  rfl

/-- Deleting under a key no row has yet deletes nothing. -/
theorem delete_next {ρ : Type} {key : ρ → ℕ} (table : Table key) :
    (table.delete table.next).rows=table.rows := by
  refine List.filter_eq_self.mpr fun row hmem => decide_eq_true ?_
  exact Nat.ne_of_lt (table.key_lt row hmem)

/-- A call of the error path behind a rollback leaves posts and photos. -/
theorem Cleans.rows {cleanup : ℕ → Tables → Except CxxException Unit×Tables} (h : Cleans cleanup)
    (tables : Tables) :
    (cleanup tables.postPhotos.next tables).2.posts.rows=tables.posts.rows ∧
      (cleanup tables.postPhotos.next tables).2.postPhotos.rows=tables.postPhotos.rows := by
  rcases h.tables tables.postPhotos.next tables with hsame|hdelete
  · rw [hsame]
    exact ⟨rfl,rfl⟩
  · rw [hdelete]
    exact ⟨rfl,delete_next tables.postPhotos⟩

variable {circumstances}

/-- A transaction that raises has left the tables as they were. -/
theorem finish_error (h : RollsBack circumstances) {tables : Tables}
    {result : Except CxxException Tables} {e : CxxException}
    (hraised : (finish circumstances tables result).1=.error e) :
    (finish circumstances tables result).2=tables := by
  unfold finish at hraised ⊢
  cases result with
  | error e => rfl
  | ok written =>
    cases hcommit : circumstances.commit with
    | none =>
      rw [hcommit] at hraised
      cases hraised
    | some raised =>
      have hlost := h raised hcommit
      obtain ⟨e,kept⟩ := raised
      cases hlost
      rfl

/-- A transaction that returns has written its result. -/
theorem finish_ok {tables : Tables} {result : Except CxxException Tables}
    (hreturned : (finish circumstances tables result).1=.ok ()) :
    result=.ok (finish circumstances tables result).2 := by
  unfold finish at hreturned ⊢
  cases result with
  | error e => cases hreturned
  | ok written =>
    cases hcommit : circumstances.commit with
    | none => rfl
    | some raised =>
      obtain ⟨e,kept⟩ := raised
      rw [hcommit] at hreturned
      cases hreturned

/-- Behind both insertions there is one row more in each table. -/
theorem takesEffect_rows {userId : Bytes} {propertyMap : FieldMap} {tables after : Tables}
    (h : TakesEffect readInteger circumstances tables after (.addNewPost userId propertyMap)) :
    AllOrNothing readInteger userId propertyMap tables (.ok (),after) := by
  obtain ⟨user,huser,rfl⟩ := h
  refine ⟨nofun,fun _ => ?_⟩
  exact ⟨user,⟨tables.postPhotos.next,_,_⟩,⟨tables.posts.next,user,_,_,none,tables.postPhotos.next⟩,
    huser,rfl,rfl,rfl,rfl,rfl,rfl,rfl⟩

/-- A post is added wholly or not at all, at every point of failure and with
every outcome of the call of the error path. -/
theorem addNewPost_allOrNothing (h : RollsBack circumstances) (userId : Bytes)
    (propertyMap : FieldMap) (tables : Tables) :
    AllOrNothing readInteger userId propertyMap tables
        (addNewPost readInteger circumstances userId propertyMap tables) ∧
      ∀ cleanup,Cleans cleanup → AllOrNothing readInteger userId propertyMap tables
        (addNewPostCleaning readInteger circumstances cleanup userId propertyMap tables) := by
  have hcleaning : ∀ cleanup,Cleans cleanup → AllOrNothing readInteger userId propertyMap tables
      (addNewPostCleaning readInteger circumstances cleanup userId propertyMap tables) := by
    intro cleanup hcleans
    unfold addNewPostCleaning
    cases hphoto : addNewPostPhoto circumstances propertyMap tables with
    | error e => exact ⟨fun _ hraised => ⟨(Except.error.inj hraised).symm,rfl,rfl⟩,nofun⟩
    | ok withPhoto =>
      dsimp only
      generalize hinformation : addNewPostInformation readInteger circumstances userId propertyMap
        tables.postPhotos.next withPhoto=information
      cases hended : (finish circumstances tables information).1 with
      | ok value =>
        have hwritten := finish_ok hended
        rw [hwritten] at hinformation
        have hrows := takesEffect_rows readInteger
          (addNewPostWork_ok readInteger circumstances hphoto hinformation)
        dsimp only
        refine ⟨fun e hraised => ?_,fun _ => hrows.2 rfl⟩
        rw [hended] at hraised
        cases hraised
      | error e =>
        dsimp only
        rw [finish_error h hended]
        have hrows := hcleans.rows tables
        cases hcleaned : (cleanup tables.postPhotos.next tables).1 with
        | ok value => exact ⟨fun _ hraised => ⟨(Except.error.inj hraised).symm,hrows⟩,nofun⟩
        | error raised =>
          have htext := hcleans.raises _ _ _ hcleaned
          exact ⟨fun _ hraised => ⟨(Except.error.inj hraised).symm.trans htext,hrows⟩,nofun⟩
  exact ⟨hcleaning delPostPhotoById delPostPhotoById_cleans,hcleaning⟩

/-- The insertion of the post fails. -/
def failingInformation : Circumstances :=
  ⟨none,fun number => if number=2 then some (.runtimeError "lost") else none,none,0⟩

/-- Behind a failing insertion of the post neither it nor its photo is there. -/
theorem addNewPost_failingInformation :
    (addNewPost readDigit failingInformation (ascii "7") photoForm noRows).1=.error serverError ∧
      (addNewPost readDigit failingInformation (ascii "7") photoForm noRows).2.posts.rows=[] ∧
      (addNewPost readDigit failingInformation (ascii "7") photoForm noRows).2.postPhotos.rows=[] := by
  have hrollsBack : RollsBack failingInformation := fun _ hraised => nomatch hraised
  have hraised : (addNewPost readDigit failingInformation (ascii "7") photoForm noRows).1=
      .error serverError := by decide +kernel
  obtain ⟨_,hposts,hphotos⟩ := (addNewPost_allOrNothing readDigit hrollsBack (ascii "7") photoForm
    noRows).1.1 serverError hraised
  exact ⟨hraised,hposts,hphotos⟩

end Photogram.PostAtomicity
