import Mathlib.Data.Finset.SymmDiff
import Mathlib.Data.Finset.Dedup
import Photogram.PostPhotos

/-!
# Likes toggle

DBclient::likeClicked, one call after the other. A committed call puts its pair
of post and user into the set of likes or takes it out, which is the symmetric
difference with that pair. The number kept with the post follows: a like that
is taken back was counted, so the plain subtraction never meets a null.
-/

namespace Photogram.LikeToggle

open CxxString RowTable ContentLikes ContentConnection ContentPosts PostPhotos

/-- Pairs of post and user in the likes rows. -/
def likedPairs (tables : Tables) : List (ℤ×ℤ) :=
  tables.likes.rows.map fun row => (row.postId,row.userId)

/-- Number of likes rows of a post. -/
def likesOf (tables : Tables) (postId : ℤ) : ℕ := (likedPairs tables).countP fun pair => pair.1=postId

/-- The tables agree about the likes. -/
structure Consistent (tables : Tables) : Prop where
  /-- The number kept with a post, a null read as zero, is the number of its likes rows. -/
  counted : ∀ post ∈ tables.posts.rows,post.likeCount.getD 0=likesOf tables post.id
  /-- There is at most one likes row for a post and a user. -/
  distinct : (likedPairs tables).Nodup

/-- A post with a null read as zero. -/
def coalesced (post : Post) : Post := {post with likeCount := some (post.likeCount.getD 0)}

/-- Likes rows are the same up to their order and identity. -/
def SameLikes (tables other : Tables) : Prop := (likedPairs tables).Perm (likedPairs other)

/-- What a committed click does. -/
def click (tables : Tables) (postId userId : ℤ) : Tables :=
  if (postId,userId) ∈ likedPairs tables then tables.removeLike postId userId
  else tables.addLike postId userId

/-- A user likes a post. -/
def liked (tables : Tables) (postId userId : ℤ) : Bool := (postId,userId) ∈ likedPairs tables

section clicks

variable {tables : Tables}

/-- The pairs of an added like. -/
theorem likedPairs_addLike (tables : Tables) (postId userId : ℤ) :
    likedPairs (tables.addLike postId userId)=likedPairs tables++[(postId,userId)] :=
  List.map_append

/-- The pairs behind a deletion. -/
theorem likedPairs_removeLike (tables : Tables) (postId userId : ℤ) :
    likedPairs (tables.removeLike postId userId)=
      (likedPairs tables).filter (· != (postId,userId)) := by
  unfold likedPairs
  rw [List.filter_map]
  refine congrArg _ (List.filter_congr fun row _ => ?_)
  rw [Function.comp_apply,Bool.eq_iff_iff]
  simp [imp_iff_not_or]

/-- A click adds its pair behind the others and counts it, or takes out the
only row of its pair and counts it off. -/
theorem click_cases (h : (likedPairs tables).Nodup) (postId userId : ℤ) :
    ((postId,userId) ∉ likedPairs tables ∧
        (likedPairs (click tables postId userId)).Perm ((postId,userId)::likedPairs tables) ∧
        (click tables postId userId).posts.rows=
          tables.posts.rows.map (changeLikes postId oneMore)) ∨
      ((postId,userId) ∈ likedPairs tables ∧
        (likedPairs tables).Perm ((postId,userId)::likedPairs (click tables postId userId)) ∧
        (click tables postId userId).posts.rows=
          tables.posts.rows.map (changeLikes postId oneLess)) := by
  unfold click
  by_cases hliked : (postId,userId) ∈ likedPairs tables
  · refine Or.inr ⟨hliked,?_,?_⟩
    · rw [if_pos hliked,likedPairs_removeLike,←h.erase_eq_filter]
      exact List.perm_cons_erase hliked
    · rw [if_pos hliked]
      rfl
  · refine Or.inl ⟨hliked,?_,?_⟩
    · rw [if_neg hliked,likedPairs_addLike]
      exact List.perm_append_singleton _ _
    · rw [if_neg hliked]
      rfl

/-- A click leaves at most one row for each pair. -/
theorem nodup_click (h : (likedPairs tables).Nodup) (postId userId : ℤ) :
    (likedPairs (click tables postId userId)).Nodup := by
  rcases click_cases h postId userId with ⟨hnew,hperm,_⟩|⟨_,hperm,_⟩
  · exact hperm.nodup_iff.mpr (List.nodup_cons.mpr ⟨hnew,h⟩)
  · exact (List.nodup_cons.mp (hperm.nodup_iff.mp h)).2

/-- The set of likes. -/
def likeSet (tables : Tables) : Finset (ℤ×ℤ) := (likedPairs tables).toFinset

/-- A click toggles its pair in the set of likes. -/
theorem likeSet_click (h : (likedPairs tables).Nodup) (postId userId : ℤ) :
    likeSet (click tables postId userId)=symmDiff (likeSet tables) {(postId,userId)} := by
  ext pair
  rw [Finset.mem_symmDiff]
  simp only [likeSet,List.mem_toFinset,Finset.mem_singleton]
  rcases click_cases h postId userId with ⟨hnew,hperm,_⟩|⟨hold,hperm,_⟩
  · rw [hperm.mem_iff,List.mem_cons]
    grind
  · have hout := (List.nodup_cons.mp (hperm.nodup_iff.mp h)).1
    rw [hperm.mem_iff,List.mem_cons]
    grind

/-- Tables with one row for each pair have the same likes when the sets agree. -/
theorem sameLikes_of_likeSet {other : Tables} (h : (likedPairs tables).Nodup)
    (hother : (likedPairs other).Nodup) (hset : likeSet tables=likeSet other) :
    SameLikes tables other := by
  refine (List.perm_ext_iff_of_nodup h hother).mpr fun pair => ?_
  have hmem : pair ∈ likeSet tables ↔ pair ∈ likeSet other := by rw [hset]
  simpa only [likeSet,List.mem_toFinset] using hmem

/-- A liked post is counted at least once. -/
theorem likesOf_pos {postId userId : ℤ} (h : (postId,userId) ∈ likedPairs tables) :
    0<likesOf tables postId := List.countP_pos_iff.mpr ⟨_,h,by simp⟩

/-- The number kept with a liked post is not null. -/
theorem Consistent.likeCount (h : Consistent tables) {post : Post} (hmem : post ∈ tables.posts.rows)
    {userId : ℤ} (hliked : ((post.id : ℤ),userId) ∈ likedPairs tables) :
    ∃ count,post.likeCount=some count := by
  have hpositive := likesOf_pos hliked
  have hcounted := h.counted post hmem
  cases hcount : post.likeCount with
  | some count => exact ⟨count,rfl⟩
  | none =>
    rw [hcount,Option.getD_none] at hcounted
    omega

/-- A click leaves the tables consistent. -/
theorem Consistent.click (h : Consistent tables) (postId userId : ℤ) :
    Consistent (click tables postId userId) where
  distinct := nodup_click h.distinct postId userId
  counted := by
    intro post hmem
    rcases click_cases h.distinct postId userId with ⟨_,hperm,hposts⟩|⟨hold,hperm,hposts⟩
    · rw [hposts] at hmem
      obtain ⟨before,hbefore,rfl⟩ := List.mem_map.mp hmem
      have hcounted := h.counted before hbefore
      rw [id_changeLikes]
      unfold likesOf at hcounted ⊢
      rw [hperm.countP_eq,List.countP_cons]
      unfold changeLikes oneMore
      by_cases hid : before.id=postId
      · simp [hid,hcounted]
      · simp [hid,hcounted,Ne.symm hid]
    · rw [hposts] at hmem
      obtain ⟨before,hbefore,rfl⟩ := List.mem_map.mp hmem
      have hcounted := h.counted before hbefore
      rw [id_changeLikes]
      unfold likesOf at hcounted ⊢
      rw [hperm.countP_eq,List.countP_cons] at hcounted
      unfold changeLikes oneLess
      by_cases hid : before.id=postId
      · rw [←hid] at hold
        obtain ⟨count,hcount⟩ := h.likeCount hbefore hold
        simp [hid,hcount] at hcounted ⊢
        omega
      · simp [hid,Ne.symm hid] at hcounted ⊢
        exact hcounted

end clicks

section counters

variable {tables : Tables}

/-- What a click does to the number kept with its post. -/
def countChange (tables : Tables) (postId userId : ℤ) : Option ℤ → Option ℤ :=
  if (postId,userId) ∈ likedPairs tables then oneLess else oneMore

/-- The posts behind a click. -/
theorem posts_click (tables : Tables) (postId userId : ℤ) :
    (click tables postId userId).posts.rows=
      tables.posts.rows.map (changeLikes postId (countChange tables postId userId)) := by
  unfold click countChange
  by_cases hliked : (postId,userId) ∈ likedPairs tables
  · rw [if_pos hliked,if_pos hliked]
    rfl
  · rw [if_neg hliked,if_neg hliked]
    rfl

/-- A click takes effect on its own pair. -/
theorem mem_click_self (h : (likedPairs tables).Nodup) (postId userId : ℤ) :
    (postId,userId) ∈ likedPairs (click tables postId userId) ↔
      (postId,userId) ∉ likedPairs tables := by
  rcases click_cases h postId userId with ⟨hnew,hperm,_⟩|⟨hold,hperm,_⟩
  · exact iff_of_true (hperm.mem_iff.mpr List.mem_cons_self) hnew
  · exact iff_of_false (List.nodup_cons.mp (hperm.nodup_iff.mp h)).1 (not_not.mpr hold)

/-- A click leaves every other pair. -/
theorem mem_click_other (h : (likedPairs tables).Nodup) {postId userId : ℤ} {pair : ℤ×ℤ}
    (hne : pair≠(postId,userId)) :
    pair ∈ likedPairs (click tables postId userId) ↔ pair ∈ likedPairs tables := by
  rcases click_cases h postId userId with ⟨_,hperm,_⟩|⟨_,hperm,_⟩
  · rw [hperm.mem_iff,List.mem_cons,or_iff_right hne]
  · rw [hperm.mem_iff,List.mem_cons,or_iff_right hne]

/-- The post of a click gets the changed number. -/
theorem changeLikes_self (post : Post) (change : Option ℤ → Option ℤ) :
    changeLikes post.id change post={post with likeCount := change post.likeCount} := if_pos rfl

/-- Another post stays. -/
theorem changeLikes_other {post : Post} {postId : ℤ} (hid : (post.id : ℤ)≠postId)
    (change : Option ℤ → Option ℤ) : changeLikes postId change post=post := if_neg hid

/-- Counting twice at one post is counting once with both changes. -/
theorem changeLikes_twice (postId : ℤ) (first second : Option ℤ → Option ℤ) (post : Post) :
    changeLikes postId second (changeLikes postId first post)=
      changeLikes postId (second∘first) post := by
  by_cases hid : (post.id : ℤ)=postId
  · subst hid
    rw [changeLikes_self,changeLikes_self]
    exact changeLikes_self {post with likeCount := first post.likeCount} second
  · simp only [changeLikes_other hid]

/-- Two clicks on a pair give every number back, but for a null. -/
theorem posts_click_twice (h : Consistent tables) (postId userId : ℤ) :
    (click (click tables postId userId) postId userId).posts.rows.map coalesced=
      tables.posts.rows.map coalesced := by
  rw [posts_click,posts_click,List.map_map,List.map_map]
  refine List.map_congr_left fun post hmem => ?_
  simp only [Function.comp_apply,changeLikes_twice]
  by_cases hid : (post.id : ℤ)=postId
  swap
  · rw [changeLikes_other hid]
  subst hid
  rw [changeLikes_self]
  unfold countChange
  by_cases hliked : ((post.id : ℤ),userId) ∈ likedPairs tables
  · have hout := (mem_click_self h.distinct post.id userId).not.mpr (not_not.mpr hliked)
    obtain ⟨count,hcount⟩ := h.likeCount hmem hliked
    rw [if_neg hout,if_pos hliked]
    simp [coalesced,oneMore,oneLess,hcount]
  · have hin := (mem_click_self h.distinct post.id userId).mpr hliked
    rw [if_pos hin,if_neg hliked]
    simp [coalesced,oneMore,oneLess]

/-- Two clicks on a pair give the likes back. -/
theorem likes_click_twice (h : Consistent tables) (postId userId : ℤ) :
    SameLikes (click (click tables postId userId) postId userId) tables := by
  have hmiddle := nodup_click h.distinct postId userId
  refine sameLikes_of_likeSet (nodup_click hmiddle postId userId) h.distinct ?_
  rw [likeSet_click hmiddle,likeSet_click h.distinct,symmDiff_symmDiff_cancel_right]

variable {postId userId otherPost otherUser : ℤ}

/-- A click leaves what another click does to the number of its post. -/
theorem countChange_click (h : Consistent tables) (hne : (otherPost,otherUser)≠(postId,userId)) :
    countChange (click tables postId userId) otherPost otherUser=
      countChange tables otherPost otherUser := by
  unfold countChange
  simp only [mem_click_other h.distinct hne]

/-- Changes of one number commute unless one of them subtracts from a null. -/
theorem oneMore_oneLess (count : ℤ) : oneMore (oneLess (some count))=oneLess (oneMore (some count)) := by
  simp [oneMore,oneLess]

/-- Clicks on different pairs commute on the numbers of a post. -/
theorem countChange_comm (h : Consistent tables) {post : Post} (hmem : post ∈ tables.posts.rows)
    (userId otherUser : ℤ) :
    countChange tables post.id otherUser (countChange tables post.id userId post.likeCount)=
      countChange tables post.id userId (countChange tables post.id otherUser post.likeCount) := by
  unfold countChange
  by_cases hliked : ((post.id : ℤ),userId) ∈ likedPairs tables
  · obtain ⟨count,hcount⟩ := h.likeCount hmem hliked
    rw [if_pos hliked,hcount]
    split
    · rfl
    · exact oneMore_oneLess count
  · rw [if_neg hliked]
    split
    · next hother =>
      obtain ⟨count,hcount⟩ := h.likeCount hmem hother
      rw [hcount]
      exact (oneMore_oneLess count).symm
    · rfl

/-- Clicks on different pairs commute on the posts. -/
theorem posts_click_comm (h : Consistent tables) (hne : (postId,userId)≠(otherPost,otherUser)) :
    (click (click tables postId userId) otherPost otherUser).posts.rows=
      (click (click tables otherPost otherUser) postId userId).posts.rows := by
  rw [posts_click,posts_click,posts_click,posts_click,List.map_map,List.map_map,
    countChange_click h hne.symm,countChange_click h hne]
  refine List.map_congr_left fun post hmem => ?_
  simp only [Function.comp_apply]
  by_cases hid : (post.id : ℤ)=postId
  · subst hid
    by_cases hother : (post.id : ℤ)=otherPost
    · subst hother
      have hcomm := countChange_comm h hmem userId otherUser
      rw [changeLikes_twice,changeLikes_twice,changeLikes_self,changeLikes_self]
      simp only [Function.comp_apply,hcomm]
    · rw [changeLikes_other hother,changeLikes_other]
      rwa [id_changeLikes]
  · rw [changeLikes_other hid]
    exact (changeLikes_other (by rwa [id_changeLikes]) _).symm

/-- Clicks on different pairs commute on the likes. -/
theorem likes_click_comm (h : Consistent tables) (postId userId otherPost otherUser : ℤ) :
    SameLikes (click (click tables postId userId) otherPost otherUser)
      (click (click tables otherPost otherUser) postId userId) := by
  have hfirst := nodup_click h.distinct postId userId
  have hsecond := nodup_click h.distinct otherPost otherUser
  refine sameLikes_of_likeSet (nodup_click hfirst _ _) (nodup_click hsecond _ _) ?_
  rw [likeSet_click hfirst,likeSet_click hsecond,likeSet_click h.distinct,likeSet_click h.distinct,
    symmDiff_right_comm]

end counters

section calls

variable (readInteger : Bytes → Option ℤ)

/-- The call commits: its texts are the integers of a post and a user, no
statement fails and its writes are kept. -/
structure Commits (circumstances : Circumstances) (postId userId : Bytes) (post user : ℤ) : Prop where
  /-- Nothing fails that is not kept. -/
  kept : Kept circumstances
  /-- The post. -/
  post : readInteger postId=some post
  /-- The user. -/
  user : readInteger userId=some user

variable {readInteger} {circumstances : Circumstances} {postId userId : Bytes} {post user : ℤ}

/-- The check of the first statement is whether the pair is liked. -/
theorem any_likes_iff (tables : Tables) (post user : ℤ) :
    (tables.likes.rows.any fun row => row.postId=post ∧ row.userId=user)=true ↔
      (post,user) ∈ likedPairs tables := by
  simp only [List.any_eq_true,decide_eq_true_eq,likedPairs,List.mem_map,Prod.mk.injEq]

/-- A committing call clicks. -/
theorem Commits.tables (h : Commits readInteger circumstances postId userId post user)
    (tables : Tables) :
    (likeClicked readInteger circumstances postId userId tables).2=click tables post user := by
  obtain ⟨⟨hfault,hcommit⟩,hpost,huser⟩ := h
  have hstatement := statement_of_kept hfault
  have hwork : likeClickedWork readInteger circumstances postId userId tables=
      .ok (click tables post user) := by
    unfold likeClickedWork integer
    rw [hstatement 0 (by decide),hstatement 1 (by decide),hpost,huser,hstatement 2 (by decide),
      hstatement 3 (by decide)]
    change (if _ then _ else _)=_
    unfold click
    by_cases hliked : (post,user) ∈ likedPairs tables
    · rw [if_pos ((any_likes_iff tables post user).mpr hliked),if_pos hliked]
      rfl
    · rw [if_neg fun hany => hliked ((any_likes_iff tables post user).mp hany),if_neg hliked]
      rfl
  rw [likeClicked_ended,hwork,finish_kept hcommit]

/-- Statements that all succeed do not fail, and their texts are integers. -/
theorem likeClickedWork_succeeds {tables after : Tables}
    (h : likeClickedWork readInteger circumstances postId userId tables=.ok after) :
    (∀ number<4,circumstances.fault number=none) ∧
      ∃ post user,readInteger postId=some post ∧ readInteger userId=some user := by
  obtain ⟨_,hzero,h⟩ := except_bind_ok h
  obtain ⟨_,hone,h⟩ := except_bind_ok h
  obtain ⟨post,hpost,h⟩ := except_bind_ok h
  obtain ⟨user,huser,h⟩ := except_bind_ok h
  obtain ⟨_,htwo,h⟩ := except_bind_ok h
  obtain ⟨_,hthree,_⟩ := except_bind_ok h
  exact ⟨fault_none hzero hone htwo hthree,post,user,integer_ok readInteger hpost,
    integer_ok readInteger huser⟩

/-- A call that returns, or that changes the tables at all, has committed. -/
theorem commits_of_ended {tables : Tables}
    (h : (likeClicked readInteger circumstances postId userId tables).1=.ok () ∨
      (likeClicked readInteger circumstances postId userId tables).2≠tables) :
    ∃ post user,Commits readInteger circumstances postId userId post user := by
  unfold likeClicked finish at h
  cases hwork : likeClickedWork readInteger circumstances postId userId tables with
  | error e =>
    rw [hwork] at h
    rcases h with hreturned|hchanged
    · cases hreturned
    · exact absurd rfl hchanged
  | ok written =>
    obtain ⟨hfault,post,user,hpost,huser⟩ := likeClickedWork_succeeds hwork
    refine ⟨post,user,⟨hfault,fun raised hraised => ?_⟩,hpost,huser⟩
    obtain ⟨e,kept⟩ := raised
    cases kept with
    | true => rfl
    | false =>
      rw [hwork] at h
      dsimp only at h
      rw [hraised] at h
      rcases h with hreturned|hchanged
      · cases hreturned
      · exact absurd rfl hchanged

/-- Committed clicks keep the tables consistent, two of one user on one post
give the likes and the numbers back, and those of different pairs commute. -/
theorem likeClicked_toggles {tables : Tables} (h : Consistent tables) :
    (∀ circumstances postId userId post user,
      Commits readInteger circumstances postId userId post user →
        Consistent (likeClicked readInteger circumstances postId userId tables).2) ∧
    (∀ first second postId userId postId' userId' post user,
      Commits readInteger first postId userId post user →
      Commits readInteger second postId' userId' post user →
        let after := (likeClicked readInteger second postId' userId'
          (likeClicked readInteger first postId userId tables).2).2
        SameLikes after tables ∧
          after.posts.rows.map coalesced=tables.posts.rows.map coalesced) ∧
    ∀ first second postId userId otherPostId otherUserId post user otherPost otherUser,
      (post,user)≠(otherPost,otherUser) →
      Commits readInteger first postId userId post user →
      Commits readInteger second otherPostId otherUserId otherPost otherUser →
        let after := (likeClicked readInteger second otherPostId otherUserId
          (likeClicked readInteger first postId userId tables).2).2
        let reordered := (likeClicked readInteger first postId userId
          (likeClicked readInteger second otherPostId otherUserId tables).2).2
        SameLikes after reordered ∧ after.posts.rows=reordered.posts.rows := by
  refine ⟨?_,?_,?_⟩
  · intro circumstances postId userId post user hcommits
    rw [hcommits.tables]
    exact h.click post user
  · intro first second postId userId postId' userId' post user hfirst hsecond
    dsimp only
    rw [hfirst.tables,hsecond.tables]
    exact ⟨likes_click_twice h post user,posts_click_twice h post user⟩
  · intro first second postId userId otherPostId otherUserId post user otherPost otherUser hne
      hfirst hsecond
    dsimp only
    rw [hfirst.tables,hsecond.tables,hsecond.tables,hfirst.tables]
    exact ⟨likes_click_comm h post user otherPost otherUser,posts_click_comm h hne⟩

/-- Tables with one post. -/
def onePost : Tables := (noRows.addPhoto [] []).addPost 7 0 [] 1

/-- A user likes the post and takes the like back, at its null. -/
theorem likeClicked_onePost :
    let after := (likeClicked readDigit healthy (ascii "1") (ascii "8")
      (likeClicked readDigit healthy (ascii "1") (ascii "8") onePost).2).2
    SameLikes after onePost ∧ after.posts.rows.map coalesced=onePost.posts.rows.map coalesced := by
  have hconsistent : Consistent onePost := ⟨by decide +kernel,by decide +kernel⟩
  have hcommits : Commits readDigit healthy (ascii "1") (ascii "8") 1 8 :=
    ⟨⟨fun _ _ => rfl,nofun⟩,rfl,rfl⟩
  exact (likeClicked_toggles hconsistent).2.1 _ _ _ _ _ _ 1 8 hcommits hcommits

end calls

end Photogram.LikeToggle
