import Photogram.ContentLikes

/-!
# Like counters

The number kept with a post is a second copy of the number of its likes rows.
What a transaction writes is computed under locks it keeps, so a commit adds
to both copies alike, or takes one from the counter for the rows its delete
removed. The copies agree for ever if every delete removes exactly one row;
two clicks of one user that overlap let a delete remove none.
-/

namespace Photogram.LikeCounters

open RowTable Schedule ContentLikes

/-- Number of likes rows of a post. -/
def likesOf (committed : Committed) (postId : ℕ) : ℕ :=
  (committed.likes.rows.filter fun row => row.postId=postId).length

/-- The number kept with every post is the number of its likes rows. -/
def Agrees (committed : Committed) : Prop :=
  ∀ post ∈ committed.posts.rows,post.likeCount.getD 0=likesOf committed post.id

/-- A delete that starts finds exactly one row, and the row it visits is
still there. -/
def RemovesOne {ι : Type} (server : Server ι) : Move ι → Prop
  | .proceed call =>
    let click := server.calls call
    match click.stage with
    | .delLikeFirst => (matching server.committed click.postId click.userId).length=1
    | .deleting (row::_) => row ∈ server.committed.likes.rows
    | _ => True
  | .fail _ => True

instance {ι : Type} (server : Server ι) (move : Move ι) : Decidable (RemovesOne server move) := by
  unfold RemovesOne
  cases move with
  | proceed call =>
    dsimp only
    split <;> infer_instance
  | fail call => exact isTrue trivial

/-- No user likes a post twice. -/
def AtMostOneLike (committed : Committed) : Prop :=
  UniqueBy (fun row : LikeRow => (row.postId,row.userId)) committed.likes.rows

instance (committed : Committed) : Decidable (Agrees committed) :=
  inferInstanceAs (Decidable (∀ _ ∈ _,_))

section tables

/-- Posts row of a post, by its key. -/
theorem postRow_eq_some {committed : Committed} {postId : ℕ} {post : PostRow} :
    postRow committed postId=some post ↔ post ∈ committed.posts.rows ∧ post.id=postId := by
  have hid : ∀ {found : PostRow},postRow committed postId=some found → found.id=postId :=
    fun h => by simpa using List.find?_some h
  unfold postRow at hid ⊢
  constructor
  · exact fun h => ⟨List.mem_of_find?_eq_some h,hid h⟩
  · rintro ⟨hmem,hpost⟩
    cases hfind : committed.posts.rows.find? fun row => row.id=postId with
    | none => exact absurd (decide_eq_true hpost) (List.find?_eq_none.mp hfind post hmem)
    | some found =>
      rw [eq_of_key_eq committed.posts (List.mem_of_find?_eq_some hfind) hmem
        ((hid hfind).trans hpost.symm)]

/-- The posts rows after a committed like_count. -/
theorem mem_setLikeCount {committed : Committed} {postId : ℕ} {likeCount : Option ℤ} {post : PostRow} :
    post ∈ (committed.setLikeCount postId likeCount).posts.rows ↔
      ∃ old ∈ committed.posts.rows,post=if old.id=postId then {old with likeCount := likeCount} else old := by
  change post ∈ committed.posts.rows.map _ ↔ _
  rw [List.mem_map]
  constructor
  · rintro ⟨old,hold,rfl⟩
    exact ⟨old,hold,rfl⟩
  · rintro ⟨old,hold,rfl⟩
    exact ⟨old,hold,rfl⟩

/-- A committed like_count leaves the other posts alone. -/
theorem postRow_setLikeCount {committed : Committed} {postId other : ℕ} {likeCount : Option ℤ}
    (h : other≠postId) :
    postRow (committed.setLikeCount postId likeCount) other=postRow committed other := by
  apply Option.ext
  intro post
  rw [postRow_eq_some,postRow_eq_some,mem_setLikeCount]
  constructor
  · rintro ⟨⟨old,hold,rfl⟩,hid⟩
    by_cases hpost : old.id=postId
    · rw [if_pos hpost] at hid
      exact absurd (hid.symm.trans hpost) h
    · rw [if_neg hpost] at hid ⊢
      exact ⟨hold,hid⟩
  · rintro ⟨hmem,hid⟩
    exact ⟨⟨post,hmem,by rw [if_neg (by omega)]⟩,hid⟩

/-- A like adds to the likes rows of its post. -/
theorem likesOf_addLike (committed : Committed) (postId userId other : ℕ) :
    likesOf (committed.addLike postId userId) other=
      likesOf committed other+if postId=other then 1 else 0 := by
  change ((committed.likes.rows++[_]).filter _).length=_
  rw [List.filter_append,List.length_append]
  by_cases h : postId=other <;> simp [likesOf,h]

/-- Deleting a likes row takes it from the likes rows of its post. -/
theorem likesOf_removeLike {committed : Committed} {row : LikeRow}
    (h : row ∈ committed.likes.rows) (other : ℕ) :
    likesOf (committed.removeLike row) other+(if row.postId=other then 1 else 0)=
      likesOf committed other := by
  have hlength := length_filter_delete committed.likes h fun row => decide (row.postId=other)
  simp only [decide_eq_true_eq] at hlength
  exact hlength

/-- The copies agree when the likes rows of one post change with its counter. -/
theorem agrees_writeLikeCount {before after : Committed} {postId : ℕ}
    {change : Option ℤ → Option ℤ} (hagrees : Agrees before) (hposts : after.posts=before.posts)
    (hother : ∀ other,other≠postId → likesOf after other=likesOf before other)
    (hchange : ∀ post ∈ before.posts.rows,post.id=postId →
      (change post.likeCount).getD 0=likesOf after postId) :
    Agrees (after.writeLikeCount postId (writtenCount before postId change)) := by
  unfold writtenCount
  cases hpost : postRow before postId with
  | none =>
    intro post hmem
    change post ∈ after.posts.rows at hmem
    rw [hposts] at hmem
    have hid : post.id≠postId := fun hid => by
      rw [postRow_eq_some.mpr ⟨hmem,hid⟩] at hpost
      cases hpost
    change post.likeCount.getD 0=likesOf after post.id
    rw [hother post.id hid]
    exact hagrees post hmem
  | some found =>
    intro post hmem
    obtain ⟨old,hold,rfl⟩ := mem_setLikeCount.mp hmem
    rw [hposts] at hold
    by_cases hid : old.id=postId
    · have hfound : old=found :=
        Option.some.inj ((postRow_eq_some.mpr ⟨hold,hid⟩).symm.trans hpost)
      rw [if_pos hid,←hfound]
      change (change old.likeCount).getD 0=likesOf after old.id
      rw [hid]
      exact hchange old hold hid
    · rw [if_neg hid]
      change old.likeCount.getD 0=likesOf after old.id
      rw [hother old.id hid]
      exact hagrees old hold

/-- A committed like keeps the copies in agreement. -/
theorem agrees_like {committed : Committed} (h : Agrees committed) (postId userId : ℕ) :
    Agrees ((committed.addLike postId userId).writeLikeCount postId
      (writtenCount committed postId oneMore)) := by
  refine agrees_writeLikeCount h rfl (fun other hother => ?_) fun post hmem hid => ?_
  · rw [likesOf_addLike,if_neg (Ne.symm hother)]
    rfl
  · have hcount := h post hmem
    rw [likesOf_addLike,if_pos rfl,←hid]
    change post.likeCount.getD 0+1=_
    rw [hcount]
    rfl

/-- So does a committed delete of one row. -/
theorem agrees_unlike {committed : Committed} (h : Agrees committed) {row : LikeRow}
    (hrow : row ∈ committed.likes.rows) :
    Agrees ((committed.removeLike row).writeLikeCount row.postId
      (writtenCount committed row.postId oneLess)) := by
  refine agrees_writeLikeCount h rfl (fun other hother => ?_) fun post hmem hid => ?_
  · have hlength := likesOf_removeLike hrow other
    rwa [if_neg (Ne.symm hother)] at hlength
  · have hlength := likesOf_removeLike hrow row.postId
    rw [if_pos rfl] at hlength
    have hcount := h post hmem
    rw [hid] at hcount
    unfold oneLess
    cases hlike : post.likeCount with
    | none =>
      rw [hlike] at hcount
      change 0=_ at hcount
      omega
    | some count =>
      rw [hlike] at hcount
      change count=_ at hcount
      change count-1=_
      omega

end tables

section invariant

/-- What a call has written at each stage: nothing before its writes and after
its end, and before its commit one row with the counter it leads to. -/
def WritesOk (committed : Committed) (click : LikeClicked) : Prop :=
  match click.stage with
  | .start | .isExists | .addLikeFirst | .delLikeFirst | .done | .failed => click.writes=noWrites
  | .addLikeSecond => click.writes=⟨true,[],none⟩
  | .deleting rows =>
    ∃ row,row.postId=click.postId ∧
      ((rows=[row] ∧ click.writes=noWrites) ∨
        (rows=[] ∧ row ∈ committed.likes.rows ∧ click.writes=⟨false,[row],none⟩))
  | .delLikeSecond =>
    ∃ row ∈ committed.likes.rows,row.postId=click.postId ∧ click.writes=⟨false,[row],none⟩
  | .commit =>
    click.writes=⟨true,[],writtenCount committed click.postId oneMore⟩ ∨
      ∃ row ∈ committed.likes.rows,row.postId=click.postId ∧
        click.writes=⟨false,[row],writtenCount committed click.postId oneLess⟩

/-- What a call has written stays right while its rows stay. -/
theorem WritesOk.stable {before after : Committed} {click : LikeClicked}
    (h : WritesOk before click)
    (hrows : ∀ row ∈ click.writes.removed,row ∈ before.likes.rows → row ∈ after.likes.rows)
    (hpost : click.stage=.commit → postRow after click.postId=postRow before click.postId) :
    WritesOk after click := by
  obtain ⟨postId,userId,stage,writes⟩ := click
  unfold WritesOk writtenCount at h ⊢
  cases stage with
  | deleting rows =>
    obtain ⟨row,hid,hempty|⟨hempty,hmem,hwrites⟩⟩ := h
    · exact ⟨row,hid,Or.inl hempty⟩
    · dsimp only at hwrites hrows
      rw [hwrites] at hrows
      exact ⟨row,hid,Or.inr ⟨hempty,hrows row List.mem_cons_self hmem,hwrites⟩⟩
  | delLikeSecond =>
    obtain ⟨row,hmem,hid,hwrites⟩ := h
    dsimp only at hwrites hrows
    rw [hwrites] at hrows
    exact ⟨row,hrows row List.mem_cons_self hmem,hid,hwrites⟩
  | commit =>
    dsimp only at h hrows hpost ⊢
    rw [hpost rfl]
    rcases h with h|⟨row,hmem,hid,hwrites⟩
    · exact Or.inl h
    · rw [hwrites] at hrows
      exact Or.inr ⟨row,hrows row List.mem_cons_self hmem,hid,hwrites⟩
  | start => exact h
  | isExists => exact h
  | addLikeFirst => exact h
  | addLikeSecond => exact h
  | delLikeFirst => exact h
  | done => exact h
  | failed => exact h

variable {ι : Type} [DecidableEq ι]

/-- The copies agree, every call wrote what its stage says, and no two calls
changed one row. -/
structure Consistent (server : Server ι) : Prop where
  /-- The committed copies agree. -/
  agrees : Agrees server.committed
  /-- The writes of the calls. -/
  writes : ∀ call,WritesOk server.committed (server.calls call)
  /-- No likes row is deleted twice. -/
  rowsApart : ∀ a b,a≠b → ∀ row ∈ (server.calls a).writes.removed,
    row ∉ (server.calls b).writes.removed
  /-- No counter is changed twice. -/
  postsApart : ∀ a b,a≠b → (server.calls a).writes.likeCount.isSome →
    (server.calls b).writes.likeCount.isSome → (server.calls a).postId≠(server.calls b).postId

/-- A call goes on, with new writes only to rows nobody else changed. -/
theorem consistent_update {server : Server ι} {committed : Committed} {call : ι}
    {next : LikeClicked} (h : Consistent server) (hagrees : Agrees committed)
    (hothers : ∀ other,other≠call → WritesOk committed (server.calls other))
    (hwrites : WritesOk committed next)
    (hrows : ∀ row ∈ next.writes.removed,
      row ∈ (server.calls call).writes.removed ∨ ¬RowLocked server call row)
    (hposts : next.writes.likeCount.isSome → ¬PostLocked server call next.postId) :
    Consistent ⟨committed,Function.update server.calls call next⟩ where
  agrees := hagrees
  writes other := by
    by_cases hother : other=call
    · rw [hother]
      dsimp only
      rwa [Function.update_self]
    · dsimp only
      rw [Function.update_of_ne hother]
      exact hothers other hother
  rowsApart a b hab row hmem hmem' := by
    have hcall : ∀ other,other≠call → row ∈ next.writes.removed →
        row ∉ (server.calls other).writes.removed := by
      intro other hother hnext hthere
      rcases hrows row hnext with hold|hfree
      · exact h.rowsApart call other (Ne.symm hother) row hold hthere
      · exact hfree ⟨other,hother,hthere⟩
    dsimp only at hmem hmem'
    by_cases ha : a=call
    · have hb : b≠call := fun hb => hab (ha.trans hb.symm)
      rw [ha,Function.update_self] at hmem
      rw [Function.update_of_ne hb] at hmem'
      exact hcall b hb hmem hmem'
    · rw [Function.update_of_ne ha] at hmem
      by_cases hb : b=call
      · rw [hb,Function.update_self] at hmem'
        exact hcall a ha hmem' hmem
      · rw [Function.update_of_ne hb] at hmem'
        exact h.rowsApart a b hab row hmem hmem'
  postsApart a b hab hsome hsome' := by
    dsimp only at hsome hsome' ⊢
    by_cases ha : a=call
    · have hb : b≠call := fun hb => hab (ha.trans hb.symm)
      rw [ha,Function.update_self] at hsome ⊢
      rw [Function.update_of_ne hb] at hsome' ⊢
      exact fun hpost => hposts hsome ⟨b,hb,hpost.symm,hsome'⟩
    · rw [Function.update_of_ne ha] at hsome ⊢
      by_cases hb : b=call
      · rw [hb,Function.update_self] at hsome' ⊢
        exact fun hpost => hposts hsome' ⟨a,ha,hpost,hsome⟩
      · rw [Function.update_of_ne hb] at hsome' ⊢
        exact h.postsApart a b hab hsome hsome'

/-- A call goes on and the committed tables stay. -/
theorem consistent_setCall {server : Server ι} {call : ι} {next : LikeClicked}
    (h : Consistent server) (hwrites : WritesOk server.committed next)
    (hrows : ∀ row ∈ next.writes.removed,
      row ∈ (server.calls call).writes.removed ∨ ¬RowLocked server call row)
    (hposts : next.writes.likeCount.isSome → ¬PostLocked server call next.postId) :
    Consistent (server.setCall call next) :=
  consistent_update h h.agrees (fun other _ => h.writes other) hwrites hrows hposts

end invariant

section steps

/-- Writing a counter leaves the likes rows alone. -/
theorem writeLikeCount_likes (committed : Committed) (postId : ℕ) (written : Option (Option ℤ)) :
    (committed.writeLikeCount postId written).likes=committed.likes := by
  cases written <;> rfl

/-- Before its commit a call wrote the counter of its post, if the post exists. -/
theorem WritesOk.likeCount {committed : Committed} {click : LikeClicked}
    (h : WritesOk committed click) (hstage : click.stage=.commit) :
    ∃ change,click.writes.likeCount=writtenCount committed click.postId change := by
  unfold WritesOk at h
  rw [hstage] at h
  rcases h with h|⟨row,_,_,h⟩ <;> rw [h]
  · exact ⟨oneMore,rfl⟩
  · exact ⟨oneLess,rfl⟩

/-- A committed counter leaves the posts row of a call alone that may have
changed it, since only one call can change it. -/
theorem postRow_writeLikeCount {before after : Committed} {postId other : ℕ}
    {change : Option ℤ → Option ℤ} (hposts : after.posts=before.posts)
    (h : other=postId → postRow before postId=none) :
    postRow (after.writeLikeCount postId (writtenCount before postId change)) other=
      postRow before other := by
  have hsame : postRow after other=postRow before other := by
    unfold postRow
    rw [hposts]
  unfold writtenCount
  cases hpost : postRow before postId with
  | none => exact hsame
  | some found =>
    have hother : other≠postId := fun heq => by
      rw [h heq] at hpost
      cases hpost
    exact (postRow_setLikeCount hother).trans hsame

variable {ι : Type} {server : Server ι} {call : ι}

/-- A call that wrote the counter of an existing post is the only one. -/
theorem Consistent.postRow_none (h : Consistent server) {other : ι} (hother : other≠call)
    (hcall : (server.calls call).stage=.commit) (hthere : (server.calls other).stage=.commit)
    (hpost : (server.calls other).postId=(server.calls call).postId) :
    postRow server.committed (server.calls call).postId=none := by
  obtain ⟨change,hwritten⟩ := (h.writes call).likeCount hcall
  obtain ⟨change',hwritten'⟩ := (h.writes other).likeCount hthere
  rw [hpost] at hwritten'
  cases hrow : postRow server.committed (server.calls call).postId with
  | none => rfl
  | some found =>
    refine absurd hpost (h.postsApart other call hother ?_ ?_)
    · rw [hwritten']
      unfold writtenCount
      rw [hrow]
      rfl
    · rw [hwritten]
      unfold writtenCount
      rw [hrow]
      rfl

variable [DecidableEq ι]

/-- A commit keeps the server consistent. -/
theorem commit_consistent (h : Consistent server) (hstage : (server.calls call).stage=.commit) :
    Consistent ⟨(server.calls call).apply server.committed,
      Function.update server.calls call
        {server.calls call with stage := .done, writes := noWrites}⟩ := by
  have hlone := fun (other : ι) (hother : other≠call) => h.postRow_none hother hstage
  have hwrites := h.writes call
  unfold WritesOk at hwrites
  rw [hstage] at hwrites
  refine consistent_update h ?_ ?_ rfl (fun row hmem => absurd hmem List.not_mem_nil)
    (fun hsome => nomatch hsome)
  · unfold LikeClicked.apply
    rcases hwrites with hwrites|⟨row,hrow,hid,hwrites⟩
    · rw [hwrites]
      exact agrees_like h.agrees _ _
    · rw [hwrites,←hid]
      exact agrees_unlike h.agrees hrow
  · intro other hother
    refine (h.writes other).stable (fun held hheld hmem => ?_) fun hthere => ?_
    · unfold LikeClicked.apply
      dsimp only
      rw [writeLikeCount_likes]
      rcases hwrites with hwrites|⟨row,hrow,hid,hwrites⟩
      · rw [hwrites]
        exact List.mem_append_left _ hmem
      · have hapart := h.rowsApart other call hother held hheld
        rw [hwrites] at hapart ⊢
        refine List.mem_filter.mpr ⟨hmem,decide_eq_true fun hkey => hapart ?_⟩
        rw [eq_of_key_eq server.committed.likes hmem hrow hkey]
        exact List.mem_cons_self
    · unfold LikeClicked.apply
      rcases hwrites with hwrites|⟨row,hrow,hid,hwrites⟩
      · rw [hwrites]
        exact postRow_writeLikeCount rfl fun hpost => hlone other hother hthere hpost
      · rw [hwrites]
        exact postRow_writeLikeCount rfl fun hpost => hlone other hother hthere hpost

/-- A statement that writes nothing moves a call that has written nothing on. -/
theorem unwritten_consistent (h : Consistent server) {stage : Stage}
    (hempty : (server.calls call).writes=noWrites)
    (hok : WritesOk server.committed {server.calls call with stage := stage}) :
    Consistent (server.setCall call {server.calls call with stage := stage}) := by
  refine consistent_setCall h hok (fun row hmem => Or.inl hmem) fun hsome => ?_
  dsimp only at hsome
  rw [hempty] at hsome
  cases hsome

variable [Fintype ι]

/-- A call that gets the lock of its post writes its counter last. -/
theorem updateLikeCount_consistent (h : Consistent server) {change : Option ℤ → Option ℤ}
    {next : Server ι} (hstep : updateLikeCount server call change=some next)
    (hwrites : WritesOk server.committed
      {server.calls call with
        stage := .commit,
        writes := {(server.calls call).writes with
          likeCount := writtenCount server.committed (server.calls call).postId change}}) :
    Consistent next := by
  unfold updateLikeCount at hstep
  dsimp only at hstep
  split at hstep
  · cases hstep
  · next hfree =>
    cases hstep
    exact consistent_setCall h hwrites (fun row hmem => Or.inl hmem) fun _ => hfree

/-- The delete of a call that found one row keeps the server consistent,
whether it still has to lock the row or already holds it. -/
theorem deleting_consistent (h : Consistent server) (hone : RemovesOne server (.proceed call))
    {rows : List LikeRow} (hstage : (server.calls call).stage=.deleting rows) {next : Server ι}
    (hstep : proceed server call=some next) : Consistent next := by
  have hwrites := h.writes call
  unfold proceed at hstep
  unfold RemovesOne at hone
  unfold WritesOk at hwrites
  dsimp only at hstep hone
  rw [hstage] at hstep hwrites hone
  obtain ⟨row,hid,⟨rfl,hempty⟩|⟨rfl,hrow,hheld⟩⟩ := hwrites
  · dsimp only at hstep hone
    split at hstep
    · cases hstep
    · next hfree =>
      cases hstep
      rw [hempty]
      refine consistent_setCall h ⟨row,hid,Or.inr ⟨rfl,hone,rfl⟩⟩ (fun other hmem => ?_)
        fun hsome => nomatch hsome
      rw [List.mem_singleton.mp hmem]
      exact Or.inr hfree
  · cases hstep
    refine consistent_setCall h ⟨row,hrow,hid,hheld⟩ (fun other hmem => Or.inl hmem)
      fun hsome => ?_
    dsimp only at hsome
    rw [hheld] at hsome
    cases hsome

/-- Every statement of a call keeps the server consistent, when its delete
removes one row. -/
theorem proceed_consistent (h : Consistent server) (hone : RemovesOne server (.proceed call))
    {next : Server ι} (hstep : proceed server call=some next) : Consistent next := by
  have hwrites := h.writes call
  have hmove := hstep
  have hremoves := hone
  unfold proceed at hstep
  unfold RemovesOne at hone
  unfold WritesOk at hwrites
  dsimp only at hstep hone
  cases hstage : (server.calls call).stage with
  | start =>
    rw [hstage] at hstep hwrites
    cases hstep
    exact unwritten_consistent h hwrites hwrites
  | isExists =>
    rw [hstage] at hstep hwrites
    cases hstep
    refine unwritten_consistent h hwrites ?_
    split
    · exact hwrites
    · exact hwrites
  | addLikeFirst =>
    rw [hstage] at hstep hwrites
    dsimp only at hwrites
    cases hstep
    rw [hwrites]
    exact consistent_setCall h rfl (fun row hmem => absurd hmem List.not_mem_nil)
      fun hsome => nomatch hsome
  | addLikeSecond =>
    rw [hstage] at hstep hwrites
    dsimp only at hwrites
    refine updateLikeCount_consistent h hstep (Or.inl ?_)
    rw [hwrites]
  | delLikeFirst =>
    rw [hstage] at hstep hwrites hone
    cases hstep
    obtain ⟨row,hrow⟩ := List.length_eq_one_iff.mp hone
    have hmem : row ∈ matching server.committed (server.calls call).postId
        (server.calls call).userId := by
      rw [hrow]
      exact List.mem_cons_self
    have hid := (of_decide_eq_true (List.mem_filter.mp hmem).2).1
    exact unwritten_consistent h hwrites ⟨row,hid,Or.inl ⟨hrow,hwrites⟩⟩
  | deleting rows => exact deleting_consistent h hremoves hstage hmove
  | delLikeSecond =>
    rw [hstage] at hstep hwrites
    obtain ⟨row,hrow,hid,hheld⟩ := hwrites
    refine updateLikeCount_consistent h hstep (Or.inr ⟨row,hrow,hid,?_⟩)
    rw [hheld]
  | commit =>
    rw [hstage] at hstep
    cases hstep
    exact commit_consistent h hstage
  | done =>
    rw [hstage] at hstep
    cases hstep
  | failed =>
    rw [hstage] at hstep
    cases hstep

/-- A failing call leaves the server consistent. -/
theorem fail_consistent (h : Consistent server) {next : Server ι}
    (hstep : step server (.fail call)=some next) : Consistent next := by
  have hfailed : Consistent (server.setCall call
      {server.calls call with stage := .failed, writes := noWrites}) :=
    consistent_setCall h rfl (fun row hmem => absurd hmem List.not_mem_nil) fun hsome => nomatch hsome
  unfold step at hstep
  dsimp only at hstep
  cases hstage : (server.calls call).stage <;> rw [hstage] at hstep <;> cases hstep <;> exact hfailed

/-- Every permitted move keeps the server consistent. -/
theorem step_consistent {move : Move ι} {next : Server ι} (h : Consistent server)
    (hone : RemovesOne server move) (hstep : step server move=some next) : Consistent next := by
  cases move with
  | proceed call => exact proceed_consistent h hone hstep
  | fail call => exact fail_consistent h hstep

end steps

section runs

variable {ι : Type}

/-- Before the first call begins the server is consistent. -/
theorem clicked_consistent {committed : Committed} (h : Agrees committed) (clicks : ι → ℕ×ℕ) :
    Consistent (clicked committed clicks) where
  agrees := h
  writes _ := rfl
  rowsApart _ _ _ _ hmem := absurd hmem List.not_mem_nil
  postsApart _ _ _ hsome := nomatch hsome

variable [Fintype ι] [DecidableEq ι]

/-- However any number of clicks interleave and fail, the counters agree with
the likes rows as long as every delete removes exactly one row. -/
theorem clicks_agree {committed : Committed} (hagrees : Agrees committed) (clicks : ι → ℕ×ℕ)
    {schedule : List (Move ι)} {final : Server ι}
    (hone : EachMeets step RemovesOne (clicked committed clicks) schedule)
    (hrun : run step (clicked committed clicks) schedule=some final) : Agrees final.committed :=
  (run_invariant (fun _ _ _ h hone hstep => step_consistent h hone hstep)
    (clicked_consistent hagrees clicks) hone hrun).agrees

/-- A post with one like. -/
def likedOnce : Committed :=
  ⟨⟨[⟨1,some 1⟩],2,by decide,by decide⟩,⟨[⟨1,1,7⟩],2,by decide,by decide⟩⟩

/-- Two users click it, the second while the first takes the like back. -/
def mixedClicks : List (Move Bool) :=
  [.proceed false,.proceed true,.proceed true,.proceed false,.proceed false,.proceed true,
    .proceed false,.proceed false,.proceed false,.proceed false,.proceed true,.proceed true]

/-- One user clicks it twice, and both calls find the like. -/
def doubleClicks : List (Move Bool) :=
  [.proceed false,.proceed true,.proceed false,.proceed true,.proceed false,.proceed false,
    .proceed false,.proceed false,.proceed false,.proceed true,.proceed true,.proceed true,
    .proceed true]

/-- The clicks of two users keep the counter. -/
theorem clicks_agree_two_users :
    ∃ final,run step (clicked likedOnce fun call => (1,if call then 8 else 7)) mixedClicks=some final ∧
      NoneOpen final ∧ Agrees final.committed := by
  have hone : EachMeets step RemovesOne
      (clicked likedOnce fun call => (1,if call then 8 else 7)) mixedClicks := by decide +kernel
  exact ⟨_,rfl,by decide +kernel,clicks_agree (by decide +kernel) _ hone rfl⟩

/-- The double click of one user leaves a post without likes that counts minus one. -/
theorem double_click_miscounts :
    Agrees likedOnce ∧ AtMostOneLike likedOnce ∧
      ∃ final,run step (clicked likedOnce fun _ => (1,7)) doubleClicks=some final ∧
        NoneOpen final ∧ ¬Agrees final.committed :=
  ⟨by decide +kernel,List.pairwise_singleton _ _,_,rfl,by decide +kernel,by decide +kernel⟩

end runs

end Photogram.LikeCounters
