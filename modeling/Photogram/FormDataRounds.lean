import Photogram.BoundedLoop
import Photogram.FormDataParser

/-!
# Rounds of the form reader

The do-while loop of FormDataParser::getContent, one round at a time. When the
boundary is missing the first round computes its positions from a failed
search, so that they wrap and the reader starts again near the front of the
body. Every later round starts from a boundary that was found, and the next
one is found strictly behind it.
-/

namespace Photogram.FormDataRounds

open CxxString FormDataParser BoundedLoop

/-- Variables of the loop over the delimiters. -/
structure LoopState where
  /-- Start of the part. -/
  startP : ℕ
  /-- Position of the delimiter behind the part. -/
  finishP : ℕ
  /-- Fields stored so far. -/
  output : FieldMap

/-- One round of the loop: the statements of its body, then its condition. -/
def contentRound (body boundary : Bytes) (state : LoopState) : Except Failure (FieldMap⊕LoopState) := do
  let finishP := subSize state.finishP 1
  let output ← addProperty body state.startP finishP state.output
  let startP := addSize (addSize (addSize finishP 1) boundary.length) 2
  let finishP := find body boundary startP
  return if finishP=npos then .inl output else .inr ⟨startP,finishP,output⟩

/-- Variables of the loop when it is entered. -/
def firstState (body boundary : Bytes) (output : FieldMap) : LoopState :=
  let startP := addSize (addSize (find body boundary 0) boundary.length) 2
  ⟨startP,find body boundary startP,output⟩

variable {body boundary : Bytes}

/-- The loop of the reader is the loop of its rounds. -/
theorem contentLoop_eq_loop (fuel : ℕ) (state : LoopState) :
    contentLoop body boundary fuel state.startP state.finishP state.output=
      loop (contentRound body boundary) fuel state := by
  induction fuel generalizing state with
  | zero => rfl
  | succ fuel ih =>
    unfold contentLoop loop contentRound
    dsimp only
    cases addProperty body state.startP (subSize state.finishP 1) state.output with
    | error failure => rfl
    | ok output =>
      rw [ok_bind]
      generalize addSize (addSize (addSize (subSize state.finishP 1) 1) boundary.length) 2=startP
      by_cases hfound : find body boundary startP=npos
      · simp only [if_pos hfound,pure,Except.pure]
      · simp only [if_neg hfound,pure,Except.pure]
        exact ih ⟨startP,find body boundary startP,output⟩

/-- What a round that is not the last one did. -/
theorem next_cases {state next : LoopState} (h : Next (contentRound body boundary) state next) :
    addProperty body state.startP (subSize state.finishP 1) state.output=.ok next.output ∧
    next.startP=addSize (addSize (addSize (subSize state.finishP 1) 1) boundary.length) 2 ∧
    find? body boundary next.startP=some next.finishP := by
  obtain ⟨output,houtput,hrest⟩ := bind_eq_ok h
  dsimp only [pure,Except.pure] at hrest
  split at hrest
  · cases hrest
  · next hfound =>
    cases hrest
    refine ⟨houtput,rfl,?_⟩
    dsimp only
    cases hfind : find? body boundary
        (addSize (addSize (addSize (subSize state.finishP 1) 1) boundary.length) 2) with
    | none => exact absurd (find_of_none hfind) hfound
    | some p => rw [find_of_some hfind]

/-- A round fails when its part cannot be stored. -/
theorem contentRound_raises {state : LoopState} {failure : Failure}
    (h : contentRound body boundary state=.error failure) :
    addProperty body state.startP (subSize state.finishP 1) state.output=.error failure := by
  unfold contentRound at h
  dsimp only at h
  cases hpart : addProperty body state.startP (subSize state.finishP 1) state.output with
  | error failure =>
    rw [hpart,error_bind] at h
    cases h
    rfl
  | ok output =>
    rw [hpart] at h
    cases h

/-- Every state a round leaves refers to a delimiter inside the body. -/
def Delimited (body boundary : Bytes) (state : LoopState) : Prop :=
  state.finishP+boundary.length ≤ body.length

/-- Behind a delimiter inside the body the positions do not wrap, and the next
delimiter stands strictly further on. -/
theorem next_behind (hbody : body.length ≤ maxSize) {state next : LoopState}
    (hstate : Delimited body boundary state) (h : Next (contentRound body boundary) state next) :
    next.startP=state.finishP+boundary.length+2 ∧ next.startP ≤ next.finishP := by
  have hm : maxSize+2<sizeModulus := by decide
  obtain ⟨_,hstart,hfind⟩ := next_cases h
  unfold Delimited at hstate
  rw [addSize_subSize_one (by omega),addSize_eq (b:=boundary.length) (by omega),
    addSize_eq (by omega)] at hstart
  exact ⟨hstart,(find?_bounds hfind).1⟩

/-- From the second round on the bytes behind the delimiter become fewer. -/
theorem contentRound_settles (boundary : Bytes) (hbody : body.length ≤ maxSize) :
    Settles (contentRound body boundary) (Delimited body boundary)
      (fun state => body.length-(state.finishP+boundary.length)) where
  leaves state next h := (find?_bounds (next_cases h).2.2).2
  falls state next hstate h := by
    obtain ⟨hstart,hle⟩ := next_behind hbody hstate h
    have hnext := (find?_bounds (next_cases h).2.2).2
    unfold Delimited at hstate
    omega

/-- A delimiter has its two hyphens, and little more than the Content-Type has bytes. -/
theorem getBoundary_length {contentType : Bytes} (h : getBoundary contentType=.ok boundary) :
    2 ≤ boundary.length ∧ boundary.length ≤ contentType.length+2 := by
  unfold getBoundary at h
  cases hrest : substr contentType (addSize (find contentType (ascii "=") 0) 1) npos with
  | error failure =>
    rw [hrest] at h
    cases h
  | ok rest =>
    rw [hrest] at h
    cases h
    have hlength := substr_length_le hrest
    have htwo : (ascii "--"++rest).length=2+rest.length := List.length_append
    omega

/-- The delimiter is read from every Content-Type: without an equals sign the
position behind it wraps to the front. -/
theorem getBoundary_ok (contentType : CxxText) : ∃ boundary,getBoundary contentType.bytes=.ok boundary := by
  have hm : maxSize+1<sizeModulus := by decide
  have hlegal := contentType.size_le
  have hinside : addSize (find contentType.bytes (ascii "=") 0) 1 ≤ contentType.bytes.length := by
    cases hfind : find? contentType.bytes (ascii "=") 0 with
    | none =>
      have hwrap : addSize npos 1=0 := by decide
      rw [find_of_none hfind,hwrap]
      exact Nat.zero_le _
    | some p =>
      have hend : p+1 ≤ contentType.bytes.length := (find?_bounds hfind).2
      rw [find_of_some hfind,addSize_eq (by omega)]
      exact hend
  unfold getBoundary
  rw [substr_of_le _ hinside]
  exact ⟨_,rfl⟩

/-- Reading a form is running the rounds of its delimiter. -/
theorem getContent_eq_loop {contentType : Bytes} (h : getBoundary contentType=.ok boundary)
    (body : Bytes) (output : FieldMap) :
    getContent contentType body output=
      loop (contentRound body boundary) (body.length+1) (firstState body boundary output) := by
  unfold getContent
  rw [h]
  exact contentLoop_eq_loop _ (firstState body boundary output)

/-- The loop over the delimiters of a form ends. -/
theorem getContent_isSome {contentType : Bytes} (htype : contentType.length ≤ maxSize)
    (hbody : body.length ≤ maxSize) (output : FieldMap) :
    (getContent contentType body output).isSome := by
  obtain ⟨boundary,hboundary⟩ := getBoundary_ok ⟨contentType,htype⟩
  have hlength := (getBoundary_length hboundary).1
  rw [getContent_eq_loop hboundary]
  refine loop_isSome (contentRound_settles _ hbody) (fun state hstate => ?_) _
  unfold Delimited at hstate
  omega

/-- For every body and every Content-Type the loop of the reader ends: no run
of its rounds is infinite, and the last round ends it by its condition or by
the exception of a position beyond the end. -/
theorem content_rounds_end (contentType body : CxxText) (output : FieldMap) :
    ∃ boundary,getBoundary contentType.bytes=.ok boundary ∧
      (¬∃ states : ℕ → LoopState,states 0=firstState body.bytes boundary output ∧
        ∀ n,Next (contentRound body.bytes boundary) (states n) (states (n+1))) ∧
      ∃ last,Visited (contentRound body.bytes boundary) (firstState body.bytes boundary output) last ∧
        ((∃ fields,contentRound body.bytes boundary last=.ok (.inl fields) ∧
            getContent contentType.bytes body.bytes output=some (.ok fields)) ∨
          (addProperty body.bytes last.startP (subSize last.finishP 1) last.output=
              .error (.thrown .outOfRange) ∧
            getContent contentType.bytes body.bytes output=some (.error (.thrown .outOfRange)))) := by
  obtain ⟨boundary,hboundary⟩ := getBoundary_ok contentType
  have hsettles := contentRound_settles boundary body.size_le
  refine ⟨boundary,hboundary,no_infinite_run hsettles _,?_⟩
  obtain ⟨answer,hanswer⟩ := Option.isSome_iff_exists.mp
    (getContent_isSome contentType.size_le body.size_le output)
  have hraises := raisesOnly_getContent hanswer
  rw [getContent_eq_loop hboundary] at hanswer ⊢
  obtain ⟨last,hvisited,hends⟩ := loop_visited hanswer
  refine ⟨last,hvisited,?_⟩
  cases answer with
  | ok fields => exact Or.inl ⟨fields,hends,hanswer⟩
  | error failure =>
    cases hraises failure rfl
    exact Or.inr ⟨contentRound_raises hends,hanswer⟩

end Photogram.FormDataRounds
