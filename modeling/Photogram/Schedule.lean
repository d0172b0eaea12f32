import Mathlib.Data.Nat.Notation

/-!
# Runs along a schedule

A system takes one move after another; a move that is not possible in a
state has no successor. A schedule is a list of moves, in any order an
adversary likes. What every permitted move keeps holds wherever a schedule of
permitted moves leads.
-/

namespace Photogram.Schedule

variable {σ μ : Type} (step : σ → μ → Option σ)

/-- State behind a schedule whose moves are all possible. -/
def run : σ → List μ → Option σ
  | state,[] => some state
  | state,move::rest =>
    match step state move with
    | some next => run next rest
    | none => none

/-- Every move of the schedule meets a condition in the state it is taken in. -/
def EachMeets (condition : σ → μ → Prop) : σ → List μ → Prop
  | _,[] => True
  | state,move::rest =>
    condition state move ∧
      match step state move with
      | some next => EachMeets condition next rest
      | none => True

/-- Conditions that can be decided move by move can be decided along a schedule. -/
def decideEachMeets (condition : σ → μ → Prop) [∀ state move,Decidable (condition state move)] :
    (state : σ) → (schedule : List μ) → Decidable (EachMeets step condition state schedule)
  | _,[] => isTrue trivial
  | state,move::rest =>
    have : Decidable (match step state move with
        | some next => EachMeets step condition next rest
        | none => True) :=
      match step state move with
      | some next => decideEachMeets condition next rest
      | none => isTrue trivial
    inferInstanceAs (Decidable (_ ∧ _))

instance (condition : σ → μ → Prop) [∀ state move,Decidable (condition state move)]
    (state : σ) (schedule : List μ) : Decidable (EachMeets step condition state schedule) :=
  decideEachMeets step condition state schedule

variable {step}

/-- A schedule is run in parts. -/
theorem run_append (state : σ) (first rest : List μ) :
    run step state (first++rest)=(run step state first).bind fun next => run step next rest := by
  induction first generalizing state with
  | nil => rfl
  | cons move first ih =>
    simp only [List.cons_append,run]
    cases step state move with
    | none => rfl
    | some next => exact ih next

/-- A condition every move meets is met along every schedule. -/
theorem eachMeets_always {condition : σ → μ → Prop} (h : ∀ state move,condition state move)
    (state : σ) (schedule : List μ) : EachMeets step condition state schedule := by
  induction schedule generalizing state with
  | nil => trivial
  | cons move rest ih =>
    unfold EachMeets
    refine ⟨h state move,?_⟩
    cases step state move with
    | none => trivial
    | some next => exact ih next

/-- Moves that meet a condition in every state meet it along a schedule. -/
theorem eachMeets_of_forall {condition : μ → Prop} {schedule : List μ}
    (h : ∀ move ∈ schedule,condition move) (state : σ) :
    EachMeets step (fun _ move => condition move) state schedule := by
  induction schedule generalizing state with
  | nil => trivial
  | cons move rest ih =>
    obtain ⟨hfirst,hrest⟩ := List.forall_mem_cons.mp h
    unfold EachMeets
    refine ⟨hfirst,?_⟩
    cases step state move with
    | none => trivial
    | some next => exact ih hrest next

/-- A condition on a schedule is one on both of its parts. -/
theorem EachMeets.append {condition : σ → μ → Prop} {state next : σ} {first rest : List μ}
    (h : EachMeets step condition state (first++rest)) (hrun : run step state first=some next) :
    EachMeets step condition state first ∧ EachMeets step condition next rest := by
  induction first generalizing state with
  | nil =>
    cases hrun
    exact ⟨trivial,h⟩
  | cons move first ih =>
    obtain ⟨hmove,hbehind⟩ := h
    unfold run at hrun
    cases hstep : step state move with
    | none =>
      rw [hstep] at hrun
      cases hrun
    | some reached =>
      rw [hstep] at hrun hbehind
      obtain ⟨hfirst,hrest⟩ := ih hbehind hrun
      refine ⟨⟨hmove,?_⟩,hrest⟩
      rw [hstep]
      exact hfirst

/-- An invariant of the permitted moves holds behind every permitted schedule. -/
theorem run_invariant {condition : σ → μ → Prop} {invariant : σ → Prop}
    (hkeep : ∀ state move next,invariant state → condition state move →
      step state move=some next → invariant next)
    {state final : σ} {schedule : List μ} (hstate : invariant state)
    (h : EachMeets step condition state schedule) (hrun : run step state schedule=some final) :
    invariant final := by
  induction schedule generalizing state with
  | nil =>
    cases hrun
    exact hstate
  | cons move rest ih =>
    unfold run at hrun
    unfold EachMeets at h
    cases hstep : step state move with
    | none =>
      rw [hstep] at hrun
      cases hrun
    | some next =>
      rw [hstep] at hrun
      have hrest := h.2
      rw [hstep] at hrest
      exact ih (hkeep _ _ _ hstate h.1 hstep) hrest hrun

/-- A property holds in every state along a schedule. -/
def Throughout (step : σ → μ → Option σ) (property : σ → Prop) (state : σ) (schedule : List μ) :
    Prop :=
  ∀ before after reached,schedule=before++after → run step state before=some reached →
    property reached

/-- An empty schedule reaches its start only. -/
theorem throughout_nil {property : σ → Prop} {state : σ} :
    Throughout step property state [] ↔ property state := by
  constructor
  · exact fun h => h [] [] state rfl rfl
  · intro h before after reached happend hrun
    rw [(List.append_eq_nil_iff.mp happend.symm).1] at hrun
    cases hrun
    exact h

/-- A schedule reaches its start and what the rest of it reaches behind its
first move. -/
theorem throughout_cons {property : σ → Prop} {state next : σ} {move : μ} {rest : List μ}
    (hstep : step state move=some next) :
    Throughout step property state (move::rest) ↔
      property state ∧ Throughout step property next rest := by
  have hrun : ∀ before,run step state (move::before)=run step next before := by
    intro before
    change (match step state move with
      | some next => run step next before
      | none => none)=_
    rw [hstep]
  constructor
  · intro h
    refine ⟨h [] _ state rfl rfl,fun before after reached happend hreached => ?_⟩
    exact h (move::before) after reached (congrArg (move::·) happend)
      ((hrun before).trans hreached)
  · rintro ⟨hstate,hrest⟩ before after reached happend hreached
    cases before with
    | nil =>
      cases hreached
      exact hstate
    | cons first before =>
      obtain ⟨rfl,htail⟩ := List.cons.inj happend
      exact hrest before after reached htail ((hrun before).symm.trans hreached)

/-- Where a move keeps a property exactly under a condition, and an invariant
always, the property holds along a schedule exactly when each move meets the
condition. -/
theorem throughout_iff {condition : σ → μ → Prop} {property invariant : σ → Prop}
    (hkeep : ∀ state move next,invariant state → step state move=some next → invariant next)
    (hexact : ∀ state move next,invariant state → property state → step state move=some next →
      (property next ↔ condition state move))
    {state final : σ} {schedule : List μ} (hinvariant : invariant state) (hstate : property state)
    (hrun : run step state schedule=some final) :
    Throughout step property state schedule ↔ EachMeets step condition state schedule := by
  induction schedule generalizing state with
  | nil => exact iff_of_true (throughout_nil.mpr hstate) trivial
  | cons move rest ih =>
    unfold run at hrun
    unfold EachMeets
    cases hstep : step state move with
    | none =>
      rw [hstep] at hrun
      cases hrun
    | some next =>
      rw [hstep] at hrun
      rw [throughout_cons hstep,and_iff_right hstate]
      have hnext := hexact _ _ _ hinvariant hstate hstep
      constructor
      · intro h
        have hproperty : property next := h [] _ next rfl rfl
        exact ⟨hnext.mp hproperty,(ih (hkeep _ _ _ hinvariant hstep) hproperty hrun).mp h⟩
      · rintro ⟨hcondition,h⟩
        exact (ih (hkeep _ _ _ hinvariant hstep) (hnext.mpr hcondition) hrun).mpr h

/-- An invariant of every move holds in every state along a schedule. -/
theorem throughout_invariant {invariant : σ → Prop}
    (hkeep : ∀ state move next,invariant state → step state move=some next → invariant next)
    {state : σ} (hstate : invariant state) (schedule : List μ) :
    Throughout step invariant state schedule := fun _ _ _ _ hrun =>
  run_invariant (fun state move next hinvariant _ hstep => hkeep state move next hinvariant hstep)
    hstate (eachMeets_always (fun _ _ => trivial) state _) hrun

section ledgers

variable {χ α : Type} (step) (report : σ → μ → List χ)

/-- What the moves of a schedule report, one behind the other. -/
def ledger : σ → List μ → List χ
  | _,[] => []
  | state,move::rest =>
    report state move++match step state move with
      | some next => ledger next rest
      | none => []

variable {step report}

/-- Where each step does to an abstraction what it reports, a run does to it
what its ledger says. -/
theorem run_ledger {invariant : σ → Prop} {abstract : σ → α} {apply : α → χ → α}
    (hkeep : ∀ state move next,invariant state → step state move=some next → invariant next)
    (hreport : ∀ state move next,invariant state → step state move=some next →
      abstract next=(report state move).foldl apply (abstract state))
    {state final : σ} {schedule : List μ} (hstate : invariant state)
    (hrun : run step state schedule=some final) :
    abstract final=(ledger step report state schedule).foldl apply (abstract state) := by
  induction schedule generalizing state with
  | nil =>
    cases hrun
    rfl
  | cons move rest ih =>
    unfold run at hrun
    unfold ledger
    cases hstep : step state move with
    | none =>
      rw [hstep] at hrun
      cases hrun
    | some next =>
      rw [hstep] at hrun
      rw [List.foldl_append,←hreport state move next hstate hstep]
      exact ih (hkeep state move next hstate hstep) hrun

end ledgers

section histories

variable {β χ : Type} {report : σ → μ → List χ}

/-- A run goes on with one more move. -/
theorem run_concat {start state next : σ} {taken : List μ} {move : μ}
    (hrun : run step start taken=some state) (hstep : step state move=some next) :
    run step start (taken++[move])=some next := by
  rw [run_append,hrun]
  change (match step state move with
    | some next => run step next []
    | none => none)=_
  rw [hstep]
  rfl

/-- What holds of no move and the start, and stays with each further move, holds
of every schedule and the state it leads to. -/
theorem run_history {start final : σ} {holds : List μ → σ → Prop} (hstart : holds [] start)
    (hkeep : ∀ taken state move next,run step start taken=some state → holds taken state →
      step state move=some next → holds (taken++[move]) next)
    {schedule : List μ} (hrun : run step start schedule=some final) : holds schedule final := by
  have hfrom : ∀ (rest taken : List μ) (state : σ),run step start taken=some state →
      holds taken state → run step state rest=some final → holds (taken++rest) final := by
    intro rest
    induction rest with
    | nil =>
      intro taken state _ hstate hend
      cases hend
      rwa [List.append_nil]
    | cons move rest ih =>
      intro taken state htaken hstate hrest
      unfold run at hrest
      cases hstep : step state move with
      | none =>
        rw [hstep] at hrest
        cases hrest
      | some next =>
        rw [hstep] at hrest
        rw [←List.singleton_append,←List.append_assoc]
        exact ih _ next (run_concat htaken hstep) (hkeep taken state move next htaken hstate hstep)
          hrest
  exact hfrom schedule [] start rfl hstart hrun

/-- Where each step adds to a record what it reports of a kind, the record of a
run is what its ledger has of that kind. -/
theorem run_recorded {record : σ → List β} {pick : χ → Option β}
    (hreport : ∀ state move next,step state move=some next →
      record next=record state++(report state move).filterMap pick)
    {state final : σ} {schedule : List μ} (hrun : run step state schedule=some final) :
    record final=record state++(ledger step report state schedule).filterMap pick := by
  induction schedule generalizing state with
  | nil =>
    cases hrun
    exact (List.append_nil _).symm
  | cons move rest ih =>
    unfold run at hrun
    unfold ledger
    cases hstep : step state move with
    | none =>
      rw [hstep] at hrun
      cases hrun
    | some next =>
      rw [hstep] at hrun
      rw [List.filterMap_append,←List.append_assoc,←hreport state move next hstep]
      exact ih hrun

end histories

section simulations

variable {σ' μ' : Type} {plain : σ' → μ' → Option σ'} {abstract : σ → σ'}
  {translate : σ → μ → Option μ'}

/-- Where each step is a step of a plainer system or none of its steps, a run is
one of its runs, under the conditions that its moves are translated to. -/
theorem run_simulated {condition : σ' → μ' → Prop}
    (hstep : ∀ state move next,step state move=some next →
      run plain (abstract state) (translate state move).toList=some (abstract next))
    {state final : σ} {schedule : List μ} (hrun : run step state schedule=some final) :
    ∃ moves,run plain (abstract state) moves=some (abstract final) ∧
      (EachMeets step (fun state move => ∀ plainer ∈ translate state move,
        condition (abstract state) plainer) state schedule →
        EachMeets plain condition (abstract state) moves) := by
  induction schedule generalizing state with
  | nil =>
    cases hrun
    exact ⟨[],rfl,fun _ => trivial⟩
  | cons move rest ih =>
    unfold run at hrun
    cases hfirst : step state move with
    | none =>
      rw [hfirst] at hrun
      cases hrun
    | some next =>
      rw [hfirst] at hrun
      obtain ⟨moves,hmoves,hconditions⟩ := ih hrun
      have hplain := hstep state move next hfirst
      cases htranslate : translate state move with
      | none =>
        rw [htranslate] at hplain
        have hsame : abstract state=abstract next := Option.some.inj hplain
        rw [hsame]
        refine ⟨moves,hmoves,fun hmeets => hconditions ?_⟩
        unfold EachMeets at hmeets
        rw [hfirst] at hmeets
        exact hmeets.2
      | some plainer =>
        rw [htranslate] at hplain
        have htaken : plain (abstract state) plainer=some (abstract next) := by
          change (match plain (abstract state) plainer with
            | some next => run plain next []
            | none => none)=_ at hplain
          split at hplain
          · next reached hreached => exact hreached.trans hplain
          · cases hplain
        refine ⟨plainer::moves,?_,fun hmeets => ?_⟩
        · unfold run
          rw [htaken]
          exact hmoves
        · unfold EachMeets at hmeets ⊢
          rw [hfirst] at hmeets
          rw [htaken]
          exact ⟨hmeets.1 plainer htranslate,hconditions hmeets.2⟩

end simulations

end Photogram.Schedule
