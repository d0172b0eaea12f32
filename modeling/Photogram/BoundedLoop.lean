import Mathlib.Logic.Relation
import Mathlib.Order.OrderIsoNat
import Mathlib.Data.Nat.Notation

/-!
# Loops that end

A round of a loop fails, ends it with a result, or leaves a state for the
next round. The loop itself runs with a bound on its rounds. When every state
left by a round has a measure that the next round lowers, no run of rounds is
infinite, whatever the first state is, and a bound beyond the measure lets the
loop answer.
-/

namespace Photogram.BoundedLoop

variable {σ ρ ε : Type*}

/-- The loop of a round, with a bound on the rounds. -/
def loop (round : σ → Except ε (ρ⊕σ)) : ℕ → σ → Option (Except ε ρ)
  | 0,_ => none
  | bound+1,state =>
    match round state with
    | .error failure => some (.error failure)
    | .ok (.inl result) => some (.ok result)
    | .ok (.inr next) => loop round bound next

/-- A round leaves the next state. -/
def Next (round : σ → Except ε (ρ⊕σ)) (state next : σ) : Prop := round state=.ok (.inr next)

/-- A round of the loop is entered in a state. -/
def Visited (round : σ → Except ε (ρ⊕σ)) (first state : σ) : Prop :=
  Relation.ReflTransGen (Next round) first state

/-- The round taken in a state is the last one, with the answer of the loop. -/
def Ends (round : σ → Except ε (ρ⊕σ)) (state : σ) : Except ε ρ → Prop
  | .error failure => round state=.error failure
  | .ok result => round state=.ok (.inl result)

/-- Rounds leave settled states only, and each round lowers the measure of a
settled state. -/
structure Settles (round : σ → Except ε (ρ⊕σ)) (settled : σ → Prop) (measure : σ → ℕ) : Prop where
  /-- What a round leaves is settled. -/
  leaves : ∀ state next,Next round state next → settled next
  /-- From a settled state on the measure falls. -/
  falls : ∀ state next,settled state → Next round state next → measure next < measure state

variable {round : σ → Except ε (ρ⊕σ)} {settled : σ → Prop} {measure : σ → ℕ}

/-- A condition that rounds keep holds in every visited state. -/
theorem visited_invariant {invariant : σ → Prop}
    (hkeep : ∀ state next,invariant state → Next round state next → invariant next)
    {first state : σ} (hfirst : invariant first) (h : Visited round first state) :
    invariant state := by
  induction h with
  | refl => exact hfirst
  | tail _ hnext ih => exact hkeep _ _ ih hnext

/-- The loop answers what the round of a visited state ends with. -/
theorem loop_visited {bound : ℕ} {first : σ} {answer : Except ε ρ}
    (h : loop round bound first=some answer) :
    ∃ last,Visited round first last ∧ Ends round last answer := by
  induction bound generalizing first with
  | zero => cases h
  | succ bound ih =>
    unfold loop at h
    split at h
    · next failure hround =>
      cases h
      exact ⟨first,Relation.ReflTransGen.refl,hround⟩
    · next result hround =>
      cases h
      exact ⟨first,Relation.ReflTransGen.refl,hround⟩
    · next next hround =>
      obtain ⟨last,hlast,hends⟩ := ih h
      exact ⟨last,Relation.ReflTransGen.head hround hlast,hends⟩

/-- From a settled state the loop answers within its measure. -/
theorem loop_isSome_of_settled (h : Settles round settled measure) {bound : ℕ} {state : σ}
    (hstate : settled state) (hbound : measure state<bound) : (loop round bound state).isSome := by
  induction bound generalizing state with
  | zero => omega
  | succ bound ih =>
    unfold loop
    split
    · rfl
    · rfl
    · next next hround =>
      have hfall := h.falls state next hstate hround
      exact ih (h.leaves state next hround) (by omega)

/-- From any state the loop answers within one round more than the measure of
every settled state. -/
theorem loop_isSome (h : Settles round settled measure) {bound : ℕ}
    (hbound : ∀ state,settled state → measure state<bound) (first : σ) :
    (loop round (bound+1) first).isSome := by
  unfold loop
  split
  · rfl
  · rfl
  · next next hround =>
    have hnext := h.leaves first next hround
    exact loop_isSome_of_settled h hnext (hbound next hnext)

/-- A settled state is accessible by rounds taken backwards. -/
theorem acc_of_settled (h : Settles round settled measure) {state : σ} (hstate : settled state) :
    Acc (fun next state => Next round state next) state := by
  induction hm : measure state using Nat.strong_induction_on generalizing state with
  | _ m ih =>
    refine ⟨_,fun next hround => ?_⟩
    have hfall := h.falls state next hstate hround
    exact ih _ (by omega) (h.leaves state next hround) rfl

/-- No run of rounds goes on for ever. -/
theorem no_infinite_run (h : Settles round settled measure) (first : σ) :
    ¬∃ states : ℕ → σ,states 0=first ∧ ∀ n,Next round (states n) (states (n+1)) := by
  rintro ⟨states,_,hsteps⟩
  have hsettled := h.leaves _ _ (hsteps 0)
  have hchain := acc_iff_isEmpty_descending_chain.mp (acc_of_settled h hsettled)
  exact hchain.false ⟨fun n => states (n+1),rfl,fun n => hsteps (n+1)⟩

end Photogram.BoundedLoop
