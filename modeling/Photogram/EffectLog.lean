import Photogram.CxxString

/-!
# Calls with effects, exceptions and a log of observable events

A call runs in a world it may change, reports the events an observer sees,
and returns or fails. What it did before failing stays done and stays in
the log, so a try block keeps the effects of its body. One judgement talks
about calls without running them: from the worlds of a precondition, which
events a call may show and what holds of the value and the world it returns
with. Its two one-sided forms forget either half.
-/

namespace Photogram.EffectLog

open CxxString

/-- What a call left behind. -/
structure Ran (σ ε α : Type) where
  /-- Returned value, or how the call failed. -/
  outcome : Except Failure α
  /-- The world afterwards. -/
  world : σ
  /-- Observable events, in order. -/
  events : List ε

/-- A call over a world, seen through its events. -/
def Call (σ ε α : Type) : Type := σ → Ran σ ε α

variable {σ ε α β : Type}

/-- A call that only returns a value. -/
def Call.pure (value : α) : Call σ ε α := fun world => ⟨.ok value,world,[]⟩

/-- Run a call and go on with its value; a failure ends the sequence. -/
def Call.bind (first : Call σ ε α) (rest : α → Call σ ε β) : Call σ ε β := fun world =>
  let head := first world
  match head.outcome with
  | .error failure => ⟨.error failure,head.world,head.events⟩
  | .ok value =>
    let tail := rest value head.world
    ⟨tail.outcome,tail.world,head.events++tail.events⟩

instance : Monad (Call σ ε) where
  pure := Call.pure
  bind := Call.bind

/-- A computation without effects. -/
def compute (result : Except Failure α) : Call σ ε α := fun world => ⟨result,world,[]⟩

/-- A computation that may raise. -/
def raising (result : Except CxxException α) : Call σ ε α := compute (result.mapError Failure.thrown)

/-- Show an event to the observer. -/
def record (event : ε) : Call σ ε Unit := fun world => ⟨.ok (),world,[event]⟩

/-- A value read off the world. -/
def readWorld (read : σ → α) : Call σ ε α := fun world => ⟨.ok (read world),world,[]⟩

/-- An operation of the environment, which changes the world whether it
returns or raises. -/
def act (operation : σ → Except CxxException α×σ) : Call σ ε α := fun world =>
  let result := operation world
  ⟨result.1.mapError Failure.thrown,result.2,[]⟩

/-- Run a call in a given world, whatever happened since. -/
def inWorld (world : σ) (call : Call σ ε α) : Call σ ε α := fun _ => call world

/-- A try block: an exception goes to its catch clause, which starts in the
world the body left; an undefined operation goes to nobody. -/
def attempt (body : Call σ ε α) (handler : CxxException → Call σ ε α) : Call σ ε α := fun world =>
  let head := body world
  match head.outcome with
  | .error (.thrown e) =>
    let tail := handler e head.world
    ⟨tail.outcome,tail.world,head.events++tail.events⟩
  | _ => head

/-- Sequencing after a call that returned. -/
theorem bind_run_ok {first : Call σ ε α} {rest : α → Call σ ε β} {world : σ} {value : α}
    (h : (first world).outcome=.ok value) :
    (first>>=rest) world=
      ⟨(rest value (first world).world).outcome,(rest value (first world).world).world,
        (first world).events++(rest value (first world).world).events⟩ := by
  change Call.bind first rest world=_
  unfold Call.bind
  dsimp only
  rw [h]

/-- Sequencing after a call that failed. -/
theorem bind_run_error {first : Call σ ε α} {rest : α → Call σ ε β} {world : σ} {failure : Failure}
    (h : (first world).outcome=.error failure) :
    (first>>=rest) world=⟨.error failure,(first world).world,(first world).events⟩ := by
  change Call.bind first rest world=_
  unfold Call.bind
  dsimp only
  rw [h]

/-- The outcome of a sequence is the outcome of what its parts answer. -/
theorem bind_outcome (first : Call σ ε α) (rest : α → Call σ ε β) (world : σ) :
    ((first>>=rest) world).outcome=
      ((first world).outcome>>=fun value => (rest value (first world).world).outcome) := by
  cases h : (first world).outcome with
  | error failure =>
    rw [bind_run_error h]
    rfl
  | ok value =>
    rw [bind_run_ok h]
    rfl

/-- Sequences of calls obey the laws of sequencing. -/
instance : LawfulMonad (Call σ ε) := LawfulMonad.mk' _
  (fun call => by
    funext world
    change Call.bind call Call.pure world=_
    unfold Call.bind Call.pure
    dsimp only
    cases h : (call world).outcome <;> simp [←h])
  (fun value rest => by
    funext world
    exact bind_run_ok rfl)
  (fun call first rest => by
    funext world
    change Call.bind (Call.bind call first) rest world=
      Call.bind call (fun value => Call.bind (first value) rest) world
    unfold Call.bind
    dsimp only
    cases h : (call world).outcome with
    | error failure => rfl
    | ok value =>
      dsimp only
      cases hfirst : (first value (call world).world).outcome <;> simp)

/-- A recorded event stands in front of the events of what follows. -/
theorem record_bind_run (event : ε) (rest : Unit → Call σ ε β) (world : σ) :
    (record event>>=rest) world=
      ⟨(rest () world).outcome,(rest () world).world,event::(rest () world).events⟩ :=
  bind_run_ok rfl

/-- A returning computation in front of a sequence hands its value on. -/
theorem compute_ok_bind_run {result : Except Failure α} {value : α} (h : result=.ok value)
    (rest : α → Call σ ε β) :
    (compute result>>=rest)=rest value := by
  funext world
  rw [h]
  exact bind_run_ok rfl

/-- A failing computation ends its sequence without effect. -/
theorem compute_error_bind_run {result : Except Failure α} {failure : Failure}
    (h : result=.error failure) (rest : α → Call σ ε β) (world : σ) :
    (compute result>>=rest) world=⟨.error failure,world,[]⟩ := by
  rw [h]
  exact bind_run_error rfl

section judgement

/-- From every world of the precondition the call shows allowed events only,
and when it returns, its value and world satisfy the postcondition. -/
def Triple (pre : σ → Prop) (call : Call σ ε α) (post : α → σ → Prop) (allowed : ε → Prop) : Prop :=
  ∀ world,pre world → (∀ event ∈ (call world).events,allowed event) ∧
    ∀ value,(call world).outcome=.ok value → post value (call world).world

variable {pre : σ → Prop} {allowed : ε → Prop}

/-- A computation without effects returns its value in the world it found. -/
theorem triple_compute (result : Except Failure α) :
    Triple pre (compute result) (fun value world => result=.ok value ∧ pre world) allowed :=
  fun _ hpre => ⟨fun _ hmem => absurd hmem List.not_mem_nil,fun _ hvalue => ⟨hvalue,hpre⟩⟩

/-- A raising computation returns its value in the world it found. -/
theorem triple_raising (result : Except CxxException α) :
    Triple pre (raising result) (fun value world => result=.ok value ∧ pre world) allowed := by
  intro world hpre
  refine ⟨fun _ hmem => absurd hmem List.not_mem_nil,fun value hvalue => ⟨?_,hpre⟩⟩
  change result.mapError Failure.thrown=.ok value at hvalue
  cases result with
  | error e => cases hvalue
  | ok returned =>
    cases hvalue
    rfl

/-- A pure value is returned in the world it found. -/
theorem triple_pure (value : α) :
    Triple pre (pure value : Call σ ε α) (fun returned world => returned=value ∧ pre world) allowed :=
  fun _ hpre => ⟨fun _ hmem => absurd hmem List.not_mem_nil,fun _ hvalue => by
    cases hvalue
    exact ⟨rfl,hpre⟩⟩

/-- A reading of the world is returned in that world. -/
theorem triple_readWorld (read : σ → α) :
    Triple pre (readWorld read : Call σ ε α) (fun value world => value=read world ∧ pre world)
      allowed :=
  fun _ hpre => ⟨fun _ hmem => absurd hmem List.not_mem_nil,fun _ hvalue => by
    cases hvalue
    exact ⟨rfl,hpre⟩⟩

/-- An operation of the environment returns in the world it leaves. -/
theorem triple_act (operation : σ → Except CxxException α×σ) :
    Triple pre (act operation : Call σ ε α)
      (fun value world => ∃ before,pre before ∧ operation before=(.ok value,world)) allowed := by
  intro before hpre
  refine ⟨fun _ hmem => absurd hmem List.not_mem_nil,fun value hvalue => ⟨before,hpre,?_⟩⟩
  change (operation before).1.mapError Failure.thrown=.ok value at hvalue
  change operation before=(.ok value,(operation before).2)
  cases hresult : operation before with
  | mk outcome world =>
    rw [hresult] at hvalue
    cases outcome with
    | error e => cases hvalue
    | ok returned =>
      cases hvalue
      rfl

/-- Recording shows the recorded event and keeps the world. -/
theorem triple_record {event : ε} (h : allowed event) :
    Triple pre (record event : Call σ ε Unit) (fun _ world => pre world) allowed :=
  fun _ hpre => ⟨fun _ hmem => by
    rw [List.mem_singleton.mp hmem]
    exact h,fun _ _ => hpre⟩

/-- The parts of a sequence meet in a condition on the value between them. -/
theorem triple_bind {first : Call σ ε α} {rest : α → Call σ ε β} {between : α → σ → Prop}
    {post : β → σ → Prop} (hfirst : Triple pre first between allowed)
    (hrest : ∀ value,Triple (between value) (rest value) post allowed) :
    Triple pre (first>>=rest) post allowed := by
  intro world hpre
  obtain ⟨hevents,hreturn⟩ := hfirst world hpre
  cases hout : (first world).outcome with
  | error failure =>
    rw [bind_run_error hout]
    exact ⟨hevents,fun _ hvalue => nomatch hvalue⟩
  | ok value =>
    rw [bind_run_ok hout]
    obtain ⟨htail,hlast⟩ := hrest value _ (hreturn value hout)
    refine ⟨fun event hmem => ?_,hlast⟩
    rcases List.mem_append.mp hmem with hmem|hmem
    · exact hevents event hmem
    · exact htail event hmem

/-- A try block meets its postcondition through its body or its catch
clause, which starts in a world nothing is known of. -/
theorem triple_attempt {body : Call σ ε α} {handler : CxxException → Call σ ε α}
    {post : α → σ → Prop} (hbody : Triple pre body post allowed)
    (hhandler : ∀ e,Triple (fun _ => True) (handler e) post allowed) :
    Triple pre (attempt body handler) post allowed := by
  intro world hpre
  obtain ⟨hevents,hreturn⟩ := hbody world hpre
  unfold attempt
  dsimp only
  split
  · next e _ =>
    obtain ⟨htail,hlast⟩ := hhandler e (body world).world trivial
    refine ⟨fun event hmem => ?_,hlast⟩
    rcases List.mem_append.mp hmem with hmem|hmem
    · exact hevents event hmem
    · exact htail event hmem
  · exact ⟨hevents,hreturn⟩

/-- A judgement holds from fewer worlds, for a weaker postcondition and for
more events. -/
theorem Triple.mono {call : Call σ ε α} {fewer : σ → Prop} {post weaker : α → σ → Prop}
    {larger : ε → Prop} (h : Triple pre call post allowed) (hpre : ∀ world,fewer world → pre world)
    (hpost : ∀ value world,post value world → weaker value world)
    (hallowed : ∀ event,allowed event → larger event) : Triple fewer call weaker larger :=
  fun world hworld =>
    have hrun := h world (hpre world hworld)
    ⟨fun event hmem => hallowed event (hrun.1 event hmem),
      fun value hvalue => hpost value _ (hrun.2 value hvalue)⟩

end judgement

section events

/-- Every event of the call, in every world, is an allowed one. -/
def Emits (call : Call σ ε α) (allowed : ε → Prop) : Prop :=
  Triple (fun _ => True) call (fun _ _ => True) allowed

variable {allowed : ε → Prop}

/-- The events of a run of an emitting call. -/
theorem Emits.events {call : Call σ ε α} (h : Emits call allowed) (world : σ) :
    ∀ event ∈ (call world).events,allowed event := (h world trivial).1

/-- Whatever is known of worlds and values, the events are allowed. -/
theorem Triple.emits {call : Call σ ε α} {post : α → σ → Prop}
    (h : Triple (fun _ => True) call post allowed) : Emits call allowed :=
  h.mono (fun _ h => h) (fun _ _ _ => trivial) fun _ h => h

/-- A pure value emits nothing. -/
theorem emits_pure (value : α) (allowed : ε → Prop) : Emits (pure value : Call σ ε α) allowed :=
  (triple_pure value).emits

/-- A computation without effects emits nothing. -/
theorem emits_compute (result : Except Failure α) (allowed : ε → Prop) :
    Emits (compute result : Call σ ε α) allowed := (triple_compute result).emits

/-- Reading the world emits nothing. -/
theorem emits_readWorld (read : σ → α) (allowed : ε → Prop) :
    Emits (readWorld read : Call σ ε α) allowed := (triple_readWorld read).emits

/-- An operation of the environment emits nothing by itself. -/
theorem emits_act (operation : σ → Except CxxException α×σ) (allowed : ε → Prop) :
    Emits (act operation : Call σ ε α) allowed := (triple_act operation).emits

/-- Recording emits the recorded event. -/
theorem emits_record {event : ε} (h : allowed event) :
    Emits (record event : Call σ ε Unit) allowed := (triple_record h).emits

/-- A sequence emits what its parts emit. -/
theorem emits_bind {first : Call σ ε α} {rest : α → Call σ ε β}
    (hfirst : Emits first allowed) (hrest : ∀ value,Emits (rest value) allowed) :
    Emits (first>>=rest) allowed := triple_bind hfirst hrest

/-- A try block emits what its body and its catch clause emit. -/
theorem emits_attempt {body : Call σ ε α} {handler : CxxException → Call σ ε α}
    (hbody : Emits body allowed) (hhandler : ∀ e,Emits (handler e) allowed) :
    Emits (attempt body handler) allowed := triple_attempt hbody hhandler

end events

section counting

/-- In every world the call returns after the given number of counted
events, or raises before the first of them. -/
def Attempts (counted : ε → Bool) (call : Call σ ε α) (count : ℕ) : Prop := ∀ world,
  Returns (call world).outcome ∧ (call world).events.countP counted=count ∨
    (∃ e,(call world).outcome=.error (.thrown e)) ∧ (call world).events.countP counted=0

/-- In every world the call returns after the given number of counted events. -/
def Delivers (counted : ε → Bool) (call : Call σ ε α) (count : ℕ) : Prop := ∀ world,
  Returns (call world).outcome ∧ (call world).events.countP counted=count

variable {counted : ε → Bool}

/-- A call that always returns may be attempted. -/
theorem Delivers.attempts {call : Call σ ε α} {count : ℕ} (h : Delivers counted call count) :
    Attempts counted call count := fun world => Or.inl (h world)

/-- A pure value is returned without an event. -/
theorem delivers_pure (value : α) : Delivers counted (pure value : Call σ ε α) 0 :=
  fun _ => ⟨⟨value,rfl⟩,rfl⟩

/-- A reading of the world returns without an event. -/
theorem delivers_readWorld (read : σ → α) : Delivers counted (readWorld read : Call σ ε α) 0 :=
  fun world => ⟨⟨read world,rfl⟩,rfl⟩

/-- Recording returns after its own event. -/
theorem delivers_record (event : ε) :
    Delivers counted (record event : Call σ ε Unit) (if counted event then 1 else 0) := by
  intro world
  refine ⟨⟨(),rfl⟩,?_⟩
  exact List.countP_singleton

/-- A computation within defined behaviour returns or raises, without an event. -/
theorem attempts_compute {result : Except Failure α} (h : Defined result) :
    Attempts counted (compute result : Call σ ε α) 0 := by
  intro world
  cases hresult : result with
  | ok value => exact Or.inl ⟨⟨value,rfl⟩,rfl⟩
  | error failure =>
    cases failure with
    | thrown e => exact Or.inr ⟨⟨e,rfl⟩,rfl⟩
    | undefined u => exact absurd hresult (h u)

/-- A raising computation returns or raises, without an event. -/
theorem attempts_raising (result : Except CxxException α) :
    Attempts counted (raising result : Call σ ε α) 0 := by
  refine attempts_compute fun u h => ?_
  cases result <;> cases h

/-- An operation of the environment returns or raises, without an event. -/
theorem attempts_act (operation : σ → Except CxxException α×σ) :
    Attempts counted (act operation : Call σ ε α) 0 := by
  intro world
  cases hresult : (operation world).1 with
  | ok value => exact Or.inl ⟨⟨value,congrArg (Except.mapError Failure.thrown) hresult⟩,rfl⟩
  | error e => exact Or.inr ⟨⟨e,congrArg (Except.mapError Failure.thrown) hresult⟩,rfl⟩

/-- Behind a part without counted events the rest decides. -/
theorem attempts_bind {first : Call σ ε α} {rest : α → Call σ ε β} {count : ℕ}
    (hfirst : Attempts counted first 0) (hrest : ∀ value,Attempts counted (rest value) count) :
    Attempts counted (first>>=rest) count := by
  intro world
  rcases hfirst world with ⟨⟨value,hvalue⟩,hnone⟩|⟨⟨e,he⟩,hnone⟩
  · rw [bind_run_ok hvalue]
    dsimp only
    rw [List.countP_append,hnone,Nat.zero_add]
    exact hrest value _
  · rw [bind_run_error he]
    exact Or.inr ⟨⟨e,rfl⟩,hnone⟩

/-- Calls that always return add their counted events up. -/
theorem delivers_bind {first : Call σ ε α} {rest : α → Call σ ε β} {count further : ℕ}
    (hfirst : Delivers counted first count) (hrest : ∀ value,Delivers counted (rest value) further) :
    Delivers counted (first>>=rest) (count+further) := by
  intro world
  obtain ⟨⟨value,hvalue⟩,hcount⟩ := hfirst world
  obtain ⟨hreturn,hfurther⟩ := hrest value (first world).world
  rw [bind_run_ok hvalue]
  refine ⟨hreturn,?_⟩
  rw [List.countP_append,hcount,hfurther]

/-- A try block always returns when its catch clause does. -/
theorem delivers_attempt {body : Call σ ε α} {handler : CxxException → Call σ ε α} {count : ℕ}
    (hbody : Attempts counted body count) (hhandler : ∀ e,Delivers counted (handler e) count) :
    Delivers counted (attempt body handler) count := by
  intro world
  unfold attempt
  rcases hbody world with ⟨⟨value,hvalue⟩,hcount⟩|⟨⟨e,he⟩,hnone⟩
  · dsimp only
    rw [hvalue]
    exact ⟨⟨value,hvalue⟩,hcount⟩
  · obtain ⟨hreturn,hcount⟩ := hhandler e (body world).world
    dsimp only
    rw [he]
    refine ⟨hreturn,?_⟩
    rw [List.countP_append,hnone,hcount,Nat.zero_add]

/-- In every world the call shows no more counted events than a bound. -/
def AtMost (counted : ε → Bool) (call : Call σ ε α) (bound : ℕ) : Prop :=
  ∀ world,(call world).events.countP counted ≤ bound

/-- A bound may be raised. -/
theorem AtMost.mono {call : Call σ ε α} {bound larger : ℕ} (h : AtMost counted call bound)
    (hle : bound ≤ larger) : AtMost counted call larger := fun world => (h world).trans hle

/-- What is returned behind the given number of counted events is bounded by it. -/
theorem Attempts.atMost {call : Call σ ε α} {count : ℕ} (h : Attempts counted call count) :
    AtMost counted call count := by
  intro world
  rcases h world with ⟨_,hcount⟩|⟨_,hnone⟩
  · exact hcount.le
  · rw [hnone]
    exact Nat.zero_le _

/-- A computation shows nothing to count. -/
theorem atMost_compute (result : Except Failure α) :
    AtMost counted (compute result : Call σ ε α) 0 := fun _ => Nat.le_refl 0

/-- So does a pure value. -/
theorem atMost_pure (value : α) : AtMost counted (pure value : Call σ ε α) 0 :=
  fun _ => Nat.le_refl 0

/-- So does an operation of the environment. -/
theorem atMost_act (operation : σ → Except CxxException α×σ) :
    AtMost counted (act operation : Call σ ε α) 0 := fun _ => Nat.le_refl 0

/-- Recording shows its own event. -/
theorem atMost_record (event : ε) :
    AtMost counted (record event : Call σ ε Unit) (if counted event then 1 else 0) :=
  (delivers_record event).attempts.atMost

/-- The bounds of the parts of a sequence add up. -/
theorem atMost_bind {first : Call σ ε α} {rest : α → Call σ ε β} {bound further : ℕ}
    (hfirst : AtMost counted first bound) (hrest : ∀ value,AtMost counted (rest value) further) :
    AtMost counted (first>>=rest) (bound+further) := by
  intro world
  cases hout : (first world).outcome with
  | error failure =>
    rw [bind_run_error hout]
    exact (hfirst world).trans (Nat.le_add_right _ _)
  | ok value =>
    rw [bind_run_ok hout]
    dsimp only
    rw [List.countP_append]
    exact Nat.add_le_add (hfirst world) (hrest value _)

/-- The bounds of a try block and its catch clause add up. -/
theorem atMost_attempt {body : Call σ ε α} {handler : CxxException → Call σ ε α}
    {bound further : ℕ} (hbody : AtMost counted body bound)
    (hhandler : ∀ e,AtMost counted (handler e) further) :
    AtMost counted (attempt body handler) (bound+further) := by
  intro world
  unfold attempt
  dsimp only
  split
  · dsimp only
    rw [List.countP_append]
    exact Nat.add_le_add (hbody world) (hhandler _ _)
  · exact (hbody world).trans (Nat.le_add_right _ _)

end counting

section worlds

/-- The world a call leaves is related to the one it found, whether it
returns or raises. -/
def Changes (relation : σ → σ → Prop) (call : Call σ ε α) : Prop :=
  ∀ world,relation world (call world).world

/-- The call leaves the world as it was. -/
def Stays (call : Call σ ε α) : Prop := ∀ world,(call world).world=world

variable {relation : σ → σ → Prop}

/-- A pure value leaves the world as it was. -/
theorem stays_pure (value : α) : Stays (pure value : Call σ ε α) := fun _ => rfl

/-- So does a computation without effects. -/
theorem stays_compute (result : Except Failure α) : Stays (compute result : Call σ ε α) :=
  fun _ => rfl

/-- So does recording. -/
theorem stays_record (event : ε) : Stays (record event : Call σ ε Unit) := fun _ => rfl

/-- A sequence of calls that leave the world leaves it. -/
theorem stays_bind {first : Call σ ε α} {rest : α → Call σ ε β} (hfirst : Stays first)
    (hrest : ∀ value,Stays (rest value)) : Stays (first>>=rest) := by
  intro world
  cases hout : (first world).outcome with
  | error failure =>
    rw [bind_run_error hout]
    exact hfirst world
  | ok value =>
    rw [bind_run_ok hout]
    exact (hrest value _).trans (hfirst world)

/-- An operation of the environment changes the world as it does. -/
theorem changes_act {operation : σ → Except CxxException α×σ}
    (h : ∀ world,relation world (operation world).2) :
    Changes relation (act operation : Call σ ε α) := h

/-- A call that leaves the world makes any reflexive change. -/
theorem Stays.changes {call : Call σ ε α} (h : Stays call) (hrefl : ∀ world,relation world world) :
    Changes relation call := by
  intro world
  rw [h world]
  exact hrefl world

/-- Behind a part that leaves the world the rest makes the change. -/
theorem changes_behind {first : Call σ ε α} {rest : α → Call σ ε β} (hfirst : Stays first)
    (hrefl : ∀ world,relation world world) (hrest : ∀ value,Changes relation (rest value)) :
    Changes relation (first>>=rest) := by
  intro world
  cases hout : (first world).outcome with
  | error failure =>
    rw [bind_run_error hout]
    exact hfirst.changes hrefl world
  | ok value =>
    rw [bind_run_ok hout]
    dsimp only
    rw [hfirst world]
    exact hrest value world

/-- In front of a rest that leaves the world the first part makes the change. -/
theorem changes_before {first : Call σ ε α} {rest : α → Call σ ε β}
    (hfirst : Changes relation first) (hrest : ∀ value,Stays (rest value)) :
    Changes relation (first>>=rest) := by
  intro world
  cases hout : (first world).outcome with
  | error failure =>
    rw [bind_run_error hout]
    exact hfirst world
  | ok value =>
    rw [bind_run_ok hout]
    dsimp only
    rw [hrest value]
    exact hfirst world

/-- Parts that make a transitive change make it together. -/
theorem changes_bind {first : Call σ ε α} {rest : α → Call σ ε β}
    (htrans : ∀ a b c,relation a b → relation b c → relation a c)
    (hfirst : Changes relation first) (hrest : ∀ value,Changes relation (rest value)) :
    Changes relation (first>>=rest) := by
  intro world
  cases hout : (first world).outcome with
  | error failure =>
    rw [bind_run_error hout]
    exact hfirst world
  | ok value =>
    rw [bind_run_ok hout]
    exact htrans _ _ _ (hfirst world) (hrest value _)

/-- A try block makes the change of its body when its catch clause leaves the world. -/
theorem changes_attempt {body : Call σ ε α} {handler : CxxException → Call σ ε α}
    (hbody : Changes relation body) (hhandler : ∀ e,Stays (handler e)) :
    Changes relation (attempt body handler) := by
  intro world
  unfold attempt
  dsimp only
  split
  · next e _ =>
    dsimp only
    rw [hhandler e]
    exact hbody world
  · exact hbody world

end worlds

section values

/-- Whenever the call returns, the value satisfies the condition. -/
def Yields (call : Call σ ε α) (condition : α → Prop) : Prop :=
  Triple (fun _ => True) call (fun value _ => condition value) fun _ => True

/-- A pure value satisfies its condition. -/
theorem yields_pure {value : α} {condition : α → Prop} (h : condition value) :
    Yields (pure value : Call σ ε α) condition :=
  (triple_pure value).mono (fun _ h => h) (fun _ _ hvalue => hvalue.1 ▸ h) fun _ h => h

/-- A sequence yields what its last part yields. -/
theorem yields_bind {first : Call σ ε α} {rest : α → Call σ ε β} {condition : β → Prop}
    (h : ∀ value,Yields (rest value) condition) : Yields (first>>=rest) condition :=
  triple_bind (fun _ _ => ⟨fun _ _ => trivial,fun _ _ => trivial⟩) h

end values

end Photogram.EffectLog
