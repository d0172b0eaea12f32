import Photogram.EffectLog

/-!
# Calls that ask the world questions

Some events of a call are questions, whose answers it takes from the world. Of
two worlds that agree on the next so many answers a causal call cannot tell
which one it is in before it has asked for more, so its next question is the
same. The questions of one call can thus be put one at a time, each answered
when it is known, with anything between them.
-/

namespace Photogram.Causality

open CxxString EffectLog

variable {σ ε κ α β : Type} (asks : ε → Option κ)

/-- Questions among the events, in order. -/
def questions (events : List ε) : List κ := events.filterMap asks

/-- Questions of two parts. -/
theorem questions_append (first rest : List ε) :
    questions asks (first++rest)=questions asks first++questions asks rest := List.filterMap_append

variable (agree : ℕ → σ → σ → Prop)

/-- In worlds that agree on a number of answers the call asks the same up to the
question behind them; if it asks no more than these, it does the same, and the
worlds it leaves agree on the rest. -/
def Causal (call : Call σ ε α) : Prop :=
  ∀ count world other,agree count world other →
    (questions asks (call other).events).take (count+1)=
        (questions asks (call world).events).take (count+1) ∧
      ((questions asks (call world).events).length ≤ count →
        (call other).outcome=(call world).outcome ∧ (call other).events=(call world).events ∧
          agree (count-(questions asks (call world).events).length) (call world).world
            (call other).world)

variable {asks agree}

/-- The question behind the answers that worlds agree on is the same. -/
theorem Causal.question {call : Call σ ε α} (h : Causal asks agree call) {count : ℕ}
    {world other : σ} (hagree : agree count world other) :
    (questions asks (call other).events)[count]?=(questions asks (call world).events)[count]? := by
  have hsame := congrArg (·[count]?) (h count world other hagree).1
  simpa only [List.getElem?_take_of_lt (Nat.lt_succ_self count)] using hsame

/-- Questions beyond a number are asked in both of two worlds that agree on so many answers. -/
theorem Causal.beyond {call : Call σ ε α} (h : Causal asks agree call) {count : ℕ}
    {world other : σ} (hagree : agree count world other)
    (hmore : count<(questions asks (call world).events).length) :
    count<(questions asks (call other).events).length := by
  have hlength := congrArg List.length (h count world other hagree).1
  rw [List.length_take,List.length_take] at hlength
  omega

/-- A computation without effects asks nothing. -/
theorem causal_compute (result : Except Failure α) :
    Causal asks agree (compute result : Call σ ε α) :=
  fun _ _ _ hagree => ⟨rfl,fun _ => ⟨rfl,rfl,hagree⟩⟩

/-- Nor does a pure value. -/
theorem causal_pure (value : α) : Causal asks agree (pure value : Call σ ε α) :=
  fun _ _ _ hagree => ⟨rfl,fun _ => ⟨rfl,rfl,hagree⟩⟩

/-- Nor does a reading of what the worlds have in common. -/
theorem causal_readWorld {read : σ → α}
    (h : ∀ count world other,agree count world other → read other=read world) :
    Causal asks agree (readWorld read : Call σ ε α) :=
  fun count world other hagree =>
    ⟨rfl,fun _ => ⟨congrArg Except.ok (h count world other hagree),rfl,hagree⟩⟩

/-- Nor does an event that is no question. -/
theorem causal_record {event : ε} (h : asks event=none) :
    Causal asks agree (record event : Call σ ε Unit) := by
  intro count world other hagree
  have hnone : questions asks [event]=[] := List.filterMap_cons_none h
  refine ⟨rfl,fun _ => ⟨rfl,rfl,?_⟩⟩
  change agree (count-(questions asks [event]).length) world other
  rw [hnone]
  exact hagree

/-- A question is answered alike by worlds that agree on one more answer. -/
theorem causal_ask {event : ε} {question : κ} (h : asks event=some question)
    {operation : σ → Except CxxException α×σ}
    (hanswer : ∀ count world other,agree (count+1) world other →
      (operation other).1=(operation world).1 ∧ agree count (operation world).2 (operation other).2) :
    Causal asks agree (record event>>=fun _ => act operation : Call σ ε α) := by
  intro count world other hagree
  have hone : questions asks [event]=[question] := List.filterMap_cons_some h
  rw [record_bind_run,record_bind_run]
  refine ⟨rfl,fun hcount => ?_⟩
  change (questions asks [event]).length ≤ count at hcount
  change _ ∧ _ ∧ agree (count-(questions asks [event]).length) _ _
  rw [hone,List.length_singleton] at hcount ⊢
  obtain ⟨before,rfl⟩ := Nat.exists_eq_add_of_le' hcount
  obtain ⟨hsame,hafter⟩ := hanswer before world other hagree
  exact ⟨congrArg (Except.mapError Failure.thrown) hsame,rfl,hafter⟩

/-- Beyond the answers that worlds agree on, what comes later is not asked yet. -/
theorem take_behind {first first' rest rest' : List κ} {count : ℕ}
    (h : first'.take (count+1)=first.take (count+1)) (hmore : count<first.length) :
    (first'++rest').take (count+1)=(first++rest).take (count+1) := by
  have hlength := congrArg List.length h
  rw [List.length_take,List.length_take] at hlength
  rw [List.take_append_of_le_length (by omega),List.take_append_of_le_length (by omega),h]

/-- Behind questions that are answered, the next ones count from there. -/
theorem take_beyond {first rest rest' : List κ} {count : ℕ} (hfirst : first.length ≤ count)
    (h : rest'.take (count-first.length+1)=rest.take (count-first.length+1)) :
    (first++rest').take (count+1)=(first++rest).take (count+1) := by
  have hsplit : count+1=first.length+(count-first.length+1) := by omega
  rw [hsplit,List.take_length_add_append,List.take_length_add_append,h]

/-- The events of the first part are in front of those of a sequence. -/
theorem bind_events (first : Call σ ε α) (rest : α → Call σ ε β) (world : σ) :
    ∃ behind,((first>>=rest) world).events=(first world).events++behind := by
  cases hout : (first world).outcome with
  | error failure =>
    rw [bind_run_error hout]
    exact ⟨[],(List.append_nil _).symm⟩
  | ok value =>
    rw [bind_run_ok hout]
    exact ⟨_,rfl⟩

/-- A sequence of causal parts is causal. -/
theorem causal_bind {first : Call σ ε α} {rest : α → Call σ ε β} (hfirst : Causal asks agree first)
    (hrest : ∀ value,Causal asks agree (rest value)) : Causal asks agree (first>>=rest) := by
  intro count world other hagree
  obtain ⟨htake,hdone⟩ := hfirst count world other hagree
  by_cases hcount : (questions asks (first world).events).length ≤ count
  · obtain ⟨houtcome,hevents,hafter⟩ := hdone hcount
    cases hout : (first world).outcome with
    | error failure =>
      rw [bind_run_error hout,bind_run_error (houtcome.trans hout)]
      exact ⟨htake,fun _ => ⟨rfl,hevents,hafter⟩⟩
    | ok value =>
      rw [bind_run_ok hout,bind_run_ok (houtcome.trans hout)]
      obtain ⟨hnext,hend⟩ := hrest value _ _ _ hafter
      dsimp only
      rw [hevents,questions_append,questions_append]
      refine ⟨take_beyond hcount hnext,fun hall => ?_⟩
      rw [List.length_append] at hall ⊢
      obtain ⟨hsame,hlast,hleft⟩ := hend (by omega)
      refine ⟨hsame,congrArg _ hlast,?_⟩
      rwa [←Nat.sub_sub]
  · have hmore := Nat.lt_of_not_le hcount
    obtain ⟨behind,hbehind⟩ := bind_events first rest world
    obtain ⟨behind',hbehind'⟩ := bind_events first rest other
    rw [hbehind,hbehind',questions_append,questions_append]
    refine ⟨take_behind htake hmore,fun hall => ?_⟩
    rw [List.length_append] at hall
    omega

/-- The events of its body are in front of those of a try block. -/
theorem attempt_events (body : Call σ ε α) (handler : CxxException → Call σ ε α) (world : σ) :
    ∃ behind,(attempt body handler world).events=(body world).events++behind := by
  unfold attempt
  dsimp only
  split
  · exact ⟨_,rfl⟩
  · exact ⟨[],(List.append_nil _).symm⟩

/-- So is a try block with causal parts. -/
theorem causal_attempt {body : Call σ ε α} {handler : CxxException → Call σ ε α}
    (hbody : Causal asks agree body) (hhandler : ∀ e,Causal asks agree (handler e)) :
    Causal asks agree (attempt body handler) := by
  intro count world other hagree
  obtain ⟨htake,hdone⟩ := hbody count world other hagree
  by_cases hcount : (questions asks (body world).events).length ≤ count
  · obtain ⟨houtcome,hevents,hafter⟩ := hdone hcount
    unfold attempt
    dsimp only
    rw [houtcome]
    split
    · next e _ =>
      obtain ⟨hnext,hend⟩ := hhandler e _ _ _ hafter
      dsimp only
      rw [hevents,questions_append,questions_append]
      refine ⟨take_beyond hcount hnext,fun hall => ?_⟩
      rw [List.length_append] at hall ⊢
      obtain ⟨hsame,hlast,hleft⟩ := hend (by omega)
      refine ⟨hsame,congrArg _ hlast,?_⟩
      rwa [←Nat.sub_sub]
    · exact ⟨htake,fun _ => ⟨houtcome,hevents,hafter⟩⟩
  · have hmore := Nat.lt_of_not_le hcount
    obtain ⟨behind,hbehind⟩ := attempt_events body handler world
    obtain ⟨behind',hbehind'⟩ := attempt_events body handler other
    rw [hbehind,hbehind',questions_append,questions_append]
    refine ⟨take_behind htake hmore,fun hall => ?_⟩
    rw [List.length_append] at hall
    omega

end Photogram.Causality
