import Mathlib.Data.List.Infix
import Mathlib.Data.Nat.Notation

/-!
# The pattern language of LIKE

A pattern is a text in which one character stands for any run, one for any
single character, and one takes the special meaning from the character behind
it. A text without the three is matched literally, and between two of the
first it is searched for. With any of them in it, there is a text that the
pattern matches although it does not contain the pattern: the one in which
every run is empty.
-/

namespace Photogram.LikePattern

/-- The special characters of patterns. -/
structure Wildcards (α : Type*) where
  /-- Stands for any run of characters. -/
  any : α
  /-- Stands for any one character. -/
  one : α
  /-- Takes the special meaning from the next character. -/
  escape : α
  /-- Runs and single characters are told apart. -/
  any_ne_one : any≠one
  /-- Runs are told from the escape. -/
  any_ne_escape : any≠escape
  /-- Single characters are told from the escape. -/
  one_ne_escape : one≠escape

/-- What a pattern consists of. -/
inductive Item (α : Type*) where
  /-- Any run of characters. -/
  | run
  /-- Any one character. -/
  | single
  /-- The character itself. -/
  | literal (c : α)
  /-- An escape with nothing behind it, which matches nothing. -/
  | dangling

variable {α : Type*}

/-- What an item stands for in the shortest text: no run, and one character
for any single one. -/
def Item.shortest (other : α) : Item α → List α
  | .run => []
  | .single => [other]
  | .literal c => [c]
  | .dangling => []

/-- The shortest text items match. -/
def shortest (other : α) (pattern : List (Item α)) : List α :=
  pattern.flatMap (Item.shortest other)

/-- The shortest text of items behind a first one. -/
theorem shortest_cons (other : α) (item : Item α) (pattern : List (Item α)) :
    shortest other (item::pattern)=item.shortest other++shortest other pattern :=
  List.flatMap_cons

variable [DecidableEq α]

/-- Items of a pattern. -/
def items (wildcards : Wildcards α) : List α → List (Item α)
  | [] => []
  | c::pattern =>
    if c=wildcards.any then .run::items wildcards pattern
    else if c=wildcards.one then .single::items wildcards pattern
    else if c=wildcards.escape then
      match pattern with
      | [] => [.dangling]
      | d::pattern => .literal d::items wildcards pattern
    else .literal c::items wildcards pattern

/-- Whether items match a text. -/
def matchItems : List (Item α) → List α → Bool
  | [],text => text.isEmpty
  | .run::rest,text => text.tails.any (matchItems rest)
  | .single::rest,_::text => matchItems rest text
  | .literal c::rest,a::text => a=c && matchItems rest text
  | .single::_,[] => false
  | .literal _::_,[] => false
  | .dangling::_,_ => false

/-- Whether a pattern matches a text. -/
def likeMatch (wildcards : Wildcards α) (pattern text : List α) : Bool :=
  matchItems (items wildcards pattern) text

/-- A text without special characters. -/
def Plain (wildcards : Wildcards α) (text : List α) : Prop :=
  wildcards.any ∉ text ∧ wildcards.one ∉ text ∧ wildcards.escape ∉ text

instance (wildcards : Wildcards α) (text : List α) : Decidable (Plain wildcards text) :=
  inferInstanceAs (Decidable (_ ∧ _))

section matching

/-- A run matches when some end of the text is matched by the rest. -/
theorem matchItems_run (rest : List (Item α)) (text : List α) :
    matchItems (.run::rest) text=true ↔ ∃ tail,tail<:+text ∧ matchItems rest tail=true := by
  rw [matchItems,List.any_eq_true]
  simp only [List.mem_tails]

/-- A last run matches everything. -/
theorem matchItems_last_run (text : List α) : matchItems [.run] text=true :=
  (matchItems_run [] text).mpr ⟨[],List.nil_suffix,rfl⟩

/-- Literal characters in front match themselves. -/
theorem matchItems_literals (literal : List α) (rest : List (Item α)) (text : List α) :
    matchItems (literal.map Item.literal++rest) text=true ↔
      ∃ behind,text=literal++behind ∧ matchItems rest behind=true := by
  induction literal generalizing text with
  | nil => simp
  | cons c literal ih =>
    cases text with
    | nil => simp [matchItems]
    | cons a text =>
      rw [List.map_cons,List.cons_append,matchItems,Bool.and_eq_true,decide_eq_true_eq,ih]
      simp only [List.cons_append,List.cons.injEq]
      constructor
      · rintro ⟨rfl,behind,rfl,hmatch⟩
        exact ⟨behind,⟨rfl,rfl⟩,hmatch⟩
      · rintro ⟨behind,⟨rfl,rfl⟩,hmatch⟩
        exact ⟨rfl,behind,rfl,hmatch⟩

variable {wildcards : Wildcards α}

/-- Item of the character for a run. -/
theorem items_any (pattern : List α) :
    items wildcards (wildcards.any::pattern)=.run::items wildcards pattern := by
  cases pattern <;> simp [items]

/-- Item of the character for any one. -/
theorem items_one (pattern : List α) :
    items wildcards (wildcards.one::pattern)=.single::items wildcards pattern := by
  cases pattern <;> simp [items,wildcards.any_ne_one.symm]

/-- Item of an escaped character. -/
theorem items_escape (c : α) (pattern : List α) :
    items wildcards (wildcards.escape::c::pattern)=.literal c::items wildcards pattern := by
  simp [items,wildcards.any_ne_escape.symm,wildcards.one_ne_escape.symm]

/-- Item of any other character. -/
theorem items_other {c : α} (hany : c≠wildcards.any) (hone : c≠wildcards.one)
    (hescape : c≠wildcards.escape) (pattern : List α) :
    items wildcards (c::pattern)=.literal c::items wildcards pattern := by
  cases pattern <;> simp [items,hany,hone,hescape]

/-- A plain text in front of a pattern is literal. -/
theorem items_plain_append {literal : List α} (h : Plain wildcards literal) (pattern : List α) :
    items wildcards (literal++pattern)=literal.map Item.literal++items wildcards pattern := by
  induction literal with
  | nil => rfl
  | cons c literal ih =>
    obtain ⟨hany,hone,hescape⟩ := h
    rw [List.mem_cons,not_or] at hany hone hescape
    rw [List.cons_append,items_other (Ne.symm hany.1) (Ne.symm hone.1) (Ne.symm hescape.1),
      ih ⟨hany.2,hone.2,hescape.2⟩]
    rfl

/-- Between two runs a plain text is searched for. -/
theorem likeMatch_contains {literal : List α} (h : Plain wildcards literal) (text : List α) :
    likeMatch wildcards (wildcards.any::literal++[wildcards.any]) text=true ↔ literal<:+:text := by
  have hlast : items wildcards [wildcards.any]=[.run] := items_any []
  unfold likeMatch
  rw [List.cons_append,items_any,items_plain_append h,hlast,matchItems_run]
  constructor
  · rintro ⟨tail,⟨front,rfl⟩,hmatch⟩
    obtain ⟨behind,rfl,_⟩ := (matchItems_literals literal _ _).mp hmatch
    exact ⟨front,behind,List.append_assoc _ _ _⟩
  · rintro ⟨front,behind,rfl⟩
    refine ⟨literal++behind,⟨front,(List.append_assoc _ _ _).symm⟩,?_⟩
    exact (matchItems_literals literal _ _).mpr ⟨behind,rfl,matchItems_last_run behind⟩

end matching

section shortest

/-- Items match their shortest text unless an escape dangles. -/
theorem matchItems_shortest (other : α) {pattern : List (Item α)} (h : Item.dangling ∉ pattern) :
    matchItems pattern (shortest other pattern)=true := by
  induction pattern with
  | nil => rfl
  | cons item pattern ih =>
    obtain ⟨hitem,hrest⟩ := not_or.mp (List.mem_cons.not.mp h)
    have hmatch := ih hrest
    cases item with
    | run => exact (matchItems_run _ _).mpr ⟨_,List.suffix_rfl,hmatch⟩
    | single => exact hmatch
    | literal c =>
      change (decide (c=c) && matchItems pattern (shortest other pattern))=true
      rw [hmatch,decide_eq_true rfl]
      rfl
    | dangling => exact absurd rfl hitem

variable {wildcards : Wildcards α}

/-- In front of a last run no escape dangles, and the shortest text is no
longer than what stands there; it is that text only when it is plain. -/
structure Shortens (other : α) (wildcards : Wildcards α) (literal : List α) : Prop where
  /-- No escape dangles. -/
  dangling : Item.dangling ∉ items wildcards (literal++[wildcards.any])
  /-- The shortest text is no longer. -/
  length : (shortest other (items wildcards (literal++[wildcards.any]))).length ≤ literal.length
  /-- It differs from a text with special characters. -/
  plain : shortest other (items wildcards (literal++[wildcards.any]))=literal →
    Plain wildcards literal

/-- A text shorter than another is not that one. -/
theorem shortens_of_lt {other : α} {literal : List α}
    (hdangling : Item.dangling ∉ items wildcards (literal++[wildcards.any]))
    (h : (shortest other (items wildcards (literal++[wildcards.any]))).length<literal.length) :
    Shortens other wildcards literal where
  dangling := hdangling
  length := h.le
  plain heq := absurd (congrArg List.length heq) h.ne

/-- A character whose item stands for one character leaves the rest as it is. -/
theorem Shortens.cons {other c d : α} {item : Item α} {literal : List α}
    (h : Shortens other wildcards literal)
    (hitems : items wildcards (c::(literal++[wildcards.any]))=
      item::items wildcards (literal++[wildcards.any]))
    (hitem : item.shortest other=[d])
    (hplain : d=c → Plain wildcards literal → Plain wildcards (c::literal)) :
    Shortens other wildcards (c::literal) where
  dangling := by
    rw [List.cons_append,hitems,List.mem_cons,not_or]
    refine ⟨?_,h.dangling⟩
    rintro rfl
    cases hitem
  length := by
    rw [List.cons_append,hitems,shortest_cons,hitem,List.singleton_append,List.length_cons,
      List.length_cons]
    exact Nat.succ_le_succ h.length
  plain heq := by
    rw [List.cons_append,hitems,shortest_cons,hitem,List.singleton_append] at heq
    exact hplain (List.cons.inj heq).1 (h.plain (List.cons.inj heq).2)

/-- A run in front is left out. -/
theorem Shortens.any {other : α} {literal : List α} (h : Shortens other wildcards literal) :
    Shortens other wildcards (wildcards.any::literal) := by
  apply shortens_of_lt
  · rw [List.cons_append,items_any]
    simpa using h.dangling
  · rw [List.cons_append,items_any,shortest_cons]
    exact Nat.lt_succ_of_le h.length

/-- An escape in front is left out. -/
theorem Shortens.escape {other : α} {literal : List α} (h : Shortens other wildcards literal)
    (c : α) : Shortens other wildcards (wildcards.escape::c::literal) := by
  apply shortens_of_lt
  · rw [List.cons_append,List.cons_append,items_escape]
    simpa using h.dangling
  · rw [List.cons_append,List.cons_append,items_escape,shortest_cons]
    exact Nat.succ_lt_succ (Nat.lt_succ_of_le h.length)

/-- A last escape takes the meaning from the run behind it. -/
theorem shortens_last_escape (other : α) : Shortens other wildcards [wildcards.escape] := by
  have hitems : items wildcards ([wildcards.escape]++[wildcards.any])=[.literal wildcards.any] :=
    items_escape _ _
  refine ⟨?_,?_,fun heq => ?_⟩
  · rw [hitems]
    simp
  · rw [hitems]
    exact le_rfl
  · rw [hitems] at heq
    exact absurd (List.cons.inj heq).1 wildcards.any_ne_escape

/-- Every text shortens in front of a last run. -/
theorem shortens {other : α} (hother : other≠wildcards.one) (literal : List α) :
    Shortens other wildcards literal := by
  induction hn : literal.length using Nat.strong_induction_on generalizing literal with
  | _ n ih =>
    cases literal with
    | nil =>
      have hitems : items wildcards ([]++[wildcards.any])=[.run] := items_any []
      refine ⟨?_,?_,fun _ => by simp [Plain]⟩
      · rw [hitems]
        simp
      · rw [hitems]
        exact le_rfl
    | cons c literal =>
      rw [List.length_cons] at hn
      have hrest := ih literal.length (by omega) literal rfl
      by_cases hany : c=wildcards.any
      · exact hany ▸ hrest.any
      by_cases hone : c=wildcards.one
      · subst hone
        exact hrest.cons (items_one _) rfl fun heq => absurd heq hother
      by_cases hescape : c=wildcards.escape
      · subst hescape
        cases literal with
        | nil => exact shortens_last_escape other
        | cons d literal =>
          rw [List.length_cons] at hn
          exact (ih literal.length (by omega) literal rfl).escape d
      · refine hrest.cons (items_other hany hone hescape _) rfl fun _ hplain => ?_
        simp only [Plain,List.mem_cons,not_or]
        exact ⟨⟨Ne.symm hany,hplain.1⟩,⟨Ne.symm hone,hplain.2.1⟩,Ne.symm hescape,hplain.2.2⟩

/-- The characters of the shortest text come from the pattern. -/
theorem mem_shortest {other c : α} {pattern : List α}
    (h : c ∈ shortest other (items wildcards pattern)) : c=other ∨ c ∈ pattern := by
  fun_induction items wildcards pattern with
  | case1 => exact absurd h List.not_mem_nil
  | case2 pattern ih => exact (ih h).imp_right (List.mem_cons_of_mem _)
  | case3 pattern _ ih =>
    rw [shortest_cons,List.mem_append] at h
    rcases h with h|h
    · exact Or.inl (List.mem_singleton.mp h)
    · exact (ih h).imp_right (List.mem_cons_of_mem _)
  | case4 => exact absurd h List.not_mem_nil
  | case5 d pattern _ _ ih =>
    rw [shortest_cons,List.mem_append] at h
    rcases h with h|h
    · exact Or.inr (by simp [List.mem_singleton.mp h])
    · exact (ih h).imp_right fun hmem => List.mem_cons_of_mem _ (List.mem_cons_of_mem _ hmem)
  | case6 d pattern _ _ _ ih =>
    rw [shortest_cons,List.mem_append] at h
    rcases h with h|h
    · exact Or.inr (by simp [List.mem_singleton.mp h])
    · exact (ih h).imp_right (List.mem_cons_of_mem _)

/-- A text with special characters between two runs matches a text that does
not contain it. -/
theorem exists_match_not_infix {other : α} (hother : other≠wildcards.one) {literal : List α}
    (h : ¬Plain wildcards literal) :
    ∃ text,likeMatch wildcards (wildcards.any::literal++[wildcards.any]) text=true ∧
      ¬literal<:+:text ∧ ∀ c ∈ text,c=other ∨ c ∈ literal ∨ c=wildcards.any := by
  have hshort := shortens hother literal
  refine ⟨shortest other (items wildcards (literal++[wildcards.any])),?_,fun hpart => ?_,?_⟩
  · unfold likeMatch
    rw [List.cons_append,items_any,matchItems_run]
    exact ⟨_,List.suffix_rfl,matchItems_shortest other hshort.dangling⟩
  · exact h (hshort.plain (hpart.eq_of_length_le hshort.length).symm)
  · intro c hmem
    rcases mem_shortest hmem with hc|hc
    · exact Or.inl hc
    · exact Or.inr (by simpa using hc)

end shortest

end Photogram.LikePattern
