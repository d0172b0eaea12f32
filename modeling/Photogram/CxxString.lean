import Mathlib.Algebra.Group.Int.Defs
import Mathlib.Algebra.Group.Nat.Defs
import Mathlib.Data.List.Infix
import Mathlib.Data.List.TakeWhile
import Mathlib.Data.Int.Notation
import Mathlib.Data.Nat.Notation
import Mathlib.Order.Basic
import Std.Data.ExtTreeMap

/-!
# Strings, positions and conversions of the C++ standard library

Sizes are 64-bit words that wrap, a failed search answers the largest word,
and a substring clips its count but raises beyond the end. Searches scan
lists over any alphabet; the mathematical occurrence predicate is the
specification every search lemma is stated against. Raised exceptions and
undefined operations are values, so a caller can tell which of the two
ended a run.
-/

namespace Photogram.CxxString

/-- Number of values of a 64-bit size word. -/
def sizeModulus : ℕ := 2^64

/-- The largest size word, answered by a search that finds nothing. -/
def npos : ℕ := sizeModulus-1

/-- Greatest length of a string of one-byte characters. -/
def maxSize : ℕ := 2^63-1

/-- Every position in a string differs from the failed search. -/
theorem maxSize_lt_npos : maxSize<npos := by decide

/-- The answer of a failed search is a size word. -/
theorem npos_lt_sizeModulus : npos<sizeModulus := by decide

/-- Addition of size words wraps at the modulus. -/
def addSize (a b : ℕ) : ℕ := (a+b)%sizeModulus

/-- Subtraction of size words wraps below zero. -/
def subSize (a b : ℕ) : ℕ := (a+(sizeModulus-b%sizeModulus))%sizeModulus

/-- Addition below the modulus is exact. -/
theorem addSize_eq {a b : ℕ} (h : a+b<sizeModulus) : addSize a b=a+b := Nat.mod_eq_of_lt h

/-- Subtraction of a smaller word is exact. -/
theorem subSize_eq {a b : ℕ} (h : b ≤ a) (ha : a<sizeModulus) : subSize a b=a-b := by
  unfold subSize
  rw [Nat.mod_eq_of_lt (h.trans_lt ha)]
  have he : a+(sizeModulus-b)=a-b+sizeModulus := by omega
  rw [he,Nat.add_mod_right,Nat.mod_eq_of_lt (by omega)]

/-- Subtraction of a greater word wraps. -/
theorem subSize_of_lt {a b : ℕ} (h : a<b) (hb : b<sizeModulus) :
    subSize a b=sizeModulus+a-b := by
  unfold subSize
  rw [Nat.mod_eq_of_lt hb,Nat.mod_eq_of_lt (by omega)]
  omega

/-- One less and one more is the same word again. -/
theorem addSize_subSize_one {a : ℕ} (h : a<sizeModulus) : addSize (subSize a 1) 1=a := by
  unfold addSize subSize sizeModulus at *
  omega

/-- Exceptions derived from std::exception, with the text of what(). -/
inductive CxxException where
  /-- A position beyond the end, or a number outside the target type. -/
  | outOfRange
  /-- A text that is not a number. -/
  | invalidArgument
  /-- A string grown beyond its greatest length. -/
  | lengthError
  /-- A text the JSON library does not accept. -/
  | jsonParse
  /-- A JSON value of another type than the one asked for. -/
  | jsonType
  /-- A runtime error, carrying its text. -/
  | runtimeError (what : String)
  deriving DecidableEq

/-- Operations the language leaves undefined. -/
inductive UndefinedOperation where
  /-- Dereference of an optional that holds nothing. -/
  | emptyOptional
  /-- Dereference of begin() of an empty map. -/
  | emptyMapBegin
  /-- A read past the end of a string literal. -/
  | literalOverrun
  /-- A read through a view whose string is destroyed. -/
  | expiredView
  deriving DecidableEq

/-- The two ways a call ends without returning. -/
inductive Failure where
  /-- An exception leaves the call. -/
  | thrown (e : CxxException)
  /-- The call performs an undefined operation. -/
  | undefined (u : UndefinedOperation)
  deriving DecidableEq

/-- The call returned, neither raising nor leaving defined behaviour. -/
def Returns {α : Type*} (result : Except Failure α) : Prop := ∃ value,result=.ok value

/-- A returned value is a return. -/
@[simp] theorem returns_ok {α : Type*} (value : α) :
    Returns (.ok value : Except Failure α) := ⟨value,rfl⟩

/-- A failure is not a return. -/
@[simp] theorem not_returns_error {α : Type*} (failure : Failure) :
    ¬Returns (.error failure : Except Failure α) := by
  rintro ⟨value,h⟩
  cases h

/-- A sequence goes on with the value its first call returned. -/
theorem ok_bind {α β : Type} (value : α) (rest : α → Except Failure β) :
    (Except.ok value>>=rest)=rest value := rfl

/-- A sequence fails when its first call does. -/
theorem error_bind {α β : Type} (failure : Failure) (rest : α → Except Failure β) :
    (Except.error failure>>=rest)=.error failure := rfl

/-- A sequence that returns went through a returning first part. -/
theorem bind_eq_ok {α β : Type} {first : Except Failure α} {rest : α → Except Failure β} {value : β}
    (h : (first>>=rest)=.ok value) : ∃ head,first=.ok head ∧ rest head=.ok value := by
  cases first with
  | error failure => cases h
  | ok head => exact ⟨head,rfl,h⟩

/-- A sequence returns when its first call does and the rest does on its value. -/
theorem returns_bind {α β : Type} (first : Except Failure α) (rest : α → Except Failure β) :
    Returns (first>>=rest) ↔ ∃ value,first=.ok value ∧ Returns (rest value) := by
  cases first with
  | error failure =>
    constructor
    · intro h
      exact absurd h (not_returns_error failure)
    · rintro ⟨value,h,_⟩
      cases h
  | ok value =>
    constructor
    · intro h
      exact ⟨value,rfl,h⟩
    · rintro ⟨_,h,hr⟩
      cases h
      exact hr

/-- Wrapping a returned value changes nothing about returning. -/
theorem returns_map_iff {α β : Type} (first : Except Failure α) (wrap : α → β) :
    Returns (first>>=fun value => pure (wrap value)) ↔ Returns first := by
  rw [returns_bind]
  exact ⟨fun ⟨value,hvalue,_⟩ => ⟨value,hvalue⟩,fun ⟨value,hvalue⟩ => ⟨value,hvalue,returns_ok _⟩⟩

/-- So does mapping it. -/
theorem returns_exceptMap_iff {α β : Type} (first : Except Failure α) (wrap : α → β) :
    Returns (first.map wrap) ↔ Returns first := by
  cases first with
  | error failure => exact iff_of_false (not_returns_error _) (not_returns_error _)
  | ok value => exact iff_of_true (returns_ok _) (returns_ok _)

/-- The call stays within defined behaviour: it returns or raises. -/
def Defined {α : Type*} (result : Except Failure α) : Prop := ∀ u,result≠.error (.undefined u)

/-- A returned value is within defined behaviour. -/
theorem defined_ok {α : Type*} (value : α) : Defined (.ok value : Except Failure α) :=
  fun _ h => nomatch h

/-- So is an exception. -/
theorem defined_thrown {α : Type*} (e : CxxException) :
    Defined (.error (.thrown e) : Except Failure α) := by
  intro u h
  cases h

/-- A sequence of calls within defined behaviour stays within it. -/
theorem defined_bind {α β : Type} {first : Except Failure α} {rest : α → Except Failure β}
    (hfirst : Defined first) (hrest : ∀ value,Defined (rest value)) : Defined (first>>=rest) := by
  cases first with
  | error failure =>
    intro u h
    cases h
    exact hfirst u rfl
  | ok value => exact hrest value

/-- The only way the call fails is one exception. -/
def RaisesOnly {α : Type*} (e : CxxException) (result : Except Failure α) : Prop :=
  ∀ failure,result=.error failure → failure=.thrown e

/-- A returned value does not fail. -/
theorem raisesOnly_ok {α : Type*} {e : CxxException} (value : α) :
    RaisesOnly e (.ok value : Except Failure α) := fun _ h => nomatch h

/-- An exception is the only one of its call. -/
theorem raisesOnly_thrown {α : Type*} (e : CxxException) :
    RaisesOnly e (.error (.thrown e) : Except Failure α) := by
  rintro failure ⟨⟩
  rfl

/-- A sequence fails as its calls do. -/
theorem raisesOnly_bind {α β : Type} {e : CxxException} {first : Except Failure α}
    {rest : α → Except Failure β} (hfirst : RaisesOnly e first)
    (hrest : ∀ value,RaisesOnly e (rest value)) : RaisesOnly e (first>>=rest) := by
  cases first with
  | error failure =>
    rintro failure ⟨⟩
    exact hfirst _ rfl
  | ok value => exact hrest value

/-- A call that raises one exception stays within defined behaviour. -/
theorem RaisesOnly.defined {α : Type*} {e : CxxException} {result : Except Failure α}
    (h : RaisesOnly e result) : Defined result := fun _ hundefined => nomatch h _ hundefined

section occurrence

variable {α : Type*}

/-- The needle stands in the string at a position inside it. -/
def Occurs (needle s : List α) (p : ℕ) : Prop := p ≤ s.length ∧ needle<+:s.drop p

instance [DecidableEq α] (needle s : List α) (p : ℕ) : Decidable (Occurs needle s p) :=
  inferInstanceAs (Decidable (_ ∧ _))

/-- Occurrence in a suffix is occurrence in the string at the shifted position. -/
theorem occurs_drop {needle s : List α} {pos d : ℕ} (hpos : pos ≤ s.length) :
    Occurs needle (s.drop pos) d ↔ Occurs needle s (pos+d) := by
  simp only [Occurs,List.length_drop,List.drop_drop]
  constructor <;> rintro ⟨h,ho⟩ <;> exact ⟨by omega,ho⟩

/-- A match ends inside the string. -/
theorem Occurs.end_le {needle s : List α} {p : ℕ} (h : Occurs needle s p) :
    p+needle.length ≤ s.length := by
  have hl := h.2.length_le
  rw [List.length_drop] at hl
  have hp := h.1
  omega

/-- A match is a part of the string. -/
theorem Occurs.isInfix {needle s : List α} {p : ℕ} (h : Occurs needle s p) : needle<:+:s :=
  h.2.isInfix.trans (List.drop_suffix p s).isInfix

/-- The needle stands behind any left part it follows. -/
theorem occurs_behind (before needle after : List α) :
    Occurs needle (before++(needle++after)) before.length := by
  refine ⟨by rw [List.length_append]; omega,?_⟩
  rw [List.drop_left]
  exact List.prefix_append _ _

/-- A part of the string stands at some position of it. -/
theorem exists_occurs_of_isInfix {needle s : List α} (h : needle<:+:s) : ∃ p,Occurs needle s p := by
  obtain ⟨before,after,rfl⟩ := h
  rw [List.append_assoc]
  exact ⟨before.length,occurs_behind before needle after⟩

/-- A match that ends inside the left part of a concatenation is a match of that part. -/
theorem occurs_append_left {needle s t : List α} {p : ℕ} (hp : p+needle.length ≤ s.length) :
    Occurs needle (s++t) p ↔ Occurs needle s p := by
  have hd : (s++t).drop p=s.drop p++t := List.drop_append_of_le_length (by omega)
  simp only [Occurs,hd,List.length_append]
  constructor
  · rintro ⟨_,ho⟩
    refine ⟨by omega,?_⟩
    exact List.prefix_of_prefix_length_le ho (List.prefix_append _ _)
      (by rw [List.length_drop]; omega)
  · rintro ⟨_,ho⟩
    exact ⟨by omega,ho.trans (List.prefix_append _ _)⟩

/-- A match beyond the left part of a concatenation is a match of the right part. -/
theorem occurs_append_right {needle s t : List α} {d : ℕ} :
    Occurs needle (s++t) (s.length+d) ↔ Occurs needle t d := by
  simp only [Occurs,List.length_append,List.drop_append,
    List.drop_eq_nil_of_le (Nat.le_add_right s.length d),List.nil_append,Nat.add_sub_cancel_left]
  constructor <;> rintro ⟨h,ho⟩ <;> exact ⟨by omega,ho⟩

/-- The first character of a match stands at its position. -/
theorem Occurs.head {c : α} {needle s : List α} {p : ℕ} (h : Occurs (c::needle) s p) :
    s[p]?=some c := by
  obtain ⟨after,ha⟩ := h.2
  have hh := congrArg List.head? ha
  simpa [List.head?_drop] using hh.symm

/-- A character the needle lacks separates its matches: each ends before
that character or starts behind it. -/
theorem occurs_around {c : α} {needle u v : List α} {p : ℕ} (hc : c ∉ needle)
    (hn : needle≠[]) (h : Occurs needle (u++c::v) p) :
    p+needle.length ≤ u.length ∨ u.length+1 ≤ p := by
  by_contra hcross
  obtain ⟨after,ha⟩ := h.2
  have hlen : 0<needle.length := List.length_pos_iff.mpr hn
  have hp : p ≤ u.length := by omega
  have hg : (needle++after)[u.length-p]?=some c := by
    rw [ha,List.getElem?_drop,Nat.add_sub_cancel' hp,List.getElem?_append_right (le_refl _)]
    simp
  rw [List.getElem?_append_left (by omega)] at hg
  exact hc (List.mem_of_getElem? hg)

/-- Parts of a string split at a character the needle lacks lie on one side. -/
theorem isInfix_around {c : α} {needle u v : List α} (hc : c ∉ needle) (hn : needle≠[]) :
    needle<:+:u++c::v ↔ needle<:+:u ∨ needle<:+:v := by
  constructor
  · intro h
    obtain ⟨p,hp⟩ := exists_occurs_of_isInfix h
    rcases occurs_around hc hn hp with hl|hr
    · exact Or.inl ((occurs_append_left hl).mp hp).isInfix
    · obtain ⟨d,rfl⟩ := Nat.exists_eq_add_of_le hr
      have he : u++c::v=u++[c]++v := by simp
      rw [he] at hp
      have hlen : u.length+1=(u++[c]).length := by simp
      rw [hlen] at hp
      exact Or.inr (occurs_append_right.mp hp).isInfix
  · rintro (h|h)
    · exact h.trans (List.prefix_append _ _).isInfix
    · exact h.trans ((List.suffix_cons c v).trans (List.suffix_append _ _)).isInfix

/-- A part that begins with a character the left side lacks lies on the right. -/
theorem isInfix_behind_head {c : α} {needle u v : List α} (hc : c ∉ u)
    (h : c::needle<:+:u++v) : c::needle<:+:v := by
  obtain ⟨p,hp⟩ := exists_occurs_of_isInfix h
  have hhead := hp.head
  by_cases hlt : p<u.length
  · rw [List.getElem?_append_left hlt] at hhead
    exact absurd (List.mem_of_getElem? hhead) hc
  · obtain ⟨d,rfl⟩ := Nat.exists_eq_add_of_le (Nat.le_of_not_lt hlt)
    exact (occurs_append_right.mp hp).isInfix

end occurrence

section search

variable {α : Type*} [DecidableEq α]

/-- First match in a remaining suffix whose position is i. -/
def scan (needle : List α) : List α → ℕ → Option ℕ
  | [],i => if needle<+:[] then some i else none
  | a::s,i => if needle<+:a::s then some i else scan needle s (i+1)

/-- First match at or after a position, when there is one. -/
def find? (s needle : List α) (pos : ℕ) : Option ℕ :=
  if pos ≤ s.length then scan needle (s.drop pos) pos else none

/-- The search of the library, answering npos when nothing is found. -/
def find (s needle : List α) (pos : ℕ) : ℕ := (find? s needle pos).getD npos

/-- Position of the first character that is one of the given ones. -/
def findFirstOf (s chars : List α) : ℕ := (s.findIdx? (· ∈ chars)).getD npos

/-- The suffix scan answers the least offset at which the needle stands. -/
theorem scan_eq_some_iff {needle s : List α} {i p : ℕ} :
    scan needle s i=some p ↔ ∃ d,p=i+d ∧ Occurs needle s d ∧ ∀ e<d,¬Occurs needle s e := by
  induction s generalizing i with
  | nil =>
    simp only [scan,Occurs,List.length_nil,Nat.le_zero,List.drop_nil]
    constructor
    · intro h
      split at h
      · next hn =>
        cases h
        exact ⟨0,rfl,⟨rfl,hn⟩,by simp⟩
      · cases h
    · rintro ⟨d,rfl,⟨rfl,hn⟩,_⟩
      rw [if_pos hn]
      rfl
  | cons a s ih =>
    by_cases hn : needle<+:a::s
    · simp only [scan,if_pos hn,Option.some.injEq]
      constructor
      · rintro rfl
        exact ⟨0,rfl,⟨Nat.zero_le _,hn⟩,by simp⟩
      · rintro ⟨d,rfl,_,hleast⟩
        cases d with
        | zero => rfl
        | succ d => exact absurd ⟨Nat.zero_le _,hn⟩ (hleast 0 (Nat.succ_pos d))
    · simp only [scan,if_neg hn]
      rw [ih]
      constructor
      · rintro ⟨d,rfl,⟨hd,ho⟩,hleast⟩
        refine ⟨d+1,by omega,⟨Nat.succ_le_succ hd,ho⟩,?_⟩
        intro e he
        cases e with
        | zero => exact fun h => hn h.2
        | succ e => exact fun h => hleast e (by omega) ⟨Nat.le_of_succ_le_succ h.1,h.2⟩
      · rintro ⟨d,rfl,⟨hd,ho⟩,hleast⟩
        cases d with
        | zero => exact absurd ho hn
        | succ d =>
          refine ⟨d,by omega,⟨Nat.le_of_succ_le_succ hd,ho⟩,?_⟩
          exact fun e he h => hleast (e+1) (by omega) ⟨Nat.succ_le_succ h.1,h.2⟩

/-- The search answers the least position from pos at which the needle stands. -/
theorem find?_eq_some_iff {s needle : List α} {pos p : ℕ} :
    find? s needle pos=some p ↔
      pos ≤ p ∧ Occurs needle s p ∧ ∀ q,pos ≤ q → q<p → ¬Occurs needle s q := by
  unfold find?
  by_cases hpos : pos ≤ s.length
  · rw [if_pos hpos,scan_eq_some_iff]
    constructor
    · rintro ⟨d,rfl,ho,hleast⟩
      refine ⟨by omega,(occurs_drop hpos).mp ho,?_⟩
      intro q hq hlt hocc
      obtain ⟨e,rfl⟩ := Nat.exists_eq_add_of_le hq
      exact hleast e (by omega) ((occurs_drop hpos).mpr hocc)
    · rintro ⟨hle,ho,hleast⟩
      obtain ⟨d,rfl⟩ := Nat.exists_eq_add_of_le hle
      refine ⟨d,rfl,(occurs_drop hpos).mpr ho,?_⟩
      exact fun e he hocc => hleast (pos+e) (by omega) (by omega) ((occurs_drop hpos).mp hocc)
  · rw [if_neg hpos]
    constructor
    · intro h
      cases h
    · rintro ⟨hle,ho,_⟩
      exact absurd (hle.trans ho.1) hpos

/-- The search finds nothing exactly when the needle stands nowhere from pos. -/
theorem find?_eq_none_iff {s needle : List α} {pos : ℕ} :
    find? s needle pos=none ↔ ∀ q,pos ≤ q → ¬Occurs needle s q := by
  constructor
  · intro h q
    induction q using Nat.strong_induction_on with
    | _ q ih =>
      intro hq ho
      have hs : find? s needle pos=some q :=
        find?_eq_some_iff.mpr ⟨hq,ho,fun e he hlt => ih e hlt he⟩
      rw [h] at hs
      cases hs
  · intro h
    cases hf : find? s needle pos with
    | none => rfl
    | some p =>
      obtain ⟨hle,ho,_⟩ := find?_eq_some_iff.mp hf
      exact absurd ho (h p hle)

/-- A needle that stands at the start position is found there. -/
theorem find?_of_occurs {s needle : List α} {pos : ℕ} (h : Occurs needle s pos) :
    find? s needle pos=some pos :=
  find?_eq_some_iff.mpr ⟨le_rfl,h,fun q hq hlt => absurd hlt (by omega)⟩

/-- A search finds a match no later than any one behind its start. -/
theorem exists_find?_le {s needle : List α} {pos q : ℕ} (h : Occurs needle s q) (hq : pos ≤ q) :
    ∃ p,find? s needle pos=some p ∧ p ≤ q := by
  cases hf : find? s needle pos with
  | none => exact absurd h (find?_eq_none_iff.mp hf q hq)
  | some p =>
    refine ⟨p,rfl,Nat.le_of_not_lt fun hlt => ?_⟩
    exact (find?_eq_some_iff.mp hf).2.2 q hq hlt h

/-- A match behind which nothing more is found, found from the front, is the only one. -/
theorem eq_of_find? {s needle : List α} {p q : ℕ} (hfirst : find? s needle 0=some p)
    (hnext : find? s needle (p+1)=none) (h : Occurs needle s q) : q=p := by
  refine Nat.le_antisymm (Nat.le_of_not_lt fun hlt => ?_) (Nat.le_of_not_lt fun hlt => ?_)
  · exact find?_eq_none_iff.mp hnext q hlt h
  · exact (find?_eq_some_iff.mp hfirst).2.2 q (Nat.zero_le _) hlt h

/-- A found position is at least the start and its match ends inside the string. -/
theorem find?_bounds {s needle : List α} {pos p : ℕ} (h : find? s needle pos=some p) :
    pos ≤ p ∧ p+needle.length ≤ s.length := by
  obtain ⟨hle,ho,_⟩ := find?_eq_some_iff.mp h
  exact ⟨hle,ho.end_le⟩

/-- Appending bytes does not move a match that was already found. -/
theorem find?_append {s t needle : List α} {pos p : ℕ} (h : find? s needle pos=some p) :
    find? (s++t) needle pos=some p := by
  obtain ⟨hle,ho,hleast⟩ := find?_eq_some_iff.mp h
  have hend := ho.end_le
  refine find?_eq_some_iff.mpr ⟨hle,(occurs_append_left hend).mpr ho,?_⟩
  intro q hq hlt hocc
  exact hleast q hq hlt ((occurs_append_left (by omega)).mp hocc)

/-- A match that ends inside the left part is found in the left part alone. -/
theorem find?_of_append {s t needle : List α} {pos p : ℕ}
    (h : find? (s++t) needle pos=some p) (hp : p+needle.length ≤ s.length) :
    find? s needle pos=some p := by
  obtain ⟨hle,ho,hleast⟩ := find?_eq_some_iff.mp h
  refine find?_eq_some_iff.mpr ⟨hle,(occurs_append_left hp).mp ho,?_⟩
  intro q hq hlt hocc
  exact hleast q hq hlt ((occurs_append_left (by omega)).mpr hocc)

/-- A needle stands somewhere from pos exactly when it is part of the suffix. -/
theorem find?_isSome_iff {s needle : List α} {pos : ℕ} (hpos : pos ≤ s.length) :
    (find? s needle pos).isSome ↔ needle<:+:s.drop pos := by
  constructor
  · intro h
    obtain ⟨p,hp⟩ := Option.isSome_iff_exists.mp h
    obtain ⟨hle,ho,_⟩ := find?_eq_some_iff.mp hp
    obtain ⟨d,rfl⟩ := Nat.exists_eq_add_of_le hle
    have hd := ((occurs_drop hpos).mpr ho).2
    exact hd.isInfix.trans (List.drop_suffix d _).isInfix
  · rintro ⟨before,after,hs⟩
    have hl := congrArg List.length hs
    simp only [List.length_append,List.length_drop] at hl
    have ho : Occurs needle s (pos+before.length) := by
      refine (occurs_drop hpos).mp ⟨by rw [List.length_drop]; omega,?_⟩
      rw [←hs,List.append_assoc,List.drop_left]
      exact List.prefix_append _ _
    cases hf : find? s needle pos with
    | some p => rfl
    | none => exact absurd ho (find?_eq_none_iff.mp hf _ (by omega))

/-- A needle is found somewhere exactly when it is part of the string. -/
theorem find?_zero_isSome_iff {s needle : List α} :
    (find? s needle 0).isSome ↔ needle<:+:s := by
  rw [find?_isSome_iff (Nat.zero_le _),List.drop_zero]

/-- A search that finds nothing from the start finds no part of the string. -/
theorem find?_zero_eq_none_iff {s needle : List α} :
    find? s needle 0=none ↔ ¬needle<:+:s := by
  rw [←find?_zero_isSome_iff,Option.not_isSome_iff_eq_none]

/-- Scanning from a shifted position shifts the match. -/
theorem scan_add (needle s : List α) (k i : ℕ) :
    scan needle s (k+i)=(scan needle s i).map (k+·) := by
  induction s generalizing i with
  | nil => simp only [scan]; split <;> rfl
  | cons a s ih =>
    simp only [scan]
    split
    · rfl
    · exact ih (i+1)

/-- Searching a concatenation beyond its left part searches the right part. -/
theorem find?_append_right (before s needle : List α) (pos : ℕ) :
    find? (before++s) needle (before.length+pos)=
      (find? s needle pos).map (before.length+·) := by
  unfold find?
  rw [List.length_append,List.drop_append]
  simp only [Nat.add_le_add_iff_left,List.drop_eq_nil_of_le (Nat.le_add_right _ _),
    List.nil_append,Nat.add_sub_cancel_left]
  split
  · exact scan_add needle (s.drop pos) before.length pos
  · rfl

/-- Starting later, but not behind the match, finds the same match. -/
theorem find?_from {s needle : List α} {pos later p : ℕ} (h : find? s needle pos=some p)
    (hle : pos ≤ later) (hp : later ≤ p) : find? s needle later=some p := by
  obtain ⟨_,ho,hleast⟩ := find?_eq_some_iff.mp h
  exact find?_eq_some_iff.mpr ⟨hp,ho,fun q hq hlt => hleast q (hle.trans hq) hlt⟩

/-- A needle that stands behind a left part, and nowhere before its end, is found there. -/
theorem find?_at {before needle after : List α} (h : ∀ q<before.length,
    ¬Occurs needle (before++(needle++after)) q) :
    find? (before++(needle++after)) needle 0=some before.length :=
  find?_eq_some_iff.mpr ⟨Nat.zero_le _,occurs_behind _ _ _,fun q _ hq => h q hq⟩

/-- Positions the needle does not stand at are skipped. -/
theorem find?_late {s needle : List α} {later : ℕ} (h : ∀ q<later,¬Occurs needle s q) :
    find? s needle 0=find? s needle later := by
  cases hf : find? s needle later with
  | none =>
    refine find?_eq_none_iff.mpr fun q _ => ?_
    rcases Nat.lt_or_ge q later with hlt|hge
    · exact h q hlt
    · exact find?_eq_none_iff.mp hf q hge
  | some p =>
    obtain ⟨_,hocc,hleast⟩ := find?_eq_some_iff.mp hf
    refine find?_eq_some_iff.mpr ⟨Nat.zero_le _,hocc,fun q _ hlt => ?_⟩
    rcases Nat.lt_or_ge q later with hbefore|hge
    · exact h q hbefore
    · exact hleast q hge hlt

/-- A left part without the first character of the needle is skipped by a
search in what follows. -/
theorem find?_skip {c : α} {before needle : List α} (hhead : needle.head?=some c)
    (h : c ∉ before) (s : List α) :
    find? (before++s) needle 0=(find? s needle 0).map (before.length+·) := by
  have hlate : ∀ q<before.length,¬Occurs needle (before++s) q := by
    intro q hq hocc
    cases needle with
    | nil => cases hhead
    | cons d needle =>
      cases Option.some.inj hhead
      have hmem := hocc.head
      rw [List.getElem?_append_left hq] at hmem
      exact h (List.mem_of_getElem? hmem)
  rw [find?_late hlate]
  exact find?_append_right before s needle 0

/-- Behind such a left part the needle is found at once. -/
theorem find?_behind_head {c : α} {before needle after : List α} (h : c ∉ before) :
    find? (before++(c::needle++after)) (c::needle) 0=some before.length := by
  apply find?_at
  intro q hq ho
  have hh := ho.head
  rw [List.getElem?_append_left hq] at hh
  exact h (List.mem_of_getElem? hh)

/-- A part without the needle, ended by a character the needle lacks, is skipped. -/
theorem find?_around {c : α} {needle u v : List α} (hc : c ∉ needle) (hn : needle≠[])
    (hu : ¬needle<:+:u) :
    find? (u++c::v) needle 0=(find? v needle 0).map (u.length+1+·) := by
  have hsplit : u++c::v=(u++[c])++v := by simp
  have hlen : (u++[c]).length=u.length+1 := by simp
  have hshift := find?_append_right (u++[c]) v needle 0
  rw [←hsplit,hlen,Nat.add_zero] at hshift
  have hlate : ∀ q<u.length+1,¬Occurs needle (u++c::v) q := by
    intro q hq hocc
    rcases occurs_around hc hn hocc with hleft|hright
    · exact hu ((occurs_append_left hleft).mp hocc).isInfix
    · omega
  rw [find?_late hlate,hshift]

/-- Behind a text without them, the first of some characters stands where it is put. -/
theorem findFirstOf_behind {c : α} {before chars : List α} (hbefore : ∀ d ∈ before,d ∉ chars)
    (hc : c ∈ chars) (after : List α) : findFirstOf (before++c::after) chars=before.length := by
  have hnone : before.findIdx? (· ∈ chars)=none :=
    List.findIdx?_eq_none_iff.mpr fun d hd => decide_eq_false (hbefore d hd)
  unfold findFirstOf
  rw [List.findIdx?_append,hnone,List.findIdx?_cons,decide_eq_true hc]
  simp

/-- A search that finds something answers its position. -/
theorem find_of_some {s needle : List α} {pos p : ℕ} (h : find? s needle pos=some p) :
    find s needle pos=p := by
  rw [find,h,Option.getD_some]

/-- A search that finds nothing answers npos. -/
theorem find_of_none {s needle : List α} {pos : ℕ} (h : find? s needle pos=none) :
    find s needle pos=npos := by
  rw [find,h,Option.getD_none]

/-- In a string of legal size npos means that nothing was found. -/
theorem find_eq_npos_iff {s needle : List α} {pos : ℕ} (hs : s.length ≤ maxSize) :
    find s needle pos=npos ↔ find? s needle pos=none := by
  constructor
  · intro h
    cases hf : find? s needle pos with
    | none => rfl
    | some p =>
      have hp := (find?_eq_some_iff.mp hf).2.1.1
      rw [find_of_some hf] at h
      simp only [npos,sizeModulus,maxSize] at h hs
      omega
  · exact find_of_none

/-- In a string of legal size a search from the start fails exactly when
the needle is no part of the string. -/
theorem find_zero_eq_npos_iff {s needle : List α} (hs : s.length ≤ maxSize) :
    find s needle 0=npos ↔ ¬needle<:+:s := by
  rw [find_eq_npos_iff hs,find?_zero_eq_none_iff]

/-- The part from a start to the first match found from a position, or to the end. -/
def cutAt (s needle : List α) (pos start : ℕ) : List α :=
  match find? s needle pos with
  | none => s.drop start
  | some stop => (s.drop start).take (stop-start)

/-- A left part does not matter to what is cut behind it. -/
theorem cutAt_append_right (before s needle : List α) (pos start : ℕ) :
    cutAt (before++s) needle (before.length+pos) (before.length+start)=
      cutAt s needle pos start := by
  unfold cutAt
  rw [find?_append_right,List.drop_length_add_append]
  cases find? s needle pos with
  | none => rfl
  | some stop =>
    dsimp only [Option.map_some]
    rw [Nat.add_sub_add_left]

/-- A cut part is no longer than what follows its start. -/
theorem cutAt_length_le (s needle : List α) (pos start : ℕ) :
    (cutAt s needle pos start).length ≤ s.length-start := by
  unfold cutAt
  split
  · rw [List.length_drop]
  · rw [List.length_take,List.length_drop]
    omega

/-- A cut part is a part of the string. -/
theorem cutAt_isInfix (s needle : List α) (pos start : ℕ) : cutAt s needle pos start<:+:s := by
  unfold cutAt
  split
  · exact (List.drop_suffix _ _).isInfix
  · exact (List.take_prefix _ _).isInfix.trans (List.drop_suffix _ _).isInfix

/-- A part cut from behind the start of the search does not hold the needle. -/
theorem cutAt_free {s needle : List α} {pos start : ℕ} (hn : needle≠[]) (h : pos ≤ start) :
    ¬needle<:+:cutAt s needle pos start := by
  have hlen : 0<needle.length := List.length_pos_iff.mpr hn
  intro hpart
  obtain ⟨p,hp⟩ := exists_occurs_of_isInfix hpart
  unfold cutAt at hp
  cases hf : find? s needle pos with
  | none =>
    rw [hf] at hp
    have hend := hp.end_le
    rw [List.length_drop] at hend
    exact find?_eq_none_iff.mp hf _ (by omega) ((occurs_drop (by omega)).mp hp)
  | some stop =>
    rw [hf] at hp
    have hend := hp.end_le
    rw [List.length_take,List.length_drop] at hend
    have hwhole : Occurs needle (s.drop start) p := by
      rw [←List.take_append_drop (stop-start) (s.drop start)]
      exact (occurs_append_left (by rw [List.length_take,List.length_drop]; omega)).mpr hp
    exact (find?_eq_some_iff.mp hf).2.2 _ (by omega) (by omega) ((occurs_drop (by omega)).mp hwhole)

/-- Taking up to a possibly failed search, with wrapping subtraction, cuts the part. -/
theorem take_subSize_find {s needle : List α} {pos start : ℕ} (hs : s.length ≤ maxSize)
    (hstart : start ≤ s.length) (hstop : ∀ stop,find? s needle pos=some stop → start ≤ stop) :
    (s.drop start).take (subSize (find s needle pos) start)=cutAt s needle pos start := by
  have hm := maxSize_lt_npos
  have hnm : npos=sizeModulus-1 := rfl
  unfold cutAt
  cases hf : find? s needle pos with
  | some stop =>
    have hle := (find?_bounds hf).2
    rw [find_of_some hf,subSize_eq (hstop stop hf) (by omega)]
  | none =>
    have hhalf : 2*maxSize<npos := by decide
    rw [find_of_none hf,subSize_eq (by omega) (by omega)]
    exact List.take_of_length_le (by rw [List.length_drop]; omega)

end search

/-- Substring of at most count characters; a position beyond the end raises. -/
def substr {α : Type*} (s : List α) (pos count : ℕ) : Except Failure (List α) :=
  if pos ≤ s.length then .ok ((s.drop pos).take count) else .error (.thrown .outOfRange)

/-- A position inside the string never raises. -/
theorem substr_of_le {α : Type*} {s : List α} {pos : ℕ} (count : ℕ) (h : pos ≤ s.length) :
    substr s pos count=.ok ((s.drop pos).take count) := if_pos h

/-- A position beyond the end always raises. -/
theorem substr_of_lt {α : Type*} {s : List α} {pos : ℕ} (count : ℕ) (h : s.length<pos) :
    substr s pos count=.error (.thrown .outOfRange) := if_neg (by omega)

/-- The default count npos takes everything behind the position. -/
theorem substr_npos {α : Type*} {s : List α} {pos : ℕ} (hs : s.length ≤ maxSize)
    (h : pos ≤ s.length) : substr s pos npos=.ok (s.drop pos) := by
  have hm := maxSize_lt_npos
  rw [substr_of_le _ h,List.take_of_length_le (by rw [List.length_drop]; omega)]

/-- A substring is no longer than the string. -/
theorem substr_length_le {α : Type*} {s part : List α} {pos count : ℕ}
    (h : substr s pos count=.ok part) : part.length ≤ s.length := by
  unfold substr at h
  split at h
  · cases h
    rw [List.length_take,List.length_drop]
    omega
  · cases h

/-- A substring call returns exactly when its position is inside the string. -/
theorem returns_substr_iff {α : Type} (s : List α) (pos count : ℕ) :
    Returns (substr s pos count) ↔ pos ≤ s.length := by
  unfold substr
  split <;> simp_all

/-- A substring call fails only on a position outside the string. -/
theorem raisesOnly_substr {α : Type} (s : List α) (pos count : ℕ) :
    RaisesOnly .outOfRange (substr s pos count) := by
  unfold substr
  split
  · exact raisesOnly_ok _
  · exact raisesOnly_thrown _

/-- Strings of bytes. -/
abbrev Bytes := List UInt8

/-- The bytes of an ASCII literal. -/
def ascii (text : String) : Bytes := text.toList.map fun c => c.toNat.toUInt8

/-- Literals are concatenated bytewise. -/
theorem ascii_append (a b : String) : ascii (a++b)=ascii a++ascii b := by
  unfold ascii
  rw [String.toList_append,List.map_append]

/-- A string object of the library: bytes of a legal size. -/
structure CxxText where
  /-- The stored bytes. -/
  bytes : Bytes
  /-- No string object exceeds the greatest length. -/
  size_le : bytes.length ≤ maxSize

/-- The ordered map of the library with byte-string keys, compared bytewise. -/
abbrev ByteMap (β : Type) := Std.ExtTreeMap Bytes β

/-- An insertion is found under its key and changes no other one. -/
theorem getElem?_insert {β : Type} (entries : ByteMap β) (key other : Bytes) (value : β) :
    (entries.insert key value)[other]?=if key=other then some value else entries[other]? := by
  rw [Std.ExtTreeMap.getElem?_insert]
  simp only [Std.LawfulEqCmp.compare_eq_iff_eq]

/-- Entry begin() refers to; dereferencing it in an empty map is undefined. -/
def mapBegin {β : Type} (entries : ByteMap β) : Except Failure (Bytes×β) :=
  match entries.toList with
  | [] => .error (.undefined .emptyMapBegin)
  | first::_ => .ok first

/-- The only entry of a map is the one begin() refers to. -/
theorem mapBegin_insert {β : Type} (key : Bytes) (value : β) :
    mapBegin ((∅ : ByteMap β).insert key value)=.ok (key,value) := by
  have hlength : ((∅ : ByteMap β).insert key value).toList.length=1 := by
    rw [Std.ExtTreeMap.length_toList,Std.ExtTreeMap.size_insert,Std.ExtTreeMap.contains_empty,
      Std.ExtTreeMap.size_empty]
    rfl
  obtain ⟨entry,hentry⟩ := List.length_eq_one_iff.mp hlength
  have hmem : (key,value) ∈ ((∅ : ByteMap β).insert key value).toList :=
    Std.ExtTreeMap.mem_toList_iff_getElem?_eq_some.mpr Std.ExtTreeMap.getElem?_insert_self
  unfold mapBegin
  rw [hentry] at hmem ⊢
  rw [List.mem_singleton.mp hmem]

/-- Value of an optional; dereferencing an empty one is undefined. -/
def optionalValue {α : Type} : Option α → Except Failure α
  | none => .error (.undefined .emptyOptional)
  | some value => .ok value

/-- White space of the C locale: blank and the five control characters from tab. -/
def isSpace (c : UInt8) : Bool := c=32 || (9 ≤ c && c ≤ 13)

/-- Decimal digits. -/
def isDigit (c : UInt8) : Bool := 48 ≤ c && c ≤ 57

/-- Value of a list of decimal digits, most significant first. -/
def decimalValue (digits : List UInt8) : ℕ :=
  digits.foldl (fun value digit => 10*value+(digit.toNat-48)) 0

/-- Optional sign of a numeral: whether it is negative, and what follows it. -/
def splitSign : List UInt8 → Bool×List UInt8
  | 45::rest => (true,rest)
  | 43::rest => (false,rest)
  | rest => (false,rest)

/-- Conversion to a 32-bit int: leading white space, an optional sign and the
longest run of digits. No digit, or a value outside the type, raises. -/
def stoi (text : List UInt8) : Except Failure ℤ :=
  let signed := splitSign (text.dropWhile isSpace)
  let digits := signed.2.takeWhile isDigit
  let value : ℤ := if signed.1 then -(decimalValue digits : ℤ) else decimalValue digits
  if digits=[] then .error (.thrown .invalidArgument)
  else if -2^31 ≤ value ∧ value<2^31 then .ok value
  else .error (.thrown .outOfRange)

/-- Reading a numeral with one blank in front of it: one too large for the
type raises. -/
theorem stoi_digits {digits : Bytes} (hne : digits≠[]) (hdigits : digits.all isDigit=true) :
    stoi (32::digits)=if decimalValue digits<2^31 then .ok (decimalValue digits : ℤ)
      else .error (.thrown .outOfRange) := by
  obtain ⟨first,others,rfl⟩ := List.exists_cons_of_ne_nil hne
  have hfirst : isDigit first=true := List.all_eq_true.mp hdigits first List.mem_cons_self
  have hrange : 48 ≤ first ∧ first ≤ 57 := by simpa [isDigit] using hfirst
  have hblank : (32::first::others).dropWhile isSpace=first::others := by
    have hspace : isSpace first=false := by
      unfold isSpace
      grind
    rw [List.dropWhile_cons_of_pos (by decide),List.dropWhile_cons_of_neg (by simp [hspace])]
  have hsign : splitSign (first::others)=(false,first::others) := by
    unfold splitSign
    split
    · next heq => cases heq; exact absurd hfirst (by decide)
    · next heq => cases heq; exact absurd hfirst (by decide)
    · rfl
  have hall : (first::others).takeWhile isDigit=first::others :=
    List.takeWhile_eq_self_iff.mpr fun d hd => List.all_eq_true.mp hdigits d hd
  unfold stoi
  rw [hblank,hsign]
  dsimp only
  rw [hall,if_neg hne,if_neg Bool.false_ne_true]
  by_cases hsmall : decimalValue (first::others)<2^31
  · rw [if_pos (by omega),if_pos hsmall]
  · rw [if_neg (by omega),if_neg hsmall]

/-- Conversion of an int to a size word: a negative number wraps. -/
def sizeOfInt (value : ℤ) : ℕ := (value%(sizeModulus : ℤ)).toNat

/-- A number below the modulus converts to itself. -/
theorem sizeOfInt_natCast {value : ℕ} (h : value<sizeModulus) : sizeOfInt value=value := by
  unfold sizeOfInt
  rw [Int.emod_eq_of_lt (by omega) (by omega),Int.toNat_natCast]

end Photogram.CxxString
