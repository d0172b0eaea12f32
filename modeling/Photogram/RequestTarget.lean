import Photogram.QueryPieces

/-!
# How far the query parser of the authentication server reads

The loop stops at the first blank, but the pairs are cut out of the whole
request. A key whose equality sign is missing is cut with a length that
wraps, and runs on through the headers and the body. Two requests with one
text up to the blank are parsed alike as long as no such key is stored, and
only then, for the keys that run on tell them apart.
-/

namespace Photogram.RequestTarget

open CxxString QueryString AuthRequest

/-- No key is cut off before its equality sign; the flag says that a key has
begun and no equality sign came since. -/
def keyed : Bool → Bytes → Bool
  | waiting,[] => !waiting
  | waiting,c::text =>
    if c=63 then keyed true text
    else if c=61 then keyed false text
    else if c=38 then !waiting && keyed true text
    else keyed waiting text

/-- An ampersand comes before a question mark or before an equality sign; one
at the first position of the string is not remembered. -/
def Early (start : ℕ) (text : Bytes) : Prop :=
  38 ∈ text ∧ (63 ∉ beforeAmpersand text ∨ 61 ∉ (beforeAmpersand text).drop (1-start))

instance (start : ℕ) (text : Bytes) : Decidable (Early start text) :=
  inferInstanceAs (Decidable (_ ∧ _))

section positions

variable {text : Bytes} {p properStart separator : ℕ} {spans : List PairSpan}

/-- Keys start before their pairs end, and pairs end inside the text. -/
theorem pairSpans_within (hstart : properStart ≤ p)
    (h : pairSpans text p properStart separator=some spans) :
    ∀ span ∈ spans,span.properStart ≤ span.stop ∧ span.stop ≤ p+text.length := by
  induction text generalizing p properStart separator spans with
  | nil =>
    cases h
    intro span hspan
    rw [List.mem_singleton.mp hspan]
    exact ⟨hstart,Nat.le_refl p⟩
  | cons c text ih =>
    have hlength : p+(c::text).length=p+1+text.length := by
      rw [List.length_cons]
      omega
    rw [hlength]
    unfold pairSpans at h
    split at h
    · exact ih (Nat.le_refl _) h
    split at h
    · exact ih (by omega) h
    split at h
    · split at h
      · cases h
      · obtain ⟨others,hothers,rfl⟩ := Option.map_eq_some_iff.mp h
        intro span hspan
        rcases List.mem_cons.mp hspan with rfl|hspan
        · dsimp only
          omega
        · exact ih (Nat.le_refl _) hothers span hspan
    · exact ih (by omega) h

/-- The separator of a pair is in front of its end, unless there is none and
the pair ends where the text does. -/
theorem pairSpans_separator (hp : separator<p ∨ separator=0)
    (h : pairSpans text p properStart separator=some spans) :
    ∀ span ∈ spans,span.separator<span.stop ∨ span.separator=0 ∧ span.stop=p+text.length := by
  induction text generalizing p properStart separator spans with
  | nil =>
    cases h
    intro span hspan
    rw [List.mem_singleton.mp hspan]
    exact hp.imp_right fun hzero => ⟨hzero,rfl⟩
  | cons c text ih =>
    have hlength : p+(c::text).length=p+1+text.length := by
      rw [List.length_cons]
      omega
    rw [hlength]
    unfold pairSpans at h
    split at h
    · exact ih (by omega) h
    split at h
    · exact ih (by omega) h
    split at h
    · split at h
      · cases h
      · next hlate =>
        obtain ⟨others,hothers,rfl⟩ := Option.map_eq_some_iff.mp h
        intro span hspan
        rcases List.mem_cons.mp hspan with rfl|hspan
        · exact Or.inl (hp.resolve_right (not_or.mp hlate).2)
        · exact ih (by omega) hothers span hspan
    · exact ih (by omega) h

/-- Keys do not start before the first one does. -/
theorem pairSpans_properStart {least : ℕ} (hfirst : least ≤ properStart) (hp : least ≤ p+1)
    (h : pairSpans text p properStart separator=some spans) :
    ∀ span ∈ spans,least ≤ span.properStart := by
  induction text generalizing p properStart separator spans with
  | nil =>
    cases h
    intro span hspan
    rw [List.mem_singleton.mp hspan]
    exact hfirst
  | cons c text ih =>
    unfold pairSpans at h
    split at h
    · exact ih hp (by omega) h
    split at h
    · exact ih hfirst (by omega) h
    split at h
    · split at h
      · cases h
      · obtain ⟨others,hothers,rfl⟩ := Option.map_eq_some_iff.mp h
        intro span hspan
        rcases List.mem_cons.mp hspan with rfl|hspan
        · exact hfirst
        · exact ih hp (by omega) hothers span hspan
    · exact ih hfirst (by omega) h

/-- Before any question mark only the pair behind the loop is stored; else
all keys start behind one. -/
theorem pairSpans_unstarted (h : pairSpans text p 0 separator=some spans) :
    (∃ last stop,spans=[⟨0,last,stop⟩]) ∨ ∀ span ∈ spans,p+1 ≤ span.properStart := by
  induction text generalizing p separator spans with
  | nil =>
    cases h
    exact Or.inl ⟨separator,p,rfl⟩
  | cons c text ih =>
    have hlater : ∀ {now : ℕ},pairSpans text (p+1) 0 now=some spans →
        (∃ last stop,spans=[⟨0,last,stop⟩]) ∨ ∀ span ∈ spans,p+1 ≤ span.properStart :=
      fun hrest => (ih hrest).imp_right fun hall span hspan => by
        have := hall span hspan
        omega
    unfold pairSpans at h
    split at h
    · exact Or.inr (pairSpans_properStart (Nat.le_refl (p+1)) (by omega) h)
    split at h
    · exact hlater h
    split at h
    · rw [if_pos (Or.inl rfl)] at h
      cases h
    · exact hlater h

/-- The separators of the stored pairs follow the starts of their keys exactly
when no key is cut off. -/
theorem pairSpans_keyed (hseparator : separator<p ∨ separator=0) (hstart : properStart ≤ p)
    (h : pairSpans text p properStart separator=some spans) :
    (∀ span ∈ spans,span.properStart ≤ span.separator) ↔
      keyed (decide (separator<properStart)) text=true := by
  induction text generalizing p properStart separator spans with
  | nil =>
    cases h
    simp [keyed]
  | cons c text ih =>
    unfold pairSpans at h
    unfold keyed
    split at h
    · have hwaiting : decide (separator<p+1)=true := decide_eq_true (by omega)
      have hrest := ih (by omega) (Nat.le_refl _) h
      rw [hwaiting] at hrest
      rw [if_pos ‹_›]
      exact hrest
    rw [if_neg ‹_›]
    split at h
    · have hanswered : decide (p<properStart)=false := decide_eq_false (by omega)
      have hrest := ih (by omega) (by omega) h
      rw [hanswered] at hrest
      rw [if_pos ‹_›]
      exact hrest
    rw [if_neg ‹_›]
    split at h
    · rw [if_pos ‹_›]
      split at h
      · cases h
      · obtain ⟨others,hothers,rfl⟩ := Option.map_eq_some_iff.mp h
        have hwaiting : decide (separator<p+1)=true := decide_eq_true (by omega)
        have hrest := ih (by omega) (Nat.le_refl _) hothers
        rw [hwaiting] at hrest
        rw [Bool.and_eq_true,←hrest,List.forall_mem_cons]
        simp
    · rw [if_neg ‹_›]
      exact ih (by omega) (by omega) h

/-- Pairs are stored exactly when no ampersand comes too early. -/
theorem pairSpans_early (start : ℕ) (text : Bytes) :
    (pairSpans text start 0 0).isSome ↔ ¬Early start text := by
  rcases Nat.eq_zero_or_pos start with rfl|hstart
  · -- at the first position of the string an equality sign leaves no trace
    cases text with
    | nil => exact iff_of_true rfl fun h => List.not_mem_nil h.1
    | cons c text =>
      by_cases hamp : c=38
      · subst hamp
        exact iff_of_false nofun (not_not.mpr ⟨List.mem_cons_self,Or.inl (by simp [beforeAmpersand])⟩)
      have hbefore : beforeAmpersand (c::text)=c::beforeAmpersand text := by
        simp [beforeAmpersand,hamp]
      have hmem : 38 ∈ c::text ↔ 38 ∈ text := by
        simp [List.mem_cons,Ne.symm hamp]
      unfold Early pairSpans
      rw [hbefore,hmem]
      by_cases hquestion : c=63
      · rw [if_pos hquestion,pairSpans_isSome_iff (Nat.succ_pos 0)]
        simp only [QueryReady,hquestion]
        simp
      rw [if_neg hquestion]
      have hnone : 63 ∉ c::beforeAmpersand text ↔ 63 ∉ beforeAmpersand text := by
        simp [Ne.symm hquestion]
      have hsame : (if c=61 then pairSpans text (0+1) 0 0 else if c=38 then
          if 0=0 ∨ 0=0 then none else (pairSpans text (0+1) (0+1) 0).map (⟨0,0,0⟩::·)
          else pairSpans text (0+1) 0 0)=pairSpans text 1 0 0 := by
        rw [if_neg hamp]
        split <;> rfl
      rw [hsame,pairSpans_isSome_iff (Nat.succ_pos 0),hnone]
      simp only [QueryReady]
      simp
  · have hzero : 1-start=0 := by omega
    rw [pairSpans_isSome_iff hstart]
    unfold Early QueryReady
    rw [hzero,List.drop_zero]
    simp

end positions

section tails

variable {text tail : Bytes} {span : PairSpan}

/-- A key that ends inside a text is read from the text alone. -/
theorem key_append (htext : text.length<sizeModulus) (hstart : span.properStart ≤ span.separator)
    (hseparator : span.separator ≤ text.length) : span.key (text++tail)=span.key text := by
  unfold PairSpan.key
  rw [subSize_eq hstart (by omega),List.drop_append_of_le_length (by omega),
    List.take_append_of_le_length (by rw [List.length_drop]; omega)]

/-- A value that ends inside a text is read from the text alone. -/
theorem value_append (htext : text.length<sizeModulus) (hseparator : span.separator<span.stop)
    (hstop : span.stop ≤ text.length) : span.value (text++tail)=span.value text := by
  have hle : span.separator+1 ≤ span.stop := hseparator
  unfold PairSpan.value
  rw [subSize_eq hle (by omega),List.drop_append_of_le_length (by omega),
    List.take_append_of_le_length (by rw [List.length_drop]; omega)]

/-- A key whose equality sign stands in front of it runs to the end. -/
theorem key_cutOff {s : Bytes} (hs : s.length ≤ maxSize) (hstart : span.separator<span.properStart)
    (hinside : span.properStart ≤ s.length) : span.key s=s.drop span.properStart := by
  have hhalf : 2*maxSize<sizeModulus := by decide
  have hlong : s.length ≤ subSize span.separator span.properStart := by
    unfold subSize
    rw [Nat.mod_eq_of_lt (show span.properStart<sizeModulus by omega),Nat.mod_eq_of_lt (by omega)]
    omega
  unfold PairSpan.key
  rw [List.take_of_length_le (by rw [List.length_drop]; omega)]

/-- Strings that agree on all pairs store the same map. -/
theorem storeSpans_congr {s t : Bytes} {spans : List PairSpan} {result : PropertyMap}
    (h : ∀ span ∈ spans,span.key s=span.key t ∧ span.value s=span.value t) :
    storeSpans s spans result=storeSpans t spans result := by
  induction spans generalizing result with
  | nil => rfl
  | cons span spans ih =>
    obtain ⟨hkey,hvalue⟩ := h span List.mem_cons_self
    unfold storeSpans
    rw [List.foldl_cons,List.foldl_cons,hkey,hvalue]
    exact ih fun other hother => h other (List.mem_cons_of_mem span hother)

/-- The keys of a map are those of the pairs stored. -/
theorem mem_storeSpans {s key : Bytes} {spans : List PairSpan} {result : PropertyMap} :
    key ∈ storeSpans s spans result ↔ (∃ span ∈ spans,span.key s=key) ∨ key ∈ result := by
  induction spans generalizing result with
  | nil => simp [storeSpans]
  | cons span spans ih =>
    have hstep : storeSpans s (span::spans) result=
        storeSpans s spans (result.insert (span.key s) (span.value s)) := rfl
    rw [hstep,ih,Std.ExtTreeMap.mem_insert,Std.LawfulEqCmp.compare_eq_iff_eq]
    rw [List.exists_mem_cons_iff,or_assoc,or_left_comm]

/-- What follows the first blank of a text. -/
theorem dropWhile_blank {front : Bytes} (hfront : (32 : UInt8) ∉ front) (rest : Bytes) :
    (front++32::rest).dropWhile (· != 32)=32::rest := by
  have hread : ∀ c ∈ front,(c != 32)=true := fun c hc =>
    bne_iff_ne.mpr fun heq => hfront (heq ▸ hc)
  rw [List.dropWhile_append_of_pos hread,List.dropWhile_cons_of_neg (by decide)]

end tails

section requests

variable {start : ℕ} {text left right : Bytes}

/-- The parser stores the pairs of what stands before the first blank. -/
theorem URLParser_spans (hstart : start ≤ text.length) (hblank : (32 : UInt8) ∉ text.drop start)
    (rest : Bytes) :
    URLParser (text++32::rest) ∅ start=
      spansAnswer (text++32::rest) ∅ (pairSpans (text.drop start) start 0 0) := by
  have hread : ∀ c ∈ text.drop start,(c != 32)=true := fun c hc =>
    bne_iff_ne.mpr fun heq => hblank (heq ▸ hc)
  have hregion : queryRegion ((text++32::rest).drop start)=text.drop start := by
    unfold queryRegion
    rw [List.drop_append_of_le_length hstart,List.takeWhile_append_of_pos hread,
      List.takeWhile_cons_of_neg (by decide),List.append_nil]
  have hscan := @scanQuery_spans (text++32::rest) (by simp) ∅ start
  rw [hregion] at hscan
  exact hscan

/-- Two requests store the same pairs when no key is cut off. -/
theorem storeSpans_keyed {spans : List PairSpan} (htext : text.length<sizeModulus)
    (hstart : start ≤ text.length) (hsome : 0<start ∨ text≠[])
    (hspans : pairSpans (text.drop start) start 0 0=some spans)
    (hkeyed : keyed false (text.drop start)=true) :
    storeSpans (text++32::left) spans ∅=storeSpans (text++32::right) spans ∅ := by
  have hordered := (pairSpans_keyed (Or.inr rfl) (Nat.zero_le start) hspans).mpr hkeyed
  have hwithin := pairSpans_within (Nat.zero_le start) hspans
  have hseparator := pairSpans_separator (Or.inr rfl) hspans
  have hend : start+(text.drop start).length=text.length := by
    rw [List.length_drop]
    omega
  have hpos : 0<text.length := by
    rcases hsome with hpos|hne
    · omega
    · exact List.length_pos_iff.mpr hne
  refine storeSpans_congr fun span hspan => ?_
  have hstop := (hwithin span hspan).2
  have hvalue : span.separator<span.stop := by
    rcases hseparator span hspan with hlt|⟨hzero,hlast⟩
    · exact hlt
    · omega
  have hkey := hordered span hspan
  rw [hend] at hstop
  rw [key_append htext hkey (by omega),key_append htext hkey (by omega),
    value_append htext hvalue hstop,value_append htext hvalue hstop]
  exact ⟨rfl,rfl⟩

/-- A key that is cut off tells two requests apart. -/
theorem storeSpans_cutOff {spans : List PairSpan} (hfirst : (text++32::left).length ≤ maxSize)
    (hsecond : (text++32::right).length ≤ maxSize) (hstart : start ≤ text.length)
    (hblank : (32 : UInt8) ∉ text.drop start)
    (hspans : pairSpans (text.drop start) start 0 0=some spans)
    (hcut : ∃ span ∈ spans,span.separator<span.properStart)
    (hsame : storeSpans (text++32::left) spans ∅=storeSpans (text++32::right) spans ∅) :
    left=right := by
  have hwithin := pairSpans_within (Nat.zero_le start) hspans
  have hmax : maxSize<sizeModulus := by decide
  have hend : start+(text.drop start).length=text.length := by
    rw [List.length_drop]
    omega
  have hshort : text.length<(text++32::left).length ∧ text.length<(text++32::right).length := by
    simp only [List.length_append,List.length_cons]
    omega
  obtain ⟨span,hspan,hwrapped⟩ := hcut
  have hbehind : ∀ other ∈ spans,start<other.properStart := by
    rcases pairSpans_unstarted hspans with ⟨last,stop,rfl⟩|hall
    · -- a pair that starts at zero is in front of every separator
      rw [List.mem_singleton.mp hspan] at hwrapped
      exact absurd hwrapped (Nat.not_lt_zero last)
    · exact hall
  have hseparator : ∀ other ∈ spans,other.separator ≤ text.length := by
    intro other hother
    have := pairSpans_separator (Or.inr rfl) hspans other hother
    have := hwithin other hother
    omega
  have hnone : ∀ other ∈ spans,(32 : UInt8) ∉ text.drop other.properStart := by
    intro other hother hmem
    have hdrop := List.drop_drop (i := other.properStart-start) (j := start) (l := text)
    rw [Nat.add_sub_cancel' (hbehind other hother).le] at hdrop
    rw [←hdrop] at hmem
    exact hblank (List.mem_of_mem_drop hmem)
  have hinside := hwithin span hspan
  rw [hend] at hinside
  -- the key of this pair is stored for the other request too
  have hkey : span.key (text++32::left) ∈ storeSpans (text++32::right) spans ∅ := by
    rw [←hsame,mem_storeSpans]
    exact Or.inl ⟨span,hspan,rfl⟩
  rw [key_cutOff hfirst hwrapped (by omega),List.drop_append_of_le_length (by omega)] at hkey
  obtain ⟨other,hother,heq⟩ := (mem_storeSpans.mp hkey).resolve_right Std.ExtTreeMap.not_mem_empty
  have hothers := hwithin other hother
  rw [hend] at hothers
  by_cases hkept : other.properStart ≤ other.separator
  · -- a key inside the text holds no blank
    have hmem : (32 : UInt8) ∈ text.drop span.properStart++32::left := by simp
    rw [←heq,key_append (by omega) hkept (hseparator other hother)] at hmem
    exact absurd (List.mem_of_mem_take hmem) (hnone other hother)
  · rw [key_cutOff hsecond (by omega) (by omega),List.drop_append_of_le_length (by omega)] at heq
    have htails := congrArg (List.dropWhile (· != 32)) heq
    rw [dropWhile_blank (hnone other hother),dropWhile_blank (hnone span hspan)] at htails
    exact (List.cons.inj htails).2.symm

/-- Without a character in front of the blank the only value is what follows it. -/
theorem URLParser_blank {rest : Bytes} (hrest : rest.length ≤ maxSize) :
    URLParser (32::rest) ∅ 0=.ok ((∅ : PropertyMap).insert [] rest) := by
  have hlong : rest.length ≤ subSize 0 1 := by
    have : maxSize ≤ subSize 0 1 := by decide
    omega
  have hscan := @scanQuery_spans (32::rest) (List.cons_ne_nil 32 rest) ∅ 0
  refine hscan.trans ?_
  have hvalue : PairSpan.value (32::rest) ⟨0,0,0⟩=rest := by
    unfold PairSpan.value
    exact List.take_of_length_le hlong
  change Except.ok ((∅ : PropertyMap).insert _ (PairSpan.value (32::rest) ⟨0,0,0⟩))=_
  rw [hvalue]
  rfl

/-- With a key that is cut off, requests parsed alike are the same. -/
theorem eq_of_not_keyed (hstart : start ≤ text.length) (hblank : (32 : UInt8) ∉ text.drop start)
    (hfirst : (text++32::left).length ≤ maxSize) (hsecond : (text++32::right).length ≤ maxSize)
    (hearly : ¬Early start (text.drop start)) (hkeyed : keyed false (text.drop start)≠true)
    (hsame : URLParser (text++32::left) ∅ start=URLParser (text++32::right) ∅ start) :
    left=right := by
  obtain ⟨spans,hspans⟩ := Option.isSome_iff_exists.mp ((pairSpans_early _ _).mpr hearly)
  have hcut : ∃ span ∈ spans,span.separator<span.properStart := by
    by_contra hnone
    push Not at hnone
    exact hkeyed ((pairSpans_keyed (Or.inr rfl) (Nat.zero_le start) hspans).mp hnone)
  rw [URLParser_spans hstart hblank,URLParser_spans hstart hblank,hspans] at hsame
  exact storeSpans_cutOff hfirst hsecond hstart hblank hspans hcut (Except.ok.inj hsame)

/-- Two requests that agree up to the blank are parsed alike exactly when they
are the same, when an ampersand comes too early in the text read, or when
there is a character in front of the blank and no key is cut off before its
equality sign. -/
theorem URLParser_same_iff (hstart : start ≤ text.length) (hblank : (32 : UInt8) ∉ text.drop start)
    (first second : CxxText) (hfirst : first.bytes=text++32::left)
    (hsecond : second.bytes=text++32::right) :
    URLParser first.bytes ∅ start=URLParser second.bytes ∅ start ↔
      left=right ∨ Early start (text.drop start) ∨
        ((0<start ∨ text≠[]) ∧ keyed false (text.drop start)=true) := by
  have hfirstSize := first.size_le
  have hsecondSize := second.size_le
  rw [hfirst] at hfirstSize
  rw [hsecond] at hsecondSize
  have hmax : maxSize<sizeModulus := by decide
  have htext : text.length<sizeModulus := by
    rw [List.length_append] at hfirstSize
    omega
  rw [hfirst,hsecond]
  by_cases hearly : Early start (text.drop start)
  · refine iff_of_true ?_ (Or.inr (Or.inl hearly))
    have hnone : pairSpans (text.drop start) start 0 0=none := by
      rw [←Option.not_isSome_iff_eq_none,pairSpans_early]
      exact not_not.mpr hearly
    rw [URLParser_spans hstart hblank,URLParser_spans hstart hblank,hnone]
    rfl
  constructor
  · intro hsame
    by_cases hsome : 0<start ∨ text≠[]
    · by_cases hkeyed : keyed false (text.drop start)=true
      · exact Or.inr (Or.inr ⟨hsome,hkeyed⟩)
      · exact Or.inl (eq_of_not_keyed hstart hblank hfirstSize hsecondSize hearly hkeyed hsame)
    · obtain ⟨hzero,hempty⟩ := not_or.mp hsome
      obtain rfl := Nat.eq_zero_of_not_pos hzero
      obtain rfl := not_not.mp hempty
      have hshort : left.length ≤ maxSize ∧ right.length ≤ maxSize := by
        simp only [List.length_append,List.length_cons] at hfirstSize hsecondSize
        omega
      rw [List.nil_append,List.nil_append,URLParser_blank hshort.1,URLParser_blank hshort.2] at hsame
      have hvalue := congrArg (fun m : PropertyMap => m[([] : Bytes)]?) (Except.ok.inj hsame)
      simp only [Std.ExtTreeMap.getElem?_insert_self] at hvalue
      exact Or.inl (Option.some.inj hvalue)
  · rintro (rfl|hrefused|⟨hsome,hkeyed⟩)
    · rfl
    · exact absurd hrefused hearly
    · obtain ⟨spans,hspans⟩ := Option.isSome_iff_exists.mp ((pairSpans_early _ _).mpr hearly)
      rw [URLParser_spans hstart hblank,URLParser_spans hstart hblank,hspans]
      exact congrArg Except.ok (storeSpans_keyed htext hstart hsome hspans hkeyed)

/-- What follows the method in a request for a target, with a token. -/
def authorizedRequest (target token : Bytes) : Bytes :=
  32::target++32::(ascii "HTTP/1.1"++crlf++ascii "Authorization: Bearer "++token)

/-- With all keys complete the token leaves no trace. -/
theorem URLParser_friendQuery :
    URLParser (authorizedRequest (ascii "/makeFriend?friend=7") [97]) ∅ 4=
      URLParser (authorizedRequest (ascii "/makeFriend?friend=7") [98]) ∅ 4 :=
  (@URLParser_same_iff 4 (32::ascii "/makeFriend?friend=7") _ _ (by decide) (by decide)
    ⟨authorizedRequest (ascii "/makeFriend?friend=7") [97],by decide⟩
    ⟨authorizedRequest (ascii "/makeFriend?friend=7") [98],by decide⟩ rfl rfl).mpr
    (Or.inr (Or.inr (by decide)))

/-- The key without equality sign runs on to the token: two requests with one
target are told apart by what follows it. -/
theorem URLParser_cutOffKey :
    ¬∀ (start : ℕ) (text left right : Bytes),start ≤ text.length → (32 : UInt8) ∉ text.drop start →
      ∀ first second : CxxText,first.bytes=text++32::left → second.bytes=text++32::right →
        URLParser first.bytes ∅ start=URLParser second.bytes ∅ start := by
  intro hall
  have hsame := hall 4 (32::ascii "/makeFriend?friend") _ _ (by decide) (by decide)
    ⟨authorizedRequest (ascii "/makeFriend?friend") [97],by decide⟩
    ⟨authorizedRequest (ascii "/makeFriend?friend") [98],by decide⟩ rfl rfl
  have htokens := eq_of_not_keyed (by decide) (by decide) (by decide) (by decide) (by decide)
    (by decide) hsame
  exact absurd htokens (by decide)

end requests

end Photogram.RequestTarget
