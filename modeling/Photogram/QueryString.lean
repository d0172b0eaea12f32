import Photogram.CxxString
import Mathlib.Tactic.Tauto

/-!
# The query scanner shared by both servers

The two URLParser functions have one body: a single pass that remembers
the start of the current key and the last equality sign, stores a pair at
each ampersand and one more behind the loop. The map is the only output;
an ampersand met before both a question mark and an equality sign raises.
-/

namespace Photogram.QueryString

open CxxString

/-- Properties parsed from a query or a form. -/
abbrev PropertyMap := ByteMap Bytes

/-- Value of a key; an absent one reads as the empty string. -/
def property (properties : PropertyMap) (key : Bytes) : Bytes := properties.getD key []

/-- A property just stored is found. -/
theorem property_insert (properties : PropertyMap) (key value : Bytes) :
    property (properties.insert key value) key=value := by
  simp [property]

/-- Variables of the scanning loop. -/
structure QueryCursor where
  /-- Position of the character about to be read. -/
  p : ℕ
  /-- First position of the current key, zero before any question mark. -/
  properStart : ℕ
  /-- Position of the last equality sign, zero before any. -/
  separator : ℕ
  /-- Pairs stored so far. -/
  result : PropertyMap

/-- Store the pair that ends before position p. The statement behind the
loop subtracts the separator and one in turn, which is the same word. -/
def storePair (s : Bytes) (cursor : QueryCursor) : Except Failure PropertyMap := do
  let value ← substr s (cursor.separator+1) (subSize cursor.p (cursor.separator+1))
  let key ← substr s cursor.properStart (subSize cursor.separator cursor.properStart)
  return cursor.result.insert key value

/-- The scanning loop over the characters from position p on. The codes are
the blank (32), which ends it, `?` (63), `=` (61) and `&` (38). -/
def queryLoop (s : Bytes) : Bytes → QueryCursor → Except Failure QueryCursor
  | [],cursor => .ok cursor
  | currChar::rest,cursor =>
    if currChar=32 then .ok cursor
    else if currChar=63 then
      queryLoop s rest {cursor with p := cursor.p+1,properStart := cursor.p+1}
    else if currChar=61 then
      queryLoop s rest {cursor with p := cursor.p+1,separator := cursor.p}
    else if currChar=38 then
      if cursor.properStart=0 ∨ cursor.separator=0 then
        .error (.thrown (.runtimeError "bad http"))
      else do
        let result ← storePair s cursor
        queryLoop s rest ⟨cursor.p+1,cursor.p+1,cursor.separator,result⟩
    else queryLoop s rest {cursor with p := cursor.p+1}

/-- Parse the query of a request line from a start position on. -/
def scanQuery (s : Bytes) (result : PropertyMap) (start : ℕ) : Except Failure PropertyMap :=
  if s=[] then .ok result
  else do
    let cursor ← queryLoop s (s.drop start) ⟨start,0,0,result⟩
    storePair s cursor

/-- Both remembered positions can be cut at. -/
def QueryCursor.Inside (s : Bytes) (cursor : QueryCursor) : Prop :=
  cursor.properStart ≤ s.length ∧ cursor.separator<s.length

/-- The pair of a cursor whose positions are inside the string. -/
theorem storePair_eq {s : Bytes} {cursor : QueryCursor} (h : cursor.Inside s) :
    storePair s cursor=
      .ok (cursor.result.insert
        ((s.drop cursor.properStart).take (subSize cursor.separator cursor.properStart))
        ((s.drop (cursor.separator+1)).take (subSize cursor.p (cursor.separator+1)))) := by
  have hseparator : cursor.separator+1 ≤ s.length := h.2
  unfold storePair
  rw [substr_of_le _ hseparator,substr_of_le _ h.1]
  rfl

/-- The characters the loop reads: those before the first blank. -/
def queryRegion (rest : Bytes) : Bytes := rest.takeWhile (· != 32)

/-- Another character than the blank is read. -/
theorem queryRegion_cons {c : UInt8} (hblank : c≠32) (rest : Bytes) :
    queryRegion (c::rest)=c::queryRegion rest := by
  simp [queryRegion,hblank]

/-- Where a stored pair was cut: the loop's positions at that time. -/
structure PairSpan where
  /-- First position of the key. -/
  properStart : ℕ
  /-- Position of the equality sign. -/
  separator : ℕ
  /-- Position behind the value. -/
  stop : ℕ

/-- Key of a pair. A separator in front of the start of the key makes its
length wrap, and the key runs to the end of the string. -/
def PairSpan.key (s : Bytes) (span : PairSpan) : Bytes :=
  (s.drop span.properStart).take (subSize span.separator span.properStart)

/-- Value of a pair. -/
def PairSpan.value (s : Bytes) (span : PairSpan) : Bytes :=
  (s.drop (span.separator+1)).take (subSize span.stop (span.separator+1))

/-- The pairs the loop stores while it reads a region from a position on;
nothing when an ampersand comes too early. The loop's control depends on the
characters it reads and on no others. -/
def pairSpans : Bytes → ℕ → ℕ → ℕ → Option (List PairSpan)
  | [],p,properStart,separator => some [⟨properStart,separator,p⟩]
  | c::region,p,properStart,separator =>
    if c=63 then pairSpans region (p+1) (p+1) separator
    else if c=61 then pairSpans region (p+1) properStart p
    else if c=38 then
      if properStart=0 ∨ separator=0 then none
      else (pairSpans region (p+1) (p+1) separator).map (⟨properStart,separator,p⟩::·)
    else pairSpans region (p+1) properStart separator

/-- Store pairs in order. -/
def storeSpans (s : Bytes) (spans : List PairSpan) (result : PropertyMap) : PropertyMap :=
  spans.foldl (fun result span => result.insert (span.key s) (span.value s)) result

/-- What a scan answers for the pairs it stores. -/
def spansAnswer (s : Bytes) (result : PropertyMap) : Option (List PairSpan) → Except Failure PropertyMap
  | none => .error (.thrown (.runtimeError "bad http"))
  | some spans => .ok (storeSpans s spans result)

/-- A pair in front of the others is stored first. -/
theorem spansAnswer_cons (s : Bytes) (result : PropertyMap) (span : PairSpan)
    (spans : Option (List PairSpan)) :
    spansAnswer s result (spans.map (span::·))=
      spansAnswer s (result.insert (span.key s) (span.value s)) spans := by
  cases spans <;> rfl

/-- The loop and the statement behind it store the pairs of the region. -/
theorem queryLoop_spans {s rest : Bytes} {cursor : QueryCursor} (hrest : rest=s.drop cursor.p)
    (hin : cursor.Inside s) :
    (queryLoop s rest cursor>>=storePair s)=spansAnswer s cursor.result
      (pairSpans (queryRegion rest) cursor.p cursor.properStart cursor.separator) := by
  induction rest generalizing cursor with
  | nil => exact storePair_eq hin
  | cons c rest ih =>
    have hlt : cursor.p<s.length := by
      by_contra hge
      rw [List.drop_eq_nil_of_le (by omega)] at hrest
      cases hrest
    have hnext : rest=s.drop (cursor.p+1) := by
      rw [←List.tail_drop,←hrest,List.tail_cons]
    by_cases hblank : c=32
    · subst hblank
      exact storePair_eq hin
    rw [queryRegion_cons hblank]
    unfold queryLoop pairSpans
    rw [if_neg hblank]
    by_cases hquestion : c=63
    · rw [if_pos hquestion,if_pos hquestion]
      exact @ih {cursor with p := cursor.p+1,properStart := cursor.p+1} hnext ⟨hlt,hin.2⟩
    rw [if_neg hquestion,if_neg hquestion]
    by_cases hequal : c=61
    · rw [if_pos hequal,if_pos hequal]
      exact @ih {cursor with p := cursor.p+1,separator := cursor.p} hnext ⟨hin.1,hlt⟩
    rw [if_neg hequal,if_neg hequal]
    by_cases hamp : c=38
    · rw [if_pos hamp,if_pos hamp]
      by_cases hearly : cursor.properStart=0 ∨ cursor.separator=0
      · rw [if_pos hearly,if_pos hearly]
        rfl
      · rw [if_neg hearly,if_neg hearly,storePair_eq hin,ok_bind,spansAnswer_cons]
        exact @ih ⟨cursor.p+1,cursor.p+1,cursor.separator,_⟩ hnext ⟨hlt,hin.2⟩
    · rw [if_neg hamp,if_neg hamp]
      exact @ih {cursor with p := cursor.p+1} hnext hin

/-- A scan of a string stores the pairs of the region it reads. -/
theorem scanQuery_spans {s : Bytes} (hs : s≠[]) (result : PropertyMap) (start : ℕ) :
    scanQuery s result start=spansAnswer s result (pairSpans (queryRegion (s.drop start)) start 0 0) := by
  unfold scanQuery
  rw [if_neg hs]
  exact queryLoop_spans rfl ⟨Nat.zero_le _,List.length_pos_iff.mpr hs⟩

/-- A scan fails only on an ampersand that comes too early. -/
theorem raisesOnly_scanQuery (s : Bytes) (result : PropertyMap) (start : ℕ) :
    RaisesOnly (.runtimeError "bad http") (scanQuery s result start) := by
  by_cases hs : s=[]
  · unfold scanQuery
    rw [if_pos hs]
    exact raisesOnly_ok _
  · rw [scanQuery_spans hs]
    cases pairSpans (queryRegion (s.drop start)) start 0 0 with
    | none => exact raisesOnly_thrown _
    | some spans => exact raisesOnly_ok _

/-- What stands before the first ampersand of a region. -/
def beforeAmpersand (region : Bytes) : Bytes := region.takeWhile (· != 38)

/-- No ampersand comes before both a question mark and an equality sign;
the two flags say which of the signs were already met. -/
def QueryReady (question equality : Prop) (region : Bytes) : Prop :=
  38 ∈ region → (question ∨ 63 ∈ beforeAmpersand region) ∧ (equality ∨ 61 ∈ beforeAmpersand region)

/-- Reading another character than the ampersand moves it into the flags. -/
theorem queryReady_cons {question equality : Prop} {c : UInt8} {region : Bytes} (hamp : c≠38) :
    QueryReady question equality (c::region) ↔
      QueryReady (question ∨ c=63) (equality ∨ c=61) region := by
  have hb : beforeAmpersand (c::region)=c::beforeAmpersand region := by
    simp [beforeAmpersand,hamp]
  simp only [QueryReady,hb,List.mem_cons]
  have h38 : ¬(38 : UInt8)=c := fun h => hamp h.symm
  simp only [h38,false_or,@eq_comm _ (63 : UInt8),@eq_comm _ (61 : UInt8)]
  tauto

/-- Behind the first character, pairs are stored exactly when every
ampersand is ready. -/
theorem pairSpans_isSome_iff {region : Bytes} {p properStart separator : ℕ} (hp : 0<p) :
    (pairSpans region p properStart separator).isSome ↔
      QueryReady (properStart≠0) (separator≠0) region := by
  induction region generalizing p properStart separator with
  | nil => exact iff_of_true rfl fun h => absurd h List.not_mem_nil
  | cons c region ih =>
    have hpos : p≠0 := Nat.ne_of_gt hp
    unfold pairSpans
    by_cases hamp : c=38
    · subst hamp
      have hready : QueryReady (properStart≠0) (separator≠0) (38::region) ↔
          ¬(properStart=0 ∨ separator=0) := by
        simp [QueryReady,beforeAmpersand]
      rw [hready,if_neg (by decide),if_neg (by decide),if_pos rfl]
      split
      · next hearly => exact iff_of_false nofun (not_not.mpr hearly)
      · next hlate =>
        rw [Option.isSome_map,ih (Nat.succ_pos p)]
        refine iff_of_true (fun _ => ?_) hlate
        exact ⟨Or.inl (Nat.succ_ne_zero p),Or.inl (not_or.mp hlate).2⟩
    rw [queryReady_cons hamp,if_neg hamp]
    by_cases hquestion : c=63
    · rw [if_pos hquestion,ih (Nat.succ_pos p)]
      simp [QueryReady,hquestion]
    rw [if_neg hquestion]
    by_cases hequal : c=61
    · rw [if_pos hequal,ih (Nat.succ_pos p)]
      simp [QueryReady,hequal,hpos]
    · rw [if_neg hequal,ih (Nat.succ_pos p)]
      simp only [hquestion,hequal,or_false]

/-- A scan returns exactly when it stores pairs. -/
theorem returns_spansAnswer_iff (s : Bytes) (result : PropertyMap)
    (spans : Option (List PairSpan)) : Returns (spansAnswer s result spans) ↔ spans.isSome := by
  cases spans with
  | none => exact iff_of_false (not_returns_error _) nofun
  | some spans => exact iff_of_true (returns_ok _) rfl

/-- Started behind the first character, the scanner returns exactly when
no ampersand before the first blank comes too early. -/
theorem returns_scanQuery_iff {s : Bytes} (result : PropertyMap) {start : ℕ} (hs : s≠[])
    (hstart : 0<start) :
    Returns (scanQuery s result start) ↔
      QueryReady False False (queryRegion (s.drop start)) := by
  rw [scanQuery_spans hs,returns_spansAnswer_iff,pairSpans_isSome_iff hstart]
  simp only [ne_eq,not_true_eq_false]

end Photogram.QueryString
