import Photogram.AuthRequest
import Photogram.ContentConnection

/-!
# Encoded queries read by both servers

A query of keys and values that hold none of the marks is read back by both
copies of the scanner. The content server scans the target alone; the
authentication server scans from the fifth byte of what follows the method,
which is inside the path as soon as its name has two characters. Both store
the same pairs, and of the pairs with one key the last one stays.
-/

namespace Photogram.QueryRoundTrip

open CxxString QueryString

/-- A text without question mark, equality sign, ampersand and blank. -/
structure Unmarked (text : Bytes) : Prop where
  /-- No question mark. -/
  noQuestion : (63 : UInt8) ∉ text
  /-- No equality sign. -/
  noEquality : (61 : UInt8) ∉ text
  /-- No ampersand. -/
  noAmpersand : (38 : UInt8) ∉ text
  /-- No blank. -/
  noBlank : (32 : UInt8) ∉ text

/-- Encode a list of keys and values. -/
def encodeQuery : List (Bytes×Bytes) → Bytes
  | [] => []
  | [pair] => pair.1++61::pair.2
  | pair::next::rest => pair.1++61::(pair.2++38::encodeQuery (next::rest))

/-- The target of a path name and a query. -/
def queryTarget (name : Bytes) (pairs : List (Bytes×Bytes)) : Bytes :=
  47::(name++63::encodeQuery pairs)

/-- Store pairs in order. -/
def storePairs (pairs : List (Bytes×Bytes)) (result : PropertyMap) : PropertyMap :=
  pairs.foldl (fun result pair => result.insert pair.1 pair.2) result

/-- Of the pairs with one key the last one stays. -/
theorem getElem?_storePairs (pairs : List (Bytes×Bytes)) (result : PropertyMap) (key : Bytes) :
    (storePairs pairs result)[key]?=(pairs.reverse.lookup key).or result[key]? := by
  induction pairs generalizing result with
  | nil => rfl
  | cons pair pairs ih =>
    refine (ih (result.insert pair.1 pair.2)).trans ?_
    rw [List.reverse_cons,List.lookup_append,Option.or_assoc,getElem?_insert]
    congr 1
    by_cases hkey : pair.1=key
    · rw [if_pos hkey,←hkey,List.lookup_singleton,if_pos BEq.rfl,Option.some_or]
    · rw [if_neg hkey]
      have hother : (key==pair.1)=false := beq_false_of_ne fun heq => hkey heq.symm
      rw [List.lookup_singleton,hother,if_neg Bool.false_ne_true,Option.none_or]

/-- Positions of encoded pairs, the first of which starts at a position. -/
def encodedSpans : ℕ → List (Bytes×Bytes) → List PairSpan
  | _,[] => []
  | p,pair::rest =>
    ⟨p,p+pair.1.length,p+pair.1.length+1+pair.2.length⟩::
      encodedSpans (p+pair.1.length+1+pair.2.length+1) rest

section spans

/-- A text without question mark, equality sign and ampersand is passed over. -/
theorem pairSpans_passed {text : Bytes} (hquestion : (63 : UInt8) ∉ text)
    (hequality : (61 : UInt8) ∉ text) (hampersand : (38 : UInt8) ∉ text) (region : Bytes)
    (p properStart separator : ℕ) :
    pairSpans (text++region) p properStart separator=
      pairSpans region (p+text.length) properStart separator := by
  induction text generalizing p with
  | nil => rfl
  | cons c text ih =>
    rw [List.cons_append]
    conv_lhs => unfold pairSpans
    rw [if_neg (List.ne_of_not_mem_cons hquestion).symm,
      if_neg (List.ne_of_not_mem_cons hequality).symm,
      if_neg (List.ne_of_not_mem_cons hampersand).symm,
      ih (List.not_mem_of_not_mem_cons hquestion) (List.not_mem_of_not_mem_cons hequality)
        (List.not_mem_of_not_mem_cons hampersand),
      List.length_cons,Nat.add_assoc,Nat.add_comm 1]

/-- A path without ampersand is passed over, and the first key starts behind
its question mark. -/
theorem pairSpans_path {path : Bytes} (h : (38 : UInt8) ∉ path) (region : Bytes)
    (p properStart separator : ℕ) :
    ∃ last,pairSpans (path++63::region) p properStart separator=
      pairSpans region (p+path.length+1) (p+path.length+1) last := by
  induction path generalizing p properStart separator with
  | nil => exact ⟨separator,rfl⟩
  | cons c path ih =>
    have hampersand := List.ne_of_not_mem_cons h
    have hrest := List.not_mem_of_not_mem_cons h
    have hlength : p+(c::path).length+1=p+1+path.length+1 := by
      rw [List.length_cons]
      omega
    rw [List.cons_append,hlength]
    conv => enter [1,last]; lhs; unfold pairSpans
    split
    · exact ih hrest _ _ _
    split
    · exact ih hrest _ _ _
    rw [if_neg hampersand.symm]
    exact ih hrest _ _ _

/-- A pair is passed over from the start of its key to the end of its value. -/
theorem pairSpans_pair {pair : Bytes×Bytes} (hkey : Unmarked pair.1) (hvalue : Unmarked pair.2)
    (region : Bytes) (p separator : ℕ) :
    pairSpans (pair.1++61::(pair.2++region)) p p separator=
      pairSpans region (p+pair.1.length+1+pair.2.length) p (p+pair.1.length) := by
  rw [pairSpans_passed hkey.noQuestion hkey.noEquality hkey.noAmpersand]
  conv_lhs => unfold pairSpans
  rw [if_neg (by decide),if_pos rfl,
    pairSpans_passed hvalue.noQuestion hvalue.noEquality hvalue.noAmpersand]

/-- An encoded query stores the pairs it was made of. -/
theorem pairSpans_encodeQuery {pairs : List (Bytes×Bytes)} (hne : pairs≠[])
    (hpairs : ∀ pair ∈ pairs,Unmarked pair.1 ∧ Unmarked pair.2) {p : ℕ} (hp : 0<p)
    (separator : ℕ) :
    pairSpans (encodeQuery pairs) p p separator=some (encodedSpans p pairs) := by
  induction pairs generalizing p separator with
  | nil => exact absurd rfl hne
  | cons pair rest ih =>
    obtain ⟨hkey,hvalue⟩ := hpairs pair List.mem_cons_self
    cases rest with
    | nil =>
      have hpass := pairSpans_pair hkey hvalue [] p separator
      rw [List.append_nil] at hpass
      exact hpass
    | cons next rest =>
      have hlate : ¬(p=0 ∨ p+pair.1.length=0) := by omega
      have hrest := ih (List.cons_ne_nil next rest)
        (fun other hother => hpairs other (List.mem_cons_of_mem pair hother))
        (p := p+pair.1.length+1+pair.2.length+1) (Nat.succ_pos _) (p+pair.1.length)
      have hpass := pairSpans_pair hkey hvalue (38::encodeQuery (next::rest)) p separator
      refine hpass.trans ?_
      conv_lhs => unfold pairSpans
      rw [if_neg (by decide),if_neg (by decide),if_pos rfl,if_neg hlate,hrest]
      rfl

/-- What is stored for encoded pairs are the pairs. -/
theorem storeSpans_encodedSpans (pairs : List (Bytes×Bytes)) (before after : Bytes)
    (result : PropertyMap) (hs : (before++(encodeQuery pairs++after)).length ≤ maxSize) :
    storeSpans (before++(encodeQuery pairs++after)) (encodedSpans before.length pairs) result=
      storePairs pairs result := by
  have hm : maxSize<sizeModulus := by decide
  induction pairs generalizing before result with
  | nil => rfl
  | cons pair rest ih =>
    obtain ⟨tail,htail⟩ : ∃ tail,encodeQuery (pair::rest)++after=pair.1++61::(pair.2++tail) := by
      cases rest with
      | nil => exact ⟨after,by simp [encodeQuery]⟩
      | cons next rest =>
        exact ⟨38::(encodeQuery (next::rest)++after),by simp [encodeQuery]⟩
    have hlength := hs
    rw [htail] at hlength
    simp only [List.length_append,List.length_cons] at hlength
    have hkey : PairSpan.key (before++(encodeQuery (pair::rest)++after))
        ⟨before.length,before.length+pair.1.length,
          before.length+pair.1.length+1+pair.2.length⟩=pair.1 := by
      unfold PairSpan.key
      dsimp only
      rw [subSize_eq (by omega) (by omega),Nat.add_sub_cancel_left,List.drop_left,htail,
        List.take_left]
    have hvalue : PairSpan.value (before++(encodeQuery (pair::rest)++after))
        ⟨before.length,before.length+pair.1.length,
          before.length+pair.1.length+1+pair.2.length⟩=pair.2 := by
      have hsplit : before++(pair.1++61::(pair.2++tail))=(before++pair.1++[61])++(pair.2++tail) := by
        simp
      have hbehind : (before++pair.1++[61]).length=before.length+pair.1.length+1 := by
        simp only [List.length_append,List.length_singleton]
      unfold PairSpan.value
      dsimp only
      rw [subSize_eq (by omega) (by omega),Nat.add_sub_cancel_left,htail,hsplit,
        List.drop_left' hbehind,List.take_left]
    unfold encodedSpans storeSpans
    rw [List.foldl_cons,hkey,hvalue]
    cases rest with
    | nil => rfl
    | cons next rest =>
      have hsplit : before++(encodeQuery (pair::next::rest)++after)=
          (before++pair.1++[61]++pair.2++[38])++(encodeQuery (next::rest)++after) := by
        simp [encodeQuery]
      have hbehind : (before++pair.1++[61]++pair.2++[38]).length=
          before.length+pair.1.length+1+pair.2.length+1 := by
        simp only [List.length_append,List.length_singleton]
      have hrest := ih (before++pair.1++[61]++pair.2++[38]) (result.insert pair.1 pair.2)
        (by rw [←hsplit]; exact hs)
      rw [←hsplit,hbehind] at hrest
      exact hrest

/-- A query holds no blank. -/
theorem encodeQuery_noBlank {pairs : List (Bytes×Bytes)}
    (hpairs : ∀ pair ∈ pairs,Unmarked pair.1 ∧ Unmarked pair.2) :
    (32 : UInt8) ∉ encodeQuery pairs := by
  induction pairs with
  | nil => exact List.not_mem_nil
  | cons pair rest ih =>
    obtain ⟨hkey,hvalue⟩ := hpairs pair List.mem_cons_self
    have hrest := ih fun other hother => hpairs other (List.mem_cons_of_mem pair hother)
    cases rest with
    | nil => simp [encodeQuery,hkey.noBlank,hvalue.noBlank]
    | cons next rest => simp [encodeQuery,hkey.noBlank,hvalue.noBlank,hrest]

/-- The scanner, started in the path in front of an encoded query, reads the
query back. -/
theorem scanQuery_encodeQuery {path : Bytes} {pairs : List (Bytes×Bytes)} (before after : Bytes)
    (hampersand : (38 : UInt8) ∉ path) (hblank : (32 : UInt8) ∉ path) (hne : pairs≠[])
    (hpairs : ∀ pair ∈ pairs,Unmarked pair.1 ∧ Unmarked pair.2)
    (hafter : queryRegion after=[])
    (hs : (before++(path++63::(encodeQuery pairs++after))).length ≤ maxSize) :
    scanQuery (before++(path++63::(encodeQuery pairs++after))) ∅ before.length=
      .ok (storePairs pairs ∅) := by
  have hregion : queryRegion (path++63::(encodeQuery pairs++after))=path++63::encodeQuery pairs := by
    have hread : ∀ c ∈ path++63::encodeQuery pairs,(c != 32)=true := by
      intro c hmem
      rw [bne_iff_ne]
      rintro rfl
      rcases List.mem_append.mp hmem with hpath|hquery
      · exact hblank hpath
      · rcases List.mem_cons.mp hquery with heq|hquery
        · exact absurd heq (by decide)
        · exact encodeQuery_noBlank hpairs hquery
    have hsplit : path++63::(encodeQuery pairs++after)=(path++63::encodeQuery pairs)++after := by
      simp
    rw [hsplit]
    unfold queryRegion at hafter ⊢
    rw [List.takeWhile_append_of_pos hread,hafter,List.append_nil]
  obtain ⟨last,hpath⟩ := pairSpans_path hampersand (encodeQuery pairs) before.length 0 0
  have hsplit : before++(path++63::(encodeQuery pairs++after))=
      (before++path++[63])++(encodeQuery pairs++after) := by
    simp
  have hbehind : (before++path++[63]).length=before.length+path.length+1 := by
    simp only [List.length_append,List.length_singleton]
  have hstore := storeSpans_encodedSpans pairs (before++path++[63]) after ∅
    (by rw [←hsplit]; exact hs)
  rw [←hsplit,hbehind] at hstore
  rw [scanQuery_spans (by simp),List.drop_left,hregion,hpath,
    pairSpans_encodeQuery hne hpairs (Nat.succ_pos _)]
  exact congrArg Except.ok hstore

end spans

/-- Both parsers read an encoded query back as the map from each key to the
value of its last occurrence: that of the content server from the target, that
of the authentication server from the fifth byte of the request behind its
method. -/
theorem URLParser_queryTarget {name : Bytes} {pairs : List (Bytes×Bytes)} (hname : 2 ≤ name.length)
    (hampersand : (38 : UInt8) ∉ name) (hblank : (32 : UInt8) ∉ name) (hne : pairs≠[])
    (hpairs : ∀ pair ∈ pairs,Unmarked pair.1 ∧ Unmarked pair.2) (target : CxxText)
    (htarget : target.bytes=queryTarget name pairs) (after : Bytes) (request : CxxText)
    (hrequest : request.bytes=32::(target.bytes++32::after)) :
    ∃ properties : PropertyMap,ContentConnection.URLParser target.bytes=.ok properties ∧
      AuthRequest.URLParser request.bytes ∅ 4=.ok properties ∧
      ∀ key,properties[key]?=pairs.reverse.lookup key := by
  refine ⟨storePairs pairs ∅,?_,?_,fun key => ?_⟩
  · have hs := target.size_le
    have hsplit : queryTarget name pairs=[]++((47::name)++63::(encodeQuery pairs++[])) := by
      simp [queryTarget]
    rw [htarget,hsplit] at hs ⊢
    exact scanQuery_encodeQuery [] [] (by simp [hampersand]) (by simp [hblank]) hne hpairs rfl hs
  · have hs := request.size_le
    obtain ⟨first,second,rest,rfl⟩ : ∃ first second rest,name=first::second::rest := by
      match name,hname with
      | first::second::rest,_ => exact ⟨first,second,rest,rfl⟩
    have hsplit : (32 : UInt8)::(queryTarget (first::second::rest) pairs++32::after)=
        [32,47,first,second]++(rest++63::(encodeQuery pairs++32::after)) := by
      simp [queryTarget]
    rw [hrequest,htarget,hsplit] at hs ⊢
    exact scanQuery_encodeQuery [32,47,first,second] (32::after)
      (fun hmem => hampersand (by simp [hmem])) (fun hmem => hblank (by simp [hmem])) hne hpairs rfl hs
  · rw [getElem?_storePairs,Std.ExtTreeMap.getElem?_empty,Option.or_none]

/-- Pairs of a page, the limit of which is given twice. -/
def samplePairs : List (Bytes×Bytes) :=
  [(ascii "LIMIT",ascii "5"),(ascii "OFFSET",ascii "10"),(ascii "LIMIT",[])]

/-- The last limit of the page is the empty one. -/
theorem URLParser_samplePairs :
    ∃ properties : PropertyMap,
      ContentConnection.URLParser (queryTarget (ascii "getPostsList") samplePairs)=.ok properties ∧
      AuthRequest.URLParser (32::(queryTarget (ascii "getPostsList") samplePairs++
        32::ascii "HTTP/1.1\r\n")) ∅ 4=.ok properties ∧
      ∀ key,properties[key]?=samplePairs.reverse.lookup key :=
  URLParser_queryTarget (by decide) (by decide) (by decide) (by decide)
    (fun pair hpair => by
      have hall : ∀ pair ∈ samplePairs,∀ c ∈ [(63 : UInt8),61,38,32],c ∉ pair.1 ∧ c ∉ pair.2 := by
        decide +kernel
      have hmarks := hall pair hpair
      exact ⟨⟨(hmarks 63 (by decide)).1,(hmarks 61 (by decide)).1,(hmarks 38 (by decide)).1,
          (hmarks 32 (by decide)).1⟩,
        ⟨(hmarks 63 (by decide)).2,(hmarks 61 (by decide)).2,(hmarks 38 (by decide)).2,
          (hmarks 32 (by decide)).2⟩⟩)
    ⟨queryTarget (ascii "getPostsList") samplePairs,by decide⟩ rfl (ascii "HTTP/1.1\r\n")
    ⟨32::(queryTarget (ascii "getPostsList") samplePairs++32::ascii "HTTP/1.1\r\n"),by decide⟩ rfl

/-- An ampersand in the name is refused as the end of a pair, and behind a blank
in the name the query is not read. -/
theorem URLParser_markedName :
    (∀ properties,ContentConnection.URLParser
        (queryTarget (ascii "my&posts") [(ascii "k",ascii "v")])≠.ok properties) ∧
      (∀ properties,AuthRequest.URLParser
        (32::(queryTarget (ascii "my&posts") [(ascii "k",ascii "v")]++32::ascii "HTTP/1.1")) ∅ 4≠
          .ok properties) ∧
      ∀ properties,ContentConnection.URLParser
          (queryTarget (ascii "my posts") [(ascii "k",ascii "v")])=.ok properties →
        properties[ascii "k"]?≠[(ascii "k",ascii "v")].reverse.lookup (ascii "k") := by
  have hrefused : ∀ answer : Except Failure PropertyMap,
      (match answer with | .ok _ => false | .error _ => true)=true →
      ∀ properties,answer≠.ok properties := by
    rintro answer hanswer properties rfl
    cases hanswer
  refine ⟨hrefused _ (by decide +kernel),hrefused _ (by decide +kernel),fun properties h => ?_⟩
  have hunread : (match ContentConnection.URLParser
      (queryTarget (ascii "my posts") [(ascii "k",ascii "v")]) with
    | .ok properties => decide (properties[ascii "k"]?=some (ascii "v"))
    | .error _ => true)=false := by decide +kernel
  rw [h] at hunread
  exact of_decide_eq_false hunread

end Photogram.QueryRoundTrip
