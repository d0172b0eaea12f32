import Photogram.QueryRoundTrip

/-!
# Queries the scanner refuses

An ampersand is refused as long as no equality sign has been met, and the
one that has been met stays remembered. So of the pieces of a query only the
first is ever looked at, and only when another one follows it.
-/

namespace Photogram.QueryPieces

open CxxString QueryString QueryRoundTrip

/-- Answer of a query that is refused. -/
def refused : Except Failure PropertyMap := .error (.thrown (.runtimeError "bad http"))

/-- A query is refused exactly when one of its pieces has no equality sign. -/
def Judges (answer : Except Failure PropertyMap) (query : Bytes) : Prop :=
  answer=refused ↔ ∃ piece ∈ query.splitOn 38,(61 : UInt8) ∉ piece

/-- The first of several pieces has no equality sign. -/
def FirstBare (query : Bytes) : Prop :=
  ∃ first next rest,query.splitOn 38=first::next::rest ∧ (61 : UInt8) ∉ first

/-- A query with an ampersand has several pieces, the first one in front of it. -/
theorem firstBare_iff (query : Bytes) :
    FirstBare query ↔ 38 ∈ query ∧ 61 ∉ beforeAmpersand query := by
  by_cases hmem : 38 ∈ query
  · obtain ⟨before,after,rfl,hbefore⟩ := List.eq_append_cons_of_mem hmem
    have hfirst : beforeAmpersand (before++38::after)=before := by
      have hread : ∀ c ∈ before,(c != 38)=true := fun c hc =>
        bne_iff_ne.mpr fun heq => hbefore (heq ▸ hc)
      unfold beforeAmpersand
      rw [List.takeWhile_append_of_pos hread,List.takeWhile_cons_of_neg (by decide),List.append_nil]
    have hsplit := List.splitOn_append_cons_self_of_not_mem hbefore after
    obtain ⟨next,rest,hrest⟩ := List.exists_cons_of_ne_nil (List.splitOn_ne_nil 38 after)
    unfold FirstBare
    rw [hfirst,hsplit,hrest]
    constructor
    · rintro ⟨first,_,_,heq,hbare⟩
      cases heq
      exact ⟨hmem,hbare⟩
    · rintro ⟨_,hbare⟩
      exact ⟨before,next,rest,rfl,hbare⟩
  · refine iff_of_false ?_ fun h => hmem h.1
    rintro ⟨first,next,rest,heq,_⟩
    rw [List.splitOn_eq_singleton hmem] at heq
    cases heq

/-- A query without blank behind a path without marks is
refused exactly when the path is read to its end and the first of several
pieces has no equality sign. -/
theorem scanQuery_refused_iff (before path query after : Bytes)
    (hquestion : (63 : UInt8) ∉ path) (hequality : (61 : UInt8) ∉ path)
    (hampersand : (38 : UInt8) ∉ path) (hquery : (32 : UInt8) ∉ query) (hafter : queryRegion after=[]) :
    scanQuery (before++(path++63::(query++after))) ∅ before.length=refused ↔
      32 ∉ path ∧ FirstBare query := by
  have hanswer : ∀ s spans,spansAnswer s ∅ spans=refused ↔ ¬spans.isSome := by
    intro s spans
    cases spans with
    | none => exact iff_of_true rfl nofun
    | some spans => exact iff_of_false nofun (not_not.mpr rfl)
  rw [scanQuery_spans (by simp),List.drop_left,hanswer,firstBare_iff]
  by_cases hblank : 32 ∈ path
  · -- the loop stops at the blank and has met no mark
    obtain ⟨front,back,rfl,hfront⟩ := List.eq_append_cons_of_mem hblank
    have hregion : queryRegion (front++32::back++63::(query++after))=front := by
      have hread : ∀ c ∈ front,(c != 32)=true := fun c hc =>
        bne_iff_ne.mpr fun heq => hfront (heq ▸ hc)
      unfold queryRegion
      rw [List.append_assoc,List.cons_append,List.takeWhile_append_of_pos hread,
        List.takeWhile_cons_of_neg (by decide),List.append_nil]
    have hpass := pairSpans_passed (fun h => hquestion (List.mem_append_left _ h))
      (fun h => hequality (List.mem_append_left _ h))
      (fun h => hampersand (List.mem_append_left _ h)) [] before.length 0 0
    rw [List.append_nil] at hpass
    rw [hregion,hpass]
    exact iff_of_false (not_not.mpr rfl) fun h => h.1 hblank
  · have hregion : queryRegion (path++63::(query++after))=path++63::query := by
      have hread : ∀ c ∈ path++63::query,(c != 32)=true := by
        intro c hc
        rw [bne_iff_ne]
        rintro rfl
        simp [hblank,hquery] at hc
      have hsplit : path++63::(query++after)=(path++63::query)++after := by simp
      rw [hsplit]
      unfold queryRegion at hafter ⊢
      rw [List.takeWhile_append_of_pos hread,hafter,List.append_nil]
    have hmark : pairSpans (63::query) (before.length+path.length) 0 0=
        pairSpans query (before.length+path.length+1) (before.length+path.length+1) 0 := rfl
    rw [hregion,pairSpans_passed hquestion hequality hampersand,hmark,
      pairSpans_isSome_iff (Nat.succ_pos _)]
    unfold QueryReady
    simp [hblank]

/-- The refusals of a query are right exactly when every piece has an equality
sign, or when the first of several has none and the path is read to its end. -/
theorem judges_iff {answer : Except Failure PropertyMap} {query : Bytes} {reached : Prop}
    (h : answer=refused ↔ reached ∧ FirstBare query) :
    Judges answer query ↔
      (∀ piece ∈ query.splitOn 38,(61 : UInt8) ∈ piece) ∨ reached ∧ FirstBare query := by
  have hbare : FirstBare query → ∃ piece ∈ query.splitOn 38,(61 : UInt8) ∉ piece := by
    rintro ⟨first,next,rest,hsplit,hfirst⟩
    exact ⟨first,by rw [hsplit]; exact List.mem_cons_self,hfirst⟩
  unfold Judges
  rw [h]
  constructor
  · intro hright
    by_cases hall : ∀ piece ∈ query.splitOn 38,(61 : UInt8) ∈ piece
    · exact Or.inl hall
    · push Not at hall
      exact Or.inr (hright.mpr hall)
  · rintro (hall|hrefused)
    · refine iff_of_false (fun hrefused => ?_) ?_
      · obtain ⟨piece,hmem,hnone⟩ := hbare hrefused.2
        exact hnone (hall piece hmem)
      · rintro ⟨piece,hmem,hnone⟩
        exact hnone (hall piece hmem)
    · exact iff_of_true hrefused (hbare hrefused.2)

/-- The parsers refuse the right queries behind a path exactly when every
piece of the query has an equality sign, or the first of several has none and
no blank stands in the part of the path they read: all of it for the content
server, what follows the first two characters of its name for the
authentication server. -/
theorem URLParser_judges_iff {name query : Bytes} (hname : 2 ≤ name.length)
    (hquestion : (63 : UInt8) ∉ name) (hequality : (61 : UInt8) ∉ name)
    (hampersand : (38 : UInt8) ∉ name) (hblank : (32 : UInt8) ∉ query) (target : CxxText)
    (htarget : target.bytes=47::(name++63::query)) (after : Bytes)
    (request : CxxText) (hrequest : request.bytes=32::(target.bytes++32::after)) :
    (Judges (ContentConnection.URLParser target.bytes) query ↔
        (∀ piece ∈ query.splitOn 38,(61 : UInt8) ∈ piece) ∨ 32 ∉ name ∧ FirstBare query) ∧
      (Judges (AuthRequest.URLParser request.bytes ∅ 4) query ↔
        (∀ piece ∈ query.splitOn 38,(61 : UInt8) ∈ piece) ∨ 32 ∉ name.drop 2 ∧ FirstBare query) := by
  constructor
  · refine judges_iff ?_
    have hread := scanQuery_refused_iff [] (47::name) query []
      (by simp [hquestion]) (by simp [hequality]) (by simp [hampersand]) hblank rfl
    have hpath : (32 : UInt8) ∉ 47::name ↔ 32 ∉ name := by simp
    rw [List.append_nil,hpath] at hread
    rw [htarget]
    exact hread
  · refine judges_iff ?_
    obtain ⟨first,second,rest,rfl⟩ : ∃ first second rest,name=first::second::rest := by
      match name,hname with
      | first::second::rest,_ => exact ⟨first,second,rest,rfl⟩
    have hread := scanQuery_refused_iff [32,47,first,second] rest query
      (32::after) (fun h => hquestion (by simp [h])) (fun h => hequality (by simp [h]))
      (fun h => hampersand (by simp [h])) hblank rfl
    have hsplit : (32 : UInt8)::(47::(first::second::rest++63::query)++32::after)=
        [32,47,first,second]++(rest++63::(query++32::after)) := by
      simp
    rw [hrequest,htarget,hsplit]
    exact hread

/-- The query of a page, complete and with a bare last piece. -/
def pageQuery : Bytes := ascii "LIMIT=5&OFFSET=10"

/-- The same query cut off behind its last key. -/
def cutQuery : Bytes := ascii "LIMIT=5&OFFSET"

/-- The target of the posts for a query. -/
def pageTarget (query : Bytes) : Bytes := 47::(ascii "getPostsList"++63::query)

/-- Both parsers judge the query of a page as they should. -/
theorem judges_pageQuery :
    Judges (ContentConnection.URLParser (pageTarget pageQuery)) pageQuery ∧
      Judges (AuthRequest.URLParser (32::(pageTarget pageQuery++32::ascii "HTTP/1.1")) ∅ 4)
        pageQuery := by
  have hboth := @URLParser_judges_iff (ascii "getPostsList") pageQuery (by decide) (by decide)
    (by decide) (by decide) (by decide)
    ⟨pageTarget pageQuery,by decide⟩ rfl (ascii "HTTP/1.1")
    ⟨32::(pageTarget pageQuery++32::ascii "HTTP/1.1"),by decide⟩ rfl
  exact ⟨hboth.1.mpr (Or.inl (by decide)),hboth.2.mpr (Or.inl (by decide))⟩

/-- Neither parser refuses the query that is cut off. -/
theorem cutQuery_accepted :
    ¬Judges (ContentConnection.URLParser (pageTarget cutQuery)) cutQuery ∧
      ¬Judges (AuthRequest.URLParser (32::(pageTarget cutQuery++32::ascii "HTTP/1.1")) ∅ 4)
        cutQuery := by
  have hbare : ¬FirstBare cutQuery := by
    rw [firstBare_iff]
    decide
  have hmissing : ∃ piece ∈ cutQuery.splitOn 38,(61 : UInt8) ∉ piece :=
    ⟨ascii "OFFSET",by decide,by decide⟩
  have hform := scanQuery_refused_iff [] (47::ascii "getPostsList") cutQuery [] (by decide)
    (by decide) (by decide) (by decide) rfl
  have hrequest := scanQuery_refused_iff [32,47,103,101] (ascii "tPostsList") cutQuery
    (32::ascii "HTTP/1.1") (by decide) (by decide) (by decide) (by decide) rfl
  exact ⟨fun h => hbare (hform.mp (h.mpr hmissing)).2,
    fun h => hbare (hrequest.mp (h.mpr hmissing)).2⟩

end Photogram.QueryPieces
