import Photogram.FormDataFields
import Photogram.FormDataRounds

/-!
# Fields cut out of their own part

FormDataParser searches for a blank line to the end of the body and subtracts
positions without a test. A part stores bytes of its own only when it holds a
blank line and, once it is named, the two bytes of its last line end behind it.
For every other part there is a request in which it stores bytes that follow
the next boundary.
-/

namespace Photogram.FormDataBounds

open CxxString FormDataParser FormDataRounds FormDataFields BoundedLoop

/-- Position of the boundary behind a part: the one the loop found or, when it
found none, the next one behind the start of the boundary in front. -/
def closingBoundary (body boundary : Bytes) (state : LoopState) : ℕ :=
  if state.finishP=npos then find body boundary (state.startP-(boundary.length+1)) else state.finishP

/-- The bytes between the two boundaries of a part. -/
def betweenBoundaries (body boundary : Bytes) (state : LoopState) : Bytes :=
  (body.take (closingBoundary body boundary state)).drop (state.startP-2)

/-- Unless the round raises, it stores fields whose names and values are parts
of the bytes between the two boundaries. -/
def Inside (body boundary : Bytes) (state : LoopState) : Prop :=
  ∀ result,addProperty body state.startP (subSize state.finishP 1) state.output=.ok result →
    result=insertFields state.output (storedFields body state.startP (subSize state.finishP 1)) ∧
      ∀ field ∈ storedFields body state.startP (subSize state.finishP 1),
        field.1<:+:betweenBoundaries body boundary state ∧
          field.2<:+:betweenBoundaries body boundary state

/-- The bytes of a part, behind the line end of its first boundary. -/
def partText (body : Bytes) (state : LoopState) : Bytes := (body.take state.finishP).drop state.startP

/-- A part with a blank line and with the line end of its value behind it. The
latter does not matter to a part that has no name or cannot be stored. -/
def Contained (part : Bytes) : Prop :=
  ∃ blank,find? part headersEnd 0=some blank ∧
    (blank+6 ≤ part.length ∨ find? (part.take blank) (ascii "name") 0=none ∨
      ¬Storable (part.take blank))

/-- A header text with neither a type nor a name. -/
structure Silent (description : Bytes) : Prop where
  /-- No type. -/
  type : ¬ascii "Content-Type"<:+:description
  /-- No name. -/
  name : ¬ascii "name"<:+:description

/-- The part is closed by a boundary and contained, or stores nothing. -/
def Closed (body : Bytes) (state : LoopState) : Prop :=
  (state.finishP≠npos ∧ Contained (partText body state)) ∨
    Silent (descriptionPart body state.startP)

/-- In every request in which the part is visited and closed, it stores bytes of its own. -/
def StoresOwn (part : Bytes) : Prop :=
  ∀ (contentType body : CxxText) (output : FieldMap) (boundary : Bytes),
    getBoundary contentType.bytes=.ok boundary → ∀ state,
      Visited (contentRound body.bytes boundary) (firstState body.bytes boundary output) state →
        state.finishP≠npos → partText body.bytes state=part → Inside body.bytes boundary state

section inside

variable {body boundary : Bytes} {state : LoopState}

/-- A part that stores nothing stores nothing of others. -/
theorem inside_of_silent (hbody : body.length ≤ maxSize)
    (h : Silent (descriptionPart body state.startP)) : Inside body boundary state := by
  intro result hresult
  obtain ⟨_,_,heq⟩ := addProperty_cases hbody hresult
  have htype : typeFields (descriptionPart body state.startP)=[] := by
    unfold typeFields
    rw [find?_zero_eq_none_iff.mpr h.type]
  refine ⟨heq,fun field hfield => ?_⟩
  unfold storedFields at hfield
  rw [htype,namedFields_none (find?_zero_eq_none_iff.mpr h.name)] at hfield
  exact absurd hfield List.not_mem_nil

/-- The count of a value that starts later wraps. -/
theorem valueCount_wraps {valueStartP finishP : ℕ} (h : finishP<valueStartP+2) (hfinish : 0<finishP)
    (hstart : valueStartP ≤ maxSize) : maxSize ≤ valueCount valueStartP (subSize finishP 1) := by
  unfold valueCount addSize subSize
  unfold maxSize at *
  unfold sizeModulus
  omega

/-- The bytes of a closed part lie between its boundaries. -/
theorem partText_isInfix (hclosed : state.finishP≠npos) :
    partText body state<:+:betweenBoundaries body boundary state := by
  have hsplit : state.startP-2+(state.startP-(state.startP-2))=state.startP := by omega
  unfold partText betweenBoundaries closingBoundary
  rw [if_neg hclosed]
  nth_rewrite 1 [←hsplit]
  rw [←List.drop_drop]
  exact (List.drop_suffix _ _).isInfix

/-- The body from the start of a part on. -/
theorem drop_startP (hle : state.startP ≤ state.finishP) :
    body.drop state.startP=partText body state++body.drop state.finishP := by
  have hdrop : body.drop state.finishP=
      (body.drop state.startP).drop (state.finishP-state.startP) := by
    rw [List.drop_drop,Nat.add_sub_cancel' hle]
  unfold partText
  rw [List.drop_take,hdrop,List.take_append_drop]

/-- A part has the bytes between its positions. -/
theorem partText_length (hle : state.finishP ≤ body.length) :
    (partText body state).length=state.finishP-state.startP := by
  unfold partText
  rw [List.length_drop,List.length_take,Nat.min_eq_left hle]

/-- A blank line of the part is the next one behind its start. -/
theorem find?_blank_part (hstart : state.startP ≤ body.length) (hle : state.startP ≤ state.finishP)
    {blank : ℕ} (hblank : find? (partText body state) headersEnd 0=some blank) :
    find? body headersEnd state.startP=some (state.startP+blank) := by
  have hshift := find?_append_right (body.take state.startP) (body.drop state.startP) headersEnd 0
  rw [List.take_append_drop,List.length_take,Nat.min_eq_left hstart,Nat.add_zero,drop_startP hle,
    find?_append hblank] at hshift
  exact hshift

/-- Its header text ends there. -/
theorem descriptionPart_part (hstart : state.startP ≤ body.length)
    (hle : state.startP ≤ state.finishP) {blank : ℕ}
    (hblank : find? (partText body state) headersEnd 0=some blank) :
    descriptionPart body state.startP=(partText body state).take blank := by
  have hinside : blank+4 ≤ (partText body state).length := (find?_bounds hblank).2
  unfold descriptionPart cutAt
  rw [find?_blank_part hstart hle hblank]
  dsimp only
  rw [Nat.add_sub_cancel_left,drop_startP hle,List.take_append_of_le_length (by omega)]

/-- The value of a contained part is a part of it. -/
theorem valueCut_isInfix (hbody : body.length ≤ maxSize) (hstart : state.startP ≤ body.length)
    (hle : state.startP ≤ state.finishP) (hfinish : state.finishP ≤ body.length) {blank p : ℕ}
    (hblank : find? (partText body state) headersEnd 0=some blank) (hp : p+6 ≤ blank)
    (hend : blank+6 ≤ (partText body state).length) :
    valueCut body (valueStart body state.startP p) (subSize state.finishP 1)<:+:
      partText body state := by
  have hm : maxSize+4<sizeModulus := by decide
  have hlength : (partText body state).length=state.finishP-state.startP := partText_length hfinish
  have hplace := valueStart_eq hbody (find?_blank_part hstart hle hblank) hp
  have hlast : subSize state.finishP 1=state.finishP-1 := subSize_eq (by omega) (by omega)
  unfold valueCut
  rw [hplace,hlast,valueCount_eq (by omega) (by omega),Nat.add_assoc,←List.drop_drop,
    drop_startP hle,List.drop_append_of_le_length (by omega),
    List.take_append_of_le_length (by rw [List.length_drop]; omega)]
  exact (List.take_prefix _ _).isInfix.trans (List.drop_suffix _ _).isInfix

/-- A contained part that is closed by a boundary stores bytes of its own. -/
theorem inside_of_contained (hbody : body.length ≤ maxSize)
    (hfound : find? body boundary state.startP=some state.finishP)
    (h : Contained (partText body state)) : Inside body boundary state := by
  have hm := maxSize_lt_npos
  have hbounds := find?_bounds hfound
  have hclosed : state.finishP≠npos := by omega
  have hown : ∀ text : Bytes,text<:+:partText body state →
      text<:+:betweenBoundaries body boundary state :=
    fun text htext => htext.trans (partText_isInfix hclosed)
  intro result hresult
  obtain ⟨hstart,hstorable,heq⟩ := addProperty_cases hbody hresult
  obtain ⟨blank,hblank,hcase⟩ := h
  have hdescription := descriptionPart_part hstart hbounds.1 hblank
  rw [hdescription] at hstorable
  have hheaders : (partText body state).take blank<:+:partText body state :=
    (List.take_prefix _ _).isInfix
  refine ⟨heq,fun field hfield => ?_⟩
  rcases List.mem_append.mp hfield with htype|hnamed
  · rw [hdescription] at htype
    obtain ⟨hkey,hcut⟩ := typeFields_isInfix htype
    exact ⟨hown _ (hkey.trans hheaders),hown _ (hcut.trans hheaders)⟩
  · cases hp : find? ((partText body state).take blank) (ascii "name") 0 with
    | none =>
      rw [namedFields_none (by rw [hdescription]; exact hp)] at hnamed
      exact absurd hnamed List.not_mem_nil
    | some p =>
      rw [namedFields_some (by rw [hdescription]; exact hp),hdescription] at hnamed
      rw [List.mem_singleton.mp hnamed]
      have hinside := hstorable.name p hp
      rw [List.length_take] at hinside
      have hend : blank+6 ≤ (partText body state).length := by
        rcases hcase with hend|hnone|hraises
        · exact hend
        · exact absurd (hp.symm.trans hnone) (Option.some_ne_none _)
        · exact absurd hstorable hraises
      have hcut : nameCut ((partText body state).take blank) p<:+:(partText body state).take blank :=
        cutAt_isInfix _ _ _ _
      have hfinish : state.finishP ≤ body.length := by omega
      have hname : p+6 ≤ blank := by omega
      have hvalue := valueCut_isInfix hbody hstart hbounds.1 hfinish hblank hname hend
      dsimp only
      exact ⟨hown _ (hcut.trans hheaders),hown _ hvalue⟩

/-- In every visited state the finish is what the search for the boundary answered. -/
theorem visited_finishP {output : FieldMap}
    (h : Visited (contentRound body boundary) (firstState body boundary output) state) :
    state.finishP=find body boundary state.startP := by
  have hkeep : ∀ state next : LoopState,state.finishP=find body boundary state.startP →
      Next (contentRound body boundary) state next → next.finishP=find body boundary next.startP :=
    fun _ _ _ hnext => (find_of_some (next_cases hnext).2.2).symm
  exact visited_invariant hkeep rfl h

/-- A finish that was found is a position of the boundary. -/
theorem find?_of_closed (hfinish : state.finishP=find body boundary state.startP)
    (hclosed : state.finishP≠npos) : find? body boundary state.startP=some state.finishP := by
  cases hfound : find? body boundary state.startP with
  | none =>
    rw [find_of_none hfound] at hfinish
    exact absurd hfinish hclosed
  | some p => rw [hfinish,find_of_some hfound]

/-- In every run, each part that is closed and contained or silent stores bytes of its own. -/
theorem inside_of_closed (hbody : body.length ≤ maxSize) {output : FieldMap}
    (h : Visited (contentRound body boundary) (firstState body boundary output) state)
    (hmeets : Closed body state) : Inside body boundary state := by
  rcases hmeets with ⟨hclosed,hcontained⟩|hsilent
  · exact inside_of_contained hbody (find?_of_closed (visited_finishP h) hclosed) hcontained
  · exact inside_of_silent hbody hsilent

/-- A named part whose value starts too late stores everything behind its
blank line. -/
theorem not_inside (hbody : body.length ≤ maxSize) (hstart : state.startP ≤ body.length)
    (hclosed : state.finishP≠npos) (hfinish : 0<state.finishP)
    (hstorable : Storable (descriptionPart body state.startP)) {blank p : ℕ}
    (hblank : find? body headersEnd state.startP=some (state.startP+blank))
    (hp : find? (descriptionPart body state.startP) (ascii "name") 0=some p)
    (hlate : state.finishP<state.startP+blank+6)
    (hlong : state.finishP-(state.startP-2)+(state.startP+blank+4)<body.length) :
    ¬Inside body boundary state := by
  have hdescription : (descriptionPart body state.startP).length=blank := by
    have hinside := (find?_bounds hblank).2
    unfold descriptionPart cutAt
    rw [hblank]
    dsimp only
    rw [List.length_take,List.length_drop]
    omega
  have hname := hstorable.name p hp
  rw [hdescription] at hname
  have hplace := valueStart_eq hbody hblank hname
  have hcount : maxSize ≤ valueCount (state.startP+blank+4) (subSize state.finishP 1) :=
    valueCount_wraps (by omega) hfinish (by omega)
  have hvalue : valueCut body (valueStart body state.startP p) (subSize state.finishP 1)=
      body.drop (state.startP+blank+4) := by
    unfold valueCut
    rw [hplace]
    exact List.take_of_length_le (by rw [List.length_drop]; omega)
  intro hinside
  obtain ⟨_,hown⟩ := hinside _ (addProperty_ok hbody hstart hstorable _ _)
  have hfield : (nameCut (descriptionPart body state.startP) p,
      valueCut body (valueStart body state.startP p) (subSize state.finishP 1)) ∈
        storedFields body state.startP (subSize state.finishP 1) := by
    unfold storedFields
    rw [namedFields_some hp]
    exact List.mem_append_right _ List.mem_cons_self
  have hpart := (hown _ hfield).2
  dsimp only at hpart
  have hlength := hpart.length_le
  unfold betweenBoundaries closingBoundary at hlength
  rw [hvalue,if_neg hclosed,List.length_drop,List.length_drop,List.length_take] at hlength
  omega

end inside

section foreign

/-- Many bytes that occur in no literal of the code but as themselves. -/
def filler (n : ℕ) : Bytes := List.replicate n 120

/-- A Content-Type with a boundary longer than a part of some bytes. -/
def longType (n : ℕ) : Bytes := ascii "="++filler (n+20)

/-- The delimiter of that boundary. -/
def longBoundary (n : ℕ) : Bytes := ascii "--"++filler (n+20)

/-- What looks like a named field behind that delimiter, up to its blank line. -/
def foreignName (n : ℕ) : Bytes := longBoundary n++(ascii "name"++filler 10)

/-- A request with a part in front of it. -/
def foreignBody (part : Bytes) : Bytes :=
  longBoundary part.length++(lineEnd++(part++(foreignName part.length++
    (headersEnd++filler (part.length+3)))))

/-- The state in which the part is visited. -/
def foreignState (part : Bytes) : LoopState := ⟨part.length+24,part.length+24+part.length,∅⟩

variable {part : Bytes}

/-- Lengths of the delimiter and of what follows it. -/
theorem longBoundary_length (n : ℕ) : (longBoundary n).length=n+22 := by
  unfold longBoundary filler
  rw [List.length_append,List.length_replicate]
  exact Nat.add_comm _ _

/-- Length of the name behind the delimiter, with the delimiter. -/
theorem foreignName_length (n : ℕ) : (foreignName n).length=n+36 := by
  unfold foreignName filler
  rw [List.length_append,List.length_append,longBoundary_length,List.length_replicate]
  rfl

/-- Length of the request. -/
theorem foreignBody_length (part : Bytes) : (foreignBody part).length=4*part.length+67 := by
  unfold foreignBody
  simp only [List.length_append,longBoundary_length,foreignName_length]
  change _+(2+(_+(_+(4+_))))=_
  unfold filler
  rw [List.length_replicate]
  omega

/-- The bytes in front of the blank line are few different ones. -/
theorem mem_foreignName {n : ℕ} {c : UInt8} (h : c ∈ foreignName n) :
    c=120 ∨ c ∈ ascii "--" ∨ c ∈ ascii "name" := by
  unfold foreignName longBoundary filler at h
  simp only [List.mem_append,List.mem_replicate] at h
  grind

/-- The delimiter is read from the Content-Type. -/
theorem getBoundary_longType {n : ℕ} (hn : n+21 ≤ maxSize) :
    getBoundary (longType n)=.ok (longBoundary n) := by
  have hfind : find? (longType n) (ascii "=") 0=some 0 :=
    find?_of_occurs ⟨Nat.zero_le _,List.prefix_append _ _⟩
  have hlength : (longType n).length=n+21 := by
    unfold longType filler
    rw [List.length_append,List.length_replicate]
    exact Nat.add_comm _ _
  rw [getBoundary_some (by omega) hfind]
  rfl

/-- The delimiter does not begin inside the part: an x of it would stand on the
second hyphen of the one behind the part. -/
theorem not_occurs_early (rest : Bytes) {j : ℕ} (hj : j<part.length) :
    ¬Occurs (longBoundary part.length) (part++(longBoundary part.length++rest)) j := by
  rintro ⟨_,after,hafter⟩
  obtain ⟨k,hk⟩ := Nat.exists_eq_add_of_lt hj
  have hhyphen : (part++(longBoundary part.length++rest))[j+(k+2)]?=some 45 := by
    have hplace : j+(k+2)-part.length=1 := by omega
    rw [List.getElem?_append_right (by omega),hplace]
    rfl
  have hx : (longBoundary part.length++after)[k+2]?=some 120 := by
    have hinside : k<(filler (part.length+20)).length := by
      unfold filler
      rw [List.length_replicate]
      omega
    change (filler (part.length+20)++after)[k]?=some 120
    rw [List.getElem?_append_left hinside]
    unfold filler
    rw [List.getElem?_replicate,if_pos (by omega)]
  rw [hafter,List.getElem?_drop,hhyphen] at hx
  exact absurd (Option.some.inj hx) (by decide)

/-- The loop enters its first round in that state. -/
theorem firstState_foreign (hn : part.length ≤ 2^60) :
    firstState (foreignBody part) (longBoundary part.length) ∅=foreignState part := by
  have hm : 2^60+24<sizeModulus := by decide
  have hfirst : find? (foreignBody part) (longBoundary part.length) 0=some 0 :=
    find?_of_occurs ⟨Nat.zero_le _,List.prefix_append _ _⟩
  have hstart : addSize (addSize 0 (longBoundary part.length).length) 2=part.length+24 := by
    rw [longBoundary_length,addSize_eq (a:=0) (by omega),addSize_eq (by omega)]
    omega
  have hsecond : find? (foreignBody part) (longBoundary part.length) (part.length+24)=
      some (part.length+24+part.length) := by
    have hshift := find?_append_right (longBoundary part.length++lineEnd)
      (part++(foreignName part.length++(headersEnd++filler (part.length+3))))
        (longBoundary part.length) 0
    have hbehind : find? (part++(foreignName part.length++(headersEnd++filler (part.length+3))))
        (longBoundary part.length) 0=some part.length := by
      unfold foreignName
      rw [List.append_assoc]
      exact find?_at fun j hj => not_occurs_early _ hj
    have hlength : (longBoundary part.length++lineEnd).length=part.length+24 := by
      rw [List.length_append,longBoundary_length]
      rfl
    rw [hbehind,hlength,List.append_assoc] at hshift
    exact hshift
  unfold firstState foreignState
  dsimp only
  rw [find_of_some hfirst,hstart,find_of_some hsecond]

/-- The request from the start of the part on. -/
theorem drop_foreign (part : Bytes) : (foreignBody part).drop (part.length+24)=
    part++(foreignName part.length++(headersEnd++filler (part.length+3))) := by
  have hlength : (longBoundary part.length++lineEnd).length=part.length+24 := by
    rw [List.length_append,longBoundary_length]
    rfl
  unfold foreignBody
  rw [←List.append_assoc]
  exact List.drop_left' hlength

/-- The part of that state is the part. -/
theorem partText_foreign (part : Bytes) : partText (foreignBody part) (foreignState part)=part := by
  unfold partText foreignState
  dsimp only
  rw [List.drop_take,drop_foreign,Nat.add_sub_cancel_left,List.take_left]

/-- A blank line found behind the start of the part, in the request. -/
theorem find?_blank_foreign {blank : ℕ}
    (h : find? (part++(foreignName part.length++(headersEnd++filler (part.length+3)))) headersEnd 0=
      some blank) :
    find? (foreignBody part) headersEnd (part.length+24)=some (part.length+24+blank) := by
  have hshift := find?_append_right ((foreignBody part).take (part.length+24))
    ((foreignBody part).drop (part.length+24)) headersEnd 0
  have hstart : part.length+24 ≤ (foreignBody part).length := by
    rw [foreignBody_length]
    omega
  rw [List.take_append_drop,List.length_take,Nat.min_eq_left hstart,Nat.add_zero,drop_foreign,h]
    at hshift
  exact hshift

/-- Without a blank line in the part the next one follows the foreign name. -/
theorem find?_blank_behind (h : find? part headersEnd 0=none) :
    find? (part++(foreignName part.length++(headersEnd++filler (part.length+3)))) headersEnd 0=
      some (part.length+(part.length+36)) := by
  have hfree : (13 : UInt8) ∉ foreignName part.length := by
    intro hmem
    rcases mem_foreignName hmem with hx|hhyphen|hname
    · exact absurd hx (by decide)
    · exact absurd hhyphen (by decide)
    · exact absurd hname (by decide)
  obtain ⟨others,hothers⟩ : ∃ others,foreignName part.length=45::others := ⟨_,rfl⟩
  have hlength := foreignName_length part.length
  rw [hothers,List.length_cons] at hlength
  have hbehind : find? (others++(headersEnd++filler (part.length+3))) headersEnd 0=
      some others.length := by
    refine find?_behind_head fun hmem => hfree ?_
    rw [hothers]
    exact List.mem_cons_of_mem _ hmem
  rw [hothers,List.cons_append,find?_around (by decide) (by decide) (find?_zero_eq_none_iff.mp h),
    hbehind,Option.map_some]
  congr 1
  omega

/-- The header text of such a part can be stored, and has a name. -/
theorem storable_foreign (part : Bytes) : Storable (part++foreignName part.length) ∧
    ∃ p,find? (part++foreignName part.length) (ascii "name") 0=some p := by
  have hlength : (part++foreignName part.length).length=part.length+(part.length+36) := by
    rw [List.length_append,foreignName_length]
  have hocc : Occurs (ascii "name") (part++foreignName part.length)
      (part++longBoundary part.length).length := by
    unfold foreignName
    rw [←List.append_assoc]
    exact occurs_behind _ _ _
  rw [List.length_append,longBoundary_length] at hocc
  obtain ⟨p,hp,hle⟩ := exists_find?_le hocc (Nat.zero_le _)
  refine ⟨⟨fun q hq => ?_,fun q hq => ?_⟩,p,hp⟩
  · have hhead : (part++foreignName part.length)[q]?=some 67 := (find?_eq_some_iff.mp hq).2.1.head
    rcases Nat.lt_or_ge q part.length with hinside|hbehind
    · omega
    · rw [List.getElem?_append_right hbehind] at hhead
      rcases mem_foreignName (List.mem_of_getElem? hhead) with hx|hhyphen|hname
      · exact absurd hx (by decide)
      · exact absurd hhyphen (by decide)
      · exact absurd hname (by decide)
  · cases Option.some.inj (hq.symm.trans hp)
    omega

/-- Where the foreign state starts and ends. -/
theorem foreignState_bounds (hn : part.length ≤ 2^60) :
    (foreignState part).startP=part.length+24 ∧
      (foreignState part).finishP=part.length+24+part.length ∧
        (foreignState part).startP ≤ (foreignBody part).length ∧
          (foreignState part).finishP≠npos ∧ (foreignBody part).length ≤ maxSize := by
  have hm : 4*2^60+67 < maxSize := by decide
  have hnpos : maxSize<npos := maxSize_lt_npos
  have hbody := foreignBody_length part
  have hstart : (foreignState part).startP=part.length+24 := rfl
  have hfinish : (foreignState part).finishP=part.length+24+part.length := rfl
  exact ⟨hstart,hfinish,by omega,by omega,by omega⟩

/-- A part without a blank line stores the name behind the next boundary. -/
theorem not_inside_endless (hn : part.length ≤ 2^60) (hblank : find? part headersEnd 0=none) :
    ¬Inside (foreignBody part) (longBoundary part.length) (foreignState part) := by
  obtain ⟨hstartP,hfinishP,hstart,hclosed,hlegal⟩ := foreignState_bounds hn
  have hlength := foreignBody_length part
  have hfound := find?_blank_foreign (find?_blank_behind hblank)
  have hdescription : descriptionPart (foreignBody part) (foreignState part).startP=
      part++foreignName part.length := by
    have hname : (part++foreignName part.length).length=part.length+(part.length+36) := by
      rw [List.length_append,foreignName_length]
    unfold descriptionPart cutAt
    rw [hstartP,hfound]
    dsimp only
    rw [Nat.add_sub_cancel_left,drop_foreign,←List.append_assoc,List.take_left' hname]
  obtain ⟨hstorable,p,hp⟩ := storable_foreign part
  rw [←hdescription] at hstorable hp
  exact not_inside hlegal hstart hclosed (by omega) hstorable hfound hp (by omega) (by omega)

/-- A named part that ends too early behind its blank line stores the next boundary. -/
theorem not_inside_short (hn : part.length ≤ 2^60) {blank : ℕ}
    (hblank : find? part headersEnd 0=some blank) (h : ¬Contained part) :
    ¬Inside (foreignBody part) (longBoundary part.length) (foreignState part) := by
  obtain ⟨hstartP,hfinishP,hstart,hclosed,hlegal⟩ := foreignState_bounds hn
  have hlength := foreignBody_length part
  have hinside : blank+4 ≤ part.length := (find?_bounds hblank).2
  have hfound := find?_blank_foreign (find?_append hblank)
  have hdescription : descriptionPart (foreignBody part) (foreignState part).startP=
      part.take blank := by
    unfold descriptionPart cutAt
    rw [hstartP,hfound]
    dsimp only
    rw [Nat.add_sub_cancel_left,drop_foreign,List.take_append_of_le_length (by omega)]
  have hshort : part.length<blank+6 := by
    by_contra hlong
    exact h ⟨blank,hblank,Or.inl (by omega)⟩
  have hstorable : Storable (part.take blank) := by
    by_contra hraises
    exact h ⟨blank,hblank,Or.inr (Or.inr hraises)⟩
  obtain ⟨p,hp⟩ : ∃ p,find? (part.take blank) (ascii "name") 0=some p := by
    cases hname : find? (part.take blank) (ascii "name") 0 with
    | none => exact absurd ⟨blank,hblank,Or.inr (Or.inl hname)⟩ h
    | some p => exact ⟨p,rfl⟩
  rw [←hdescription] at hstorable hp
  exact not_inside hlegal hstart hclosed (by omega) hstorable hfound hp (by omega) (by omega)

/-- In that request a part that is not contained stores what follows. -/
theorem not_inside_foreign (hn : part.length ≤ 2^60) (h : ¬Contained part) :
    ¬Inside (foreignBody part) (longBoundary part.length) (foreignState part) := by
  cases hblank : find? part headersEnd 0 with
  | none => exact not_inside_endless hn hblank
  | some blank => exact not_inside_short hn hblank h

end foreign

/-- In every run, with any boundary, each visited part that is closed and
contained, or silent, stores parts of the bytes between its boundaries. And a
part, in whatever request it is visited and closed, does so exactly when it is
contained. -/
theorem stored_inside_iff (body : CxxText) (boundary : Bytes) (output : FieldMap)
    {state : LoopState} (hvisited : Visited (contentRound body.bytes boundary)
      (firstState body.bytes boundary output) state) :
    (Closed body.bytes state → Inside body.bytes boundary state) ∧
    ∀ part : Bytes,part.length ≤ 2^60 → (StoresOwn part ↔ Contained part) := by
  refine ⟨inside_of_closed body.size_le hvisited,fun part hn => ?_⟩
  constructor
  · intro hall
    by_contra hnot
    have hm : 4*2^60+67 < maxSize := by decide
    have htype : (longType part.length).length=part.length+21 := by
      unfold longType filler
      rw [List.length_append,List.length_replicate]
      exact Nat.add_comm _ _
    have hforeign : Visited (contentRound (foreignBody part) (longBoundary part.length))
        (firstState (foreignBody part) (longBoundary part.length) ∅) (foreignState part) := by
      rw [firstState_foreign hn]
      exact Relation.ReflTransGen.refl
    obtain ⟨_,_,_,hclosed,hlegal⟩ := foreignState_bounds hn
    exact not_inside_foreign hn hnot (hall ⟨longType part.length,by omega⟩ ⟨foreignBody part,hlegal⟩
      ∅ _ (getBoundary_longType (by omega)) _ hforeign hclosed (partText_foreign part))
  · intro hcontained contentType body output boundary _ state hvisited hclosed hpart
    refine inside_of_closed body.size_le hvisited (Or.inl ⟨hclosed,?_⟩)
    rwa [hpart]

section samples

/-- A part with a name. -/
def namedLine : Bytes := ascii "Content-Disposition: form-data; name=\"a\"\r\n\r\n"

/-- A form with a value in its part. -/
def valueBody : Bytes := ascii "--b\r\n"++(namedLine++ascii "v\r\n--b--")

/-- A form whose part ends with its blank line. -/
def endlessBody : Bytes := ascii "--b\r\n"++(namedLine++ascii "--b--")

/-- The state a loop is entered in, from the searches for the boundary. -/
theorem firstState_eq {body boundary : Bytes} {start finish : ℕ} (hbody : body.length ≤ maxSize)
    (hfirst : find? body boundary 0=some start)
    (hsecond : find? body boundary (start+boundary.length+2)=some finish) (output : FieldMap) :
    firstState body boundary output=⟨start+boundary.length+2,finish,output⟩ := by
  have hm : maxSize<sizeModulus := by decide
  have hinside := (find?_bounds hfirst).2
  have hbehind := find?_bounds hsecond
  have hplace : addSize start boundary.length=start+boundary.length := addSize_eq (by omega)
  unfold firstState
  dsimp only
  rw [find_of_some hfirst,hplace,addSize_eq (by omega),find_of_some hsecond]

/-- The part with a value stores bytes of its own. -/
theorem stored_inside_value : Inside valueBody (ascii "--b") (firstState valueBody (ascii "--b") ∅) := by
  have hlegal : valueBody.length ≤ maxSize := by decide +kernel
  have hstate := firstState_eq hlegal (by decide +kernel : find? valueBody (ascii "--b") 0=some 0)
    (by decide +kernel : find? valueBody (ascii "--b") (0+(ascii "--b").length+2)=some 52) ∅
  have hcontained : Contained (partText valueBody ⟨0+(ascii "--b").length+2,52,∅⟩) :=
    ⟨40,by decide +kernel,Or.inl (by decide +kernel)⟩
  refine (stored_inside_iff ⟨valueBody,hlegal⟩ (ascii "--b") ∅ Relation.ReflTransGen.refl).1
    (Or.inl ⟨?_,?_⟩)
  · rw [hstate]
    decide
  · rw [hstate]
    exact hcontained

/-- The part that ends with its blank line stores the bytes of the next
boundary line. -/
theorem stored_boundary : getBoundary (ascii "multipart/form-data; boundary=b")=.ok (ascii "--b") ∧
    Occurs (ascii "--b") endlessBody 0 ∧ Occurs (ascii "--b") endlessBody 49 ∧
    endlessBody.length ≤ maxSize ∧
    ¬Inside endlessBody (ascii "--b") (firstState endlessBody (ascii "--b") ∅) := by
  have hlegal : endlessBody.length ≤ maxSize := by decide +kernel
  refine ⟨rfl,by decide +kernel,by decide +kernel,hlegal,?_⟩
  rw [firstState_eq hlegal (by decide +kernel : find? endlessBody (ascii "--b") 0=some 0)
    (by decide +kernel : find? endlessBody (ascii "--b") (0+(ascii "--b").length+2)=some 49) ∅]
  have hdescription : descriptionPart endlessBody 5=namedLine.take 40 := by decide +kernel
  have hstorable : Storable (descriptionPart endlessBody 5) := by
    have htype : find? (namedLine.take 40) (ascii "Content-Type") 0=none := by decide +kernel
    have hname : find? (namedLine.take 40) (ascii "name") 0=some 32 := by decide +kernel
    rw [hdescription]
    refine ⟨fun p hp => ?_,fun p hp => ?_⟩
    · rw [htype] at hp
      cases hp
    · cases Option.some.inj (hname.symm.trans hp)
      decide +kernel
  have hfields : storedFields endlessBody 5 (subSize 49 1)=[(ascii "a",ascii "--b--")] := by
    decide +kernel
  have hbetween : betweenBoundaries endlessBody (ascii "--b") ⟨5,49,∅⟩=
      ascii "\r\n"++namedLine := by decide +kernel
  intro hinside
  obtain ⟨_,hown⟩ := hinside _ (addProperty_ok hlegal (by decide +kernel) hstorable _ ∅)
  have hvalue := (hown (ascii "a",ascii "--b--") (by
    change _ ∈ storedFields endlessBody 5 (subSize 49 1)
    rw [hfields]
    exact List.mem_cons_self)).2
  change ascii "--b--"<:+:betweenBoundaries endlessBody (ascii "--b") ⟨5,49,∅⟩ at hvalue
  rw [hbetween] at hvalue
  revert hvalue
  decide +kernel

end samples

end Photogram.FormDataBounds
