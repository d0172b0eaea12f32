import Photogram.FormDataParser

/-!
# Fields stored for a part

What FormDataParser::addProperty stores, as a function of the body and of the
two positions it is given. The header text ends at the next blank line, or at
the end of the body when there is none. It raises when its first type header or
its first name ends too early. Otherwise at most two fields are stored: the
type, cut at the length of the first line of the header text, and the named
field.
-/

namespace Photogram.FormDataFields

open CxxString FormDataParser

/-- Header text of the part that starts at a position. -/
def descriptionPart (body : Bytes) (startP : ℕ) : Bytes := cutAt body headersEnd startP startP

/-- Text stored as the type. -/
def typeCut (description : Bytes) (typeStartP : ℕ) : Bytes :=
  (description.drop (typeStartP+14)).take (find description (ascii "\r") 0)

/-- Name of the field, up to the next quote. -/
def nameCut (description : Bytes) (nameStartP : ℕ) : Bytes :=
  cutAt description (ascii "\"") (nameStartP+6) (nameStartP+6)

/-- Start of the value, behind the next blank line. -/
def valueStart (body : Bytes) (startP nameStartP : ℕ) : ℕ :=
  addSize (find body headersEnd (nameStartP+6+startP)) 4

/-- Number of bytes of the value. -/
def valueCount (valueStartP finishP : ℕ) : ℕ := subSize (addSize (subSize finishP valueStartP) 1) 2

/-- Value of the field. -/
def valueCut (body : Bytes) (valueStartP finishP : ℕ) : Bytes :=
  (body.drop valueStartP).take (valueCount valueStartP finishP)

/-- The type header of a header text and its first name end inside it. -/
structure Storable (description : Bytes) : Prop where
  /-- The type. -/
  type : ∀ p,find? description (ascii "Content-Type") 0=some p → p+14 ≤ description.length
  /-- The name. -/
  name : ∀ p,find? description (ascii "name") 0=some p → p+6 ≤ description.length

/-- The type a header text stores. -/
def typeFields (description : Bytes) : List (Bytes×Bytes) :=
  match find? description (ascii "Content-Type") 0 with
  | none => []
  | some p => [(ascii "Content-Type",typeCut description p)]

/-- The field a part stores under its name. -/
def namedFields (body : Bytes) (startP finishP : ℕ) : List (Bytes×Bytes) :=
  let description := descriptionPart body startP
  match find? description (ascii "name") 0 with
  | none => []
  | some p => [(nameCut description p,valueCut body (valueStart body startP p) finishP)]

/-- All fields a part stores, in their order. -/
def storedFields (body : Bytes) (startP finishP : ℕ) : List (Bytes×Bytes) :=
  typeFields (descriptionPart body startP)++namedFields body startP finishP

/-- Fields with others stored over them. -/
def insertFields (output : FieldMap) (fields : List (Bytes×Bytes)) : FieldMap :=
  fields.foldl (fun output field => output.insert field.1 field.2) output

variable {body description : Bytes} {startP finishP : ℕ} {output result : FieldMap}

/-- One field is stored by an insertion. -/
theorem insertFields_singleton (output : FieldMap) (field : Bytes×Bytes) :
    insertFields output [field]=output.insert field.1 field.2 := rfl

/-- More fields are stored over the first ones. -/
theorem insertFields_append (output : FieldMap) (fields others : List (Bytes×Bytes)) :
    insertFields output (fields++others)=insertFields (insertFields output fields) others :=
  List.foldl_append

/-- A header text is cut out of the body. -/
theorem substr_descriptionPart (hbody : body.length ≤ maxSize) (hstart : startP ≤ body.length) :
    substr body startP (subSize (find body headersEnd startP) startP)=
      .ok (descriptionPart body startP) := by
  rw [substr_of_le _ hstart,take_subSize_find hbody hstart fun stop hstop => (find?_bounds hstop).1]
  rfl

/-- A header text ends inside the body. -/
theorem descriptionPart_length (body : Bytes) (startP : ℕ) :
    (descriptionPart body startP).length ≤ body.length-startP := cutAt_length_le _ _ _ _

/-- A type header that ends inside the header text is stored. -/
theorem storeType_ok (hs : description.length ≤ maxSize)
    (h : ∀ p,find? description (ascii "Content-Type") 0=some p → p+14 ≤ description.length) :
    storeType description output=.ok (insertFields output (typeFields description)) := by
  have hm : maxSize<npos := maxSize_lt_npos
  have hnm := npos_lt_sizeModulus
  unfold storeType typeFields
  dsimp only
  cases hfound : find? description (ascii "Content-Type") 0 with
  | none => rw [find_of_none hfound,if_pos rfl]; rfl
  | some p =>
    have hend := h p hfound
    rw [find_of_some hfound,if_neg (by omega),addSize_eq (by omega),substr_of_le _ hend]
    rfl

/-- A type header that ends too early raises. -/
theorem storeType_error (hs : description.length ≤ maxSize) {p : ℕ}
    (hfound : find? description (ascii "Content-Type") 0=some p) (h : description.length<p+14) :
    storeType description output=.error (.thrown .outOfRange) := by
  have hm : maxSize+14<npos := by decide
  have hnm := npos_lt_sizeModulus
  have hinside := (find?_bounds hfound).2
  unfold storeType
  dsimp only
  rw [find_of_some hfound,if_neg (by omega),addSize_eq (by omega),substr_of_lt _ h]
  rfl

/-- Without a name nothing is stored under one. -/
theorem namedFields_none (h : find? (descriptionPart body startP) (ascii "name") 0=none) :
    namedFields body startP finishP=[] := by
  unfold namedFields
  dsimp only
  rw [h]

/-- The first name of the header text names the field. -/
theorem namedFields_some {p : ℕ} (h : find? (descriptionPart body startP) (ascii "name") 0=some p) :
    namedFields body startP finishP=[(nameCut (descriptionPart body startP) p,
      valueCut body (valueStart body startP p) finishP)] := by
  unfold namedFields
  dsimp only
  rw [h]

/-- A stored type and the key it is stored under are cut out of the header text. -/
theorem typeFields_isInfix {field : Bytes×Bytes} (h : field ∈ typeFields description) :
    field.1<:+:description ∧ field.2<:+:description := by
  unfold typeFields at h
  cases hp : find? description (ascii "Content-Type") 0 with
  | none =>
    rw [hp] at h
    exact absurd h List.not_mem_nil
  | some p =>
    rw [hp] at h
    rw [List.mem_singleton.mp h]
    exact ⟨(find?_eq_some_iff.mp hp).2.1.isInfix,
      (List.take_prefix _ _).isInfix.trans (List.drop_suffix _ _).isInfix⟩

/-- Storing a type changes no other field. -/
theorem getElem?_typeFields (output : FieldMap) (description : Bytes) {key : Bytes}
    (hkey : key≠ascii "Content-Type") :
    (insertFields output (typeFields description))[key]?=output[key]? := by
  unfold typeFields
  cases find? description (ascii "Content-Type") 0 with
  | none => rfl
  | some p => exact (getElem?_insert _ _ _ _).trans (if_neg hkey.symm)

/-- The value of a name in front of the first blank line starts behind that line. -/
theorem valueStart_eq (hbody : body.length ≤ maxSize) {blank p : ℕ}
    (hblank : find? body headersEnd startP=some (startP+blank)) (hp : p+6 ≤ blank) :
    valueStart body startP p=startP+blank+4 := by
  have hm : maxSize+4<sizeModulus := by decide
  have hinside := (find?_bounds hblank).2
  have hfound := find?_from hblank (by omega : startP ≤ p+6+startP) (by omega)
  unfold valueStart
  rw [find_of_some hfound,addSize_eq (by omega)]

/-- The count of a value leaves out the last byte in front of the finish position. -/
theorem valueCount_eq {valueStartP finishP : ℕ} (h : valueStartP+1 ≤ finishP)
    (hfinish : finishP+1<sizeModulus) : valueCount valueStartP finishP=finishP-valueStartP-1 := by
  have hinner : subSize finishP valueStartP=finishP-valueStartP := subSize_eq (by omega) (by omega)
  have houter : addSize (finishP-valueStartP) 1=finishP-valueStartP+1 := addSize_eq (by omega)
  unfold valueCount
  rw [hinner,houter,subSize_eq (by omega) (by omega)]
  rfl

/-- The value of a name that ends inside the header text is cut out of the body. -/
theorem substr_valueCut (hbody : body.length ≤ maxSize) {p : ℕ}
    (hname : p+6 ≤ (descriptionPart body startP).length) (finishP : ℕ) :
    substr body (valueStart body startP p) (valueCount (valueStart body startP p) finishP)=
      .ok (valueCut body (valueStart body startP p) finishP) := by
  have hm : maxSize+4<sizeModulus := by decide
  have hlength := descriptionPart_length body startP
  refine substr_of_le _ ?_
  unfold valueStart
  cases hfound : find? body headersEnd (p+6+startP) with
  | none =>
    have hwrap : addSize npos 4=3 := by decide
    rw [find_of_none hfound,hwrap]
    omega
  | some stop =>
    have hinside : stop+4 ≤ body.length := (find?_bounds hfound).2
    rw [find_of_some hfound,addSize_eq (by omega)]
    exact hinside

/-- A part whose header text is storable stores its fields. -/
theorem addProperty_ok (hbody : body.length ≤ maxSize) (hstart : startP ≤ body.length)
    (h : Storable (descriptionPart body startP)) (finishP : ℕ) (output : FieldMap) :
    addProperty body startP finishP output=
      .ok (insertFields output (storedFields body startP finishP)) := by
  have hm : maxSize+6<npos := by decide
  have hnm := npos_lt_sizeModulus
  have hlength := descriptionPart_length body startP
  unfold addProperty storedFields
  dsimp only
  rw [substr_descriptionPart hbody hstart,ok_bind,storeType_ok (by omega) h.type,ok_bind]
  cases hfound : find? (descriptionPart body startP) (ascii "name") 0 with
  | none =>
    rw [namedFields_none hfound,find_of_none hfound,if_pos rfl,List.append_nil]
    rfl
  | some p =>
    have hname := h.name p hfound
    have hcut : ((descriptionPart body startP).drop (p+6)).take
        (subSize (find (descriptionPart body startP) (ascii "\"") (p+6)) (p+6))=
          nameCut (descriptionPart body startP) p :=
      take_subSize_find (by omega) hname fun stop hstop => (find?_bounds hstop).1
    have hvalue := substr_valueCut hbody hname finishP
    have hplace : addSize p 6=p+6 := addSize_eq (by omega)
    have hbehind : addSize (p+6) startP=p+6+startP := addSize_eq (by omega)
    rw [namedFields_some hfound,find_of_some hfound,if_neg (by omega),hplace,substr_of_le _ hname,hcut,
      ok_bind,hbehind]
    change (substr body (valueStart body startP p)
      (valueCount (valueStart body startP p) finishP)>>=_)=_
    rw [hvalue,ok_bind]
    dsimp only [pure,Except.pure]
    rw [insertFields_append,insertFields_singleton]

/-- A header text that is not storable raises. -/
theorem addProperty_raises (hbody : body.length ≤ maxSize) (hstart : startP ≤ body.length)
    (h : ¬Storable (descriptionPart body startP)) (finishP : ℕ) (output : FieldMap) :
    addProperty body startP finishP output=.error (.thrown .outOfRange) := by
  have hm : maxSize+6<npos := by decide
  have hnm := npos_lt_sizeModulus
  have hlength := descriptionPart_length body startP
  unfold addProperty
  rw [substr_descriptionPart hbody hstart,ok_bind]
  by_cases htype : ∀ p,find? (descriptionPart body startP) (ascii "Content-Type") 0=some p →
      p+14 ≤ (descriptionPart body startP).length
  · have hname : ∃ p,find? (descriptionPart body startP) (ascii "name") 0=some p ∧
        (descriptionPart body startP).length<p+6 := by
      by_contra hnone
      refine h ⟨htype,fun p hp => ?_⟩
      by_contra hshort
      exact hnone ⟨p,hp,Nat.lt_of_not_le hshort⟩
    obtain ⟨p,hfound,hshort⟩ := hname
    have hinside := (find?_bounds hfound).2
    rw [storeType_ok (by omega) htype,ok_bind]
    dsimp only
    rw [find_of_some hfound,if_neg (by omega),addSize_eq (by omega),substr_of_lt _ hshort]
    rfl
  · obtain ⟨p,hp⟩ := not_forall.mp htype
    obtain ⟨hfound,hshort⟩ := Classical.not_imp.mp hp
    rw [storeType_error (by omega) hfound (Nat.lt_of_not_le hshort)]
    rfl

/-- What a part that is stored stores. -/
theorem addProperty_cases (hbody : body.length ≤ maxSize)
    (h : addProperty body startP finishP output=.ok result) :
    startP ≤ body.length ∧ Storable (descriptionPart body startP) ∧
      result=insertFields output (storedFields body startP finishP) := by
  have hstart : startP ≤ body.length := by
    obtain ⟨_,hdescription,-⟩ := bind_eq_ok h
    exact (returns_substr_iff _ _ _).mp ⟨_,hdescription⟩
  by_cases hstorable : Storable (descriptionPart body startP)
  · rw [addProperty_ok hbody hstart hstorable] at h
    exact ⟨hstart,hstorable,(Except.ok.inj h).symm⟩
  · rw [addProperty_raises hbody hstart hstorable] at h
    cases h

end Photogram.FormDataFields
