import Photogram.FormDataFields

/-!
# Encoded forms are read back

Delimiters and header lines are kept apart by line ends, which neither the
delimiter nor a quoted parameter contains. Each search therefore stops where
the encoding put what it looks for, and the offsets of the parser cancel
out, whatever bytes the values hold.
-/

namespace Photogram.FormDataRoundTrip

open CxxString FormDataParser FormDataFields

section parts

variable {part : FormPart} {boundary : Bytes}

/-- Text of the disposition line in front of the name. -/
def dispositionStart : Bytes := ascii "Content-Disposition: form-data; name=\""

/-- The header block starts with the quoted name. -/
theorem headers_split (part : FormPart) :
    ∃ after,part.headers=dispositionStart++(part.name++34::after) := by
  have hstart : dispositionStart=ascii "Content-Disposition: form-data; name="++[34] := by decide
  have hquote : ascii "\""=[34] := by decide
  unfold FormPart.headers FormPart.disposition quoted
  rw [hstart,hquote]
  simp only [List.append_assoc,List.cons_append,List.nil_append]
  exact ⟨_,rfl⟩

/-- The disposition line of names on one line has no carriage return. -/
theorem disposition_noReturn (hname : (13 : UInt8) ∉ part.name)
    (hfilename : ∀ filename,part.filename=some filename → (13 : UInt8) ∉ filename) :
    (13 : UInt8) ∉ part.disposition := by
  unfold FormPart.disposition quoted
  cases hfile : part.filename with
  | none =>
    simp only [List.mem_append,List.not_mem_nil,or_false,not_or]
    exact ⟨by decide,⟨by decide,hname⟩,by decide⟩
  | some filename =>
    simp only [List.mem_append,not_or]
    exact ⟨⟨by decide,⟨by decide,hname⟩,by decide⟩,by decide,
      ⟨by decide,hfilename filename hfile⟩,by decide⟩

/-- The name of the type header does not occur in the disposition line. -/
theorem disposition_noType (h : part.Encodable boundary) :
    ¬ascii "Content-Type"<:+:part.disposition := by
  have hquote : (34 : UInt8) ∉ ascii "Content-Type" := by decide
  have hne : ascii "Content-Type"≠[] := by decide
  unfold FormPart.disposition quoted
  cases hfile : part.filename with
  | none =>
    have hsplit : ascii "Content-Disposition: form-data; name="++
        (ascii "\""++part.name++ascii "\"")++[]=
          ascii "Content-Disposition: form-data; name="++34::(part.name++34::[]) := by
      simp [ascii]
    rw [hsplit,isInfix_around hquote hne,isInfix_around hquote hne]
    simp only [not_or]
    exact ⟨by decide,h.name.noType,by decide⟩
  | some filename =>
    have hsplit : ascii "Content-Disposition: form-data; name="++
        (ascii "\""++part.name++ascii "\"")++
          (ascii "; filename="++(ascii "\""++filename++ascii "\""))=
            ascii "Content-Disposition: form-data; name="++34::(part.name++34::
              (ascii "; filename="++34::(filename++34::[]))) := by
      simp [ascii]
    rw [hsplit,isInfix_around hquote hne,isInfix_around hquote hne,isInfix_around hquote hne,
      isInfix_around hquote hne]
    simp only [not_or]
    exact ⟨by decide,h.name.noType,by decide,(h.filename filename hfile).noType,by decide⟩

/-- The first blank line behind the start of a part ends its header block. -/
theorem find?_headersEnd (hline : (13 : UInt8) ∉ part.disposition)
    (hcontentType : ∀ type,part.contentType=some type → (13 : UInt8) ∉ type) (rest : Bytes) :
    find? (part.headers++(headersEnd++rest)) headersEnd 0=some part.headers.length := by
  unfold FormPart.headers
  cases htype : part.contentType with
  | none =>
    rw [List.append_nil]
    exact find?_behind_head hline
  | some type =>
    have hreturn := hcontentType type htype
    apply find?_at
    intro q hq ho
    dsimp only at hq ho
    have hhead : (part.disposition++(lineEnd++ascii "Content-Type: "++type)++
        (headersEnd++rest))[q]?=some 13 := ho.head
    rw [List.getElem?_append_left hq] at hhead
    rcases Nat.lt_trichotomy q part.disposition.length with hlt|heq|hgt
    · rw [List.getElem?_append_left hlt] at hhead
      exact hline (List.mem_of_getElem? hhead)
    · rw [heq,List.append_assoc] at ho
      have hstart := (occurs_append_right (d:=0)).mp ho
      have hpre := hstart.2
      simp [headersEnd,lineEnd,ascii] at hpre
    · obtain ⟨d,rfl⟩ := Nat.exists_eq_add_of_lt hgt
      rw [List.getElem?_append_right (by omega)] at hhead
      have hrest : (10::(ascii "Content-Type: "++type) : Bytes)[d]?=some 13 := by
        rw [←hhead]
        have hidx : part.disposition.length+d+1-part.disposition.length=d+1 := by omega
        rw [hidx]
        rfl
      have hmem := List.mem_of_getElem? hrest
      simp only [List.mem_cons,List.mem_append] at hmem
      rcases hmem with hten|htext|htype
      · exact absurd hten (by decide)
      · exact absurd htext (by decide)
      · exact hreturn htype

/-- A delimiter is not empty. -/
theorem delimiter_ne_nil (boundary : Bytes) : delimiter boundary≠[] := List.cons_ne_nil _ _

/-- Length of a delimiter. -/
theorem delimiter_length (boundary : Bytes) : (delimiter boundary).length=boundary.length+2 := by
  have htwo : (ascii "--").length=2 := by decide
  unfold delimiter
  rw [List.length_append,htwo,Nat.add_comm]

/-- A byte other than a dash that the boundary lacks is not in the delimiter. -/
theorem not_mem_delimiter {c : UInt8} (hdash : c ∉ ascii "--") (h : c ∉ boundary) :
    c ∉ delimiter boundary := by
  unfold delimiter
  rw [List.mem_append,not_or]
  exact ⟨hdash,h⟩

/-- Length of an encoded part. -/
theorem encode_length (part : FormPart) :
    part.encode.length=part.headers.length+4+part.value.length+2 := by
  unfold FormPart.encode
  simp only [List.length_append]
  rfl

/-- An encoded part and what follows it, taken apart. -/
theorem encode_append (part : FormPart) (right : Bytes) :
    part.encode++right=part.headers++(headersEnd++(part.value++(lineEnd++right))) := by
  unfold FormPart.encode
  simp only [List.append_assoc]

/-- The first delimiter behind the start of a part is the one behind its value. -/
theorem find?_delimiter (hheaders : ¬delimiter boundary<:+:part.headers)
    (hcontent : ¬delimiter boundary<:+:part.value) (hreturn : (13 : UInt8) ∉ boundary)
    (hfeed : (10 : UInt8) ∉ boundary) (rest : Bytes) :
    find? (part.encode++(delimiter boundary++rest)) (delimiter boundary) 0=
      some part.encode.length := by
  have hcr : (13 : UInt8) ∉ delimiter boundary := not_mem_delimiter (by decide) hreturn
  have hfound : find? (delimiter boundary++rest) (delimiter boundary) 0=some 0 :=
    find?_of_occurs ⟨Nat.zero_le _,List.prefix_append _ _⟩
  have hlf : (10 : UInt8) ∉ delimiter boundary := not_mem_delimiter (by decide) hfeed
  have hnil : ¬delimiter boundary<:+:([] : Bytes) := fun hin =>
    delimiter_ne_nil boundary (List.infix_nil.mp hin)
  have hlast : find? ([]++10::(delimiter boundary++rest)) (delimiter boundary) 0=some 1 := by
    rw [find?_around hlf (delimiter_ne_nil boundary) hnil,hfound]
    rfl
  have hvalue : find? (part.value++13::([]++10::(delimiter boundary++rest))) (delimiter boundary) 0=
      some (part.value.length+2) := by
    rw [find?_around hcr (delimiter_ne_nil boundary) hcontent,hlast]
    rfl
  have hblank : find? ([10,13,10]++(part.value++13::([]++10::(delimiter boundary++rest))))
      (delimiter boundary) 0=some (3+(part.value.length+2)) := by
    rw [find?_skip rfl (by decide),hvalue]
    rfl
  have hsplit : part.encode++(delimiter boundary++rest)=
      part.headers++13::([10,13,10]++(part.value++13::([]++10::(delimiter boundary++rest)))) := by
    unfold FormPart.encode headersEnd lineEnd
    simp [ascii]
  rw [hsplit,find?_around hcr (delimiter_ne_nil boundary) hheaders,hblank,encode_length]
  simp only [Option.map_some,Option.some.injEq]
  omega

/-- The quoted name is what the search for it finds in the header block. -/
theorem find?_name (part : FormPart) : find? part.headers (ascii "name") 0=some 32 := by
  obtain ⟨after,hheaders⟩ := headers_split part
  have hstart : dispositionStart=
      ascii "Content-Disposition: form-data;"++32::(ascii "name"++ascii "=\"") := by decide
  rw [hheaders,hstart,List.append_assoc,List.cons_append,List.append_assoc,
    find?_around (by decide) (by decide) (by decide),
    find?_of_occurs ⟨Nat.zero_le _,List.prefix_append _ _⟩]
  decide

/-- The quote behind the name is the first one behind its start. -/
theorem find?_quote (hname : (34 : UInt8) ∉ part.name) :
    find? part.headers (ascii "\"") 38=some (38+part.name.length) := by
  obtain ⟨after,hheaders⟩ := headers_split part
  have hshift := find?_append_right dispositionStart (part.name++34::after) (ascii "\"") 0
  have hquote : find? (part.name++34::after) (ascii "\"") 0=some part.name.length :=
    find?_behind_head hname
  rw [hquote] at hshift
  rw [hheaders]
  exact hshift

/-- A header block is not shorter than what stands in front of the name. -/
theorem headers_length (part : FormPart) : 39 ≤ part.headers.length := by
  obtain ⟨after,hheaders⟩ := headers_split part
  have hlen : dispositionStart.length=38 := by decide
  rw [hheaders,List.length_append,List.length_append,List.length_cons,hlen]
  omega

/-- The name is cut out between its quotes. -/
theorem nameCut_headers (hname : (34 : UInt8) ∉ part.name) : nameCut part.headers 32=part.name := by
  obtain ⟨after,hheaders⟩ := headers_split part
  have hlen : dispositionStart.length=38 := by decide
  unfold nameCut cutAt
  rw [find?_quote hname,hheaders]
  dsimp only
  rw [Nat.add_sub_cancel_left,List.drop_left' hlen,List.take_left]

/-- The type header and the name end inside the header block. -/
theorem headers_storable (h : part.Encodable boundary) : Storable part.headers where
  type := by
    intro p hfound
    have hocc := (find?_eq_some_iff.mp hfound).2
    cases htype : part.contentType with
    | none =>
      have hline : part.headers=part.disposition := by
        unfold FormPart.headers
        rw [htype,List.append_nil]
      rw [hline] at hocc
      exact absurd hocc.1.isInfix (disposition_noType h)
    | some type =>
      have hline : part.headers=(part.disposition++lineEnd)++(ascii "Content-Type"++
          (ascii ": "++type)) := by
        have hsplit : ascii "Content-Type: "=ascii "Content-Type"++ascii ": " := by decide
        unfold FormPart.headers
        rw [htype]
        dsimp only
        rw [hsplit]
        simp only [List.append_assoc]
      have hshown : Occurs (ascii "Content-Type") part.headers (part.disposition++lineEnd).length := by
        rw [hline]
        exact occurs_behind _ _ _
      obtain ⟨q,hq,hle⟩ := exists_find?_le hshown (Nat.zero_le _)
      cases Option.some.inj (hfound.symm.trans hq)
      have hcolon : (ascii "Content-Type").length+(ascii ": ").length=14 := by decide
      rw [hline]
      simp only [List.length_append] at hle ⊢
      omega
  name := by
    intro p hfound
    cases Option.some.inj ((find?_name part).symm.trans hfound)
    have hheaders := headers_length part
    omega

/-- The blank line found from the start of a part ends its header block. -/
theorem find?_blank_encode (h : part.Encodable boundary) (left right : Bytes) :
    find? (left++(part.encode++right)) headersEnd left.length=
      some (left.length+part.headers.length) := by
  have hright := encode_append part right
  have hshift := find?_append_right left (part.encode++right) headersEnd 0
  rw [hright,find?_headersEnd (disposition_noReturn h.name.noReturn fun filename hfile =>
    (h.filename filename hfile).noReturn) fun type htype => (h.contentType type htype).1,
    Nat.add_zero,←hright] at hshift
  exact hshift

/-- The header text of an encoded part is its header block. -/
theorem descriptionPart_encode (h : part.Encodable boundary) (left right : Bytes) :
    descriptionPart (left++(part.encode++right)) left.length=part.headers := by
  have hright := encode_append part right
  unfold descriptionPart cutAt
  rw [find?_blank_encode h]
  dsimp only
  rw [Nat.add_sub_cancel_left,List.drop_left,hright,List.take_left]

/-- The value of an encoded part is cut out behind its header block. -/
theorem valueCut_encode (part : FormPart) (left right : Bytes)
    (hs : (left++(part.encode++right)).length ≤ maxSize) :
    valueCut (left++(part.encode++right)) (left.length+part.headers.length+4)
      (left.length+part.encode.length-1)=part.value := by
  have hm : maxSize+1<sizeModulus := by decide
  have hencode := encode_length part
  have hsplit : left++(part.encode++right)=
      (left++part.headers++headersEnd)++(part.value++(lineEnd++right)) := by
    rw [encode_append]
    simp only [List.append_assoc]
  have hlen : (left++part.headers++headersEnd).length=left.length+part.headers.length+4 := by
    simp only [List.length_append]
    rfl
  have hcount : valueCount (left.length+part.headers.length+4) (left.length+part.encode.length-1)=
      part.value.length := by
    rw [List.length_append,List.length_append] at hs
    rw [valueCount_eq (by omega) (by omega)]
    omega
  unfold valueCut
  rw [hcount,hsplit,List.drop_left' hlen,List.take_left]

/-- A part is stored under its name, whatever stands around it. -/
theorem addProperty_part (h : part.Encodable boundary) (left right : Bytes) (output : FieldMap)
    (hs : (left++(part.encode++right)).length ≤ maxSize) :
    ∃ typed : FieldMap,addProperty (left++(part.encode++right)) left.length
        (left.length+part.encode.length-1) output=.ok (typed.insert part.name part.value) ∧
      ∀ key,key≠ascii "Content-Type" → typed[key]?=output[key]? := by
  have hdescription := descriptionPart_encode h left right
  have hstorable := headers_storable h
  have hstart : left.length ≤ (left++(part.encode++right)).length := by
    rw [List.length_append]
    exact Nat.le_add_right _ _
  have hname := hstorable.name 32 (find?_name part)
  have hvalue := valueStart_eq hs (find?_blank_encode h left right) hname
  refine ⟨insertFields output (typeFields part.headers),?_,fun key hkey =>
    getElem?_typeFields output part.headers hkey⟩
  rw [addProperty_ok hs hstart (by rw [hdescription]; exact hstorable)]
  unfold storedFields
  rw [namedFields_some (by rw [hdescription]; exact find?_name part),hdescription,hvalue,
    valueCut_encode part left right hs,nameCut_headers h.name.noQuote,insertFields_append,
    insertFields_singleton]

end parts

section forms

variable {boundary closing : Bytes}

/-- What follows a part starts with the delimiter. -/
theorem encodeForm_delimiter (boundary closing : Bytes) (parts : List FormPart) :
    ∃ rest,encodeForm boundary closing parts=delimiter boundary++rest := by
  cases parts with
  | nil => exact ⟨_,List.append_assoc _ _ _⟩
  | cons part parts =>
    unfold encodeForm
    simp only [List.append_assoc]
    exact ⟨_,rfl⟩

/-- What stands behind a part of a form is the form of the other parts. -/
theorem encodeForm_behind (before boundary closing : Bytes) (part : FormPart)
    (parts : List FormPart) :
    before++encodeForm boundary closing (part::parts)=
      (before++delimiter boundary++lineEnd++part.encode)++encodeForm boundary closing parts := by
  conv_lhs => unfold encodeForm
  simp only [List.append_assoc]

/-- Length of a text with a delimiter line and a part behind it. -/
theorem behindPart_length (before boundary : Bytes) (part : FormPart) :
    (before++delimiter boundary++lineEnd++part.encode).length=
      before.length+(delimiter boundary).length+2+part.encode.length := by
  simp only [List.length_append]
  rfl

/-- Every part takes room in the encoding. -/
theorem length_le_encodeForm (boundary closing : Bytes) (parts : List FormPart) :
    parts.length+2 ≤ (encodeForm boundary closing parts).length := by
  induction parts with
  | nil =>
    unfold encodeForm delimiter
    simp [ascii]
  | cons part parts ih =>
    unfold encodeForm
    simp only [List.length_append,List.length_cons]
    have htwo : lineEnd.length=2 := by decide
    omega

/-- Of the parts with a name the last one counts. -/
theorem lastValue_cons (part : FormPart) (parts : List FormPart) (key : Bytes) :
    lastValue (part::parts) key=
      (lastValue parts key).or (if part.name=key then some part.value else none) := by
  unfold lastValue
  rw [List.reverse_cons,List.find?_append]
  cases hfound : parts.reverse.find? (fun part => part.name=key) with
  | some found => rfl
  | none =>
    by_cases hname : part.name=key <;> simp [hname]

/-- Storing a part changes the field of its name. -/
theorem getElem?_insert_part (fields : FieldMap) (part : FormPart) (key : Bytes) :
    (fields.insert part.name part.value)[key]?=
      (if part.name=key then some part.value else none).or fields[key]? := by
  rw [getElem?_insert]
  by_cases hname : part.name=key
  · rw [if_pos hname,if_pos hname]
    rfl
  · rw [if_neg hname,if_neg hname]
    rfl

/-- Length of a text up to a delimiter and two bytes behind it. -/
theorem length_delimited {suffix : Bytes} (before boundary : Bytes) (h : suffix.length=2) :
    (before++delimiter boundary++suffix).length=before.length+(delimiter boundary).length+2 := by
  rw [List.length_append,List.length_append,h]

/-- Position of the delimiter behind a part that stands behind a left part
and its delimiter line. -/
theorem find?_nextDelimiter (closing : Bytes) {part : FormPart}
    (hheaders : ¬delimiter boundary<:+:part.headers) (hvalue : ¬delimiter boundary<:+:part.value)
    (hreturn : (13 : UInt8) ∉ boundary) (hfeed : (10 : UInt8) ∉ boundary) (before : Bytes)
    (parts : List FormPart) :
    find? (before++encodeForm boundary closing (part::parts)) (delimiter boundary)
        (before.length+(delimiter boundary).length+2)=
      some (before.length+(delimiter boundary).length+2+part.encode.length) := by
  obtain ⟨rest,hrest⟩ := encodeForm_delimiter boundary closing parts
  have hsplit : before++encodeForm boundary closing (part::parts)=
      (before++delimiter boundary++lineEnd)++(part.encode++(delimiter boundary++rest)) := by
    conv_lhs => unfold encodeForm
    rw [hrest]
    simp only [List.append_assoc]
  have hlen := length_delimited before boundary (rfl : lineEnd.length=2)
  have hshift := find?_append_right (before++delimiter boundary++lineEnd)
    (part.encode++(delimiter boundary++rest)) (delimiter boundary) 0
  rw [find?_delimiter hheaders hvalue hreturn hfeed,Nat.add_zero,hlen] at hshift
  rw [hsplit]
  exact hshift

/-- Behind the closing delimiter no delimiter follows. -/
theorem find_behind_closing (boundary : Bytes) (hclosing : closing=[] ∨ closing=lineEnd)
    (before : Bytes) :
    find (before++encodeForm boundary closing []) (delimiter boundary)
      (before.length+(delimiter boundary).length+2)=npos := by
  have hsplit : before++encodeForm boundary closing []=
      (before++delimiter boundary++ascii "--")++closing := by
    unfold encodeForm
    simp only [List.append_assoc]
  have hlen := length_delimited before boundary (rfl : (ascii "--").length=2)
  have hshift := find?_append_right (before++delimiter boundary++ascii "--") closing
    (delimiter boundary) 0
  have hnone : find? closing (delimiter boundary) 0=none := by
    rw [find?_zero_eq_none_iff]
    intro hin
    have hhyphen : (45 : UInt8) ∈ closing := hin.subset (by simp [delimiter,ascii])
    rcases hclosing with rfl|rfl
    · exact absurd hhyphen List.not_mem_nil
    · exact absurd hhyphen (by decide)
  rw [hnone,Nat.add_zero,hlen] at hshift
  rw [hsplit]
  exact find_of_none hshift

/-- One round of the loop stores one part and goes on behind its delimiter. -/
theorem contentLoop_part {part : FormPart} (h : part.Encodable boundary) (before : Bytes)
    (parts : List FormPart) (fuel : ℕ) (output : FieldMap)
    (hs : (before++encodeForm boundary closing (part::parts)).length ≤ maxSize) :
    ∃ typed : FieldMap,
      contentLoop (before++encodeForm boundary closing (part::parts)) (delimiter boundary) (fuel+1)
          (before.length+(delimiter boundary).length+2)
          (before.length+(delimiter boundary).length+2+part.encode.length) output=
        (let next := before.length+(delimiter boundary).length+2+part.encode.length+
            (delimiter boundary).length+2
          let finish := find (before++encodeForm boundary closing (part::parts))
            (delimiter boundary) next
          if finish=npos then some (.ok (typed.insert part.name part.value))
          else contentLoop (before++encodeForm boundary closing (part::parts)) (delimiter boundary)
            fuel next finish (typed.insert part.name part.value)) ∧
      ∀ key,key≠ascii "Content-Type" → typed[key]?=output[key]? := by
  have hm : maxSize+64<npos := by decide
  have hnm := npos_lt_sizeModulus
  have hsplit : before++encodeForm boundary closing (part::parts)=
      (before++delimiter boundary++lineEnd)++(part.encode++encodeForm boundary closing parts) := by
    conv_lhs => unfold encodeForm
    simp only [List.append_assoc]
  have hlen := length_delimited before boundary (rfl : lineEnd.length=2)
  obtain ⟨rest,hrest⟩ := encodeForm_delimiter boundary closing parts
  have hlong := length_le_encodeForm boundary closing parts
  have hroom : before.length+(delimiter boundary).length+2+part.encode.length+
      (delimiter boundary).length ≤ maxSize := by
    rw [hsplit,hrest] at hs
    simp only [List.length_append] at hs hlen ⊢
    omega
  have hencode : 1 ≤ part.encode.length := by
    unfold FormPart.encode
    simp only [List.length_append]
    have htwo : lineEnd.length=2 := by decide
    omega
  rw [hsplit] at hs ⊢
  obtain ⟨typed,hadd,hkeep⟩ := addProperty_part h (before++delimiter boundary++lineEnd)
    (encodeForm boundary closing parts) output hs
  rw [hlen] at hadd
  refine ⟨typed,?_,hkeep⟩
  have hfinish : subSize (before.length+(delimiter boundary).length+2+part.encode.length) 1=
      before.length+(delimiter boundary).length+2+part.encode.length-1 :=
    subSize_eq (by omega) (by omega)
  have hnext : addSize (addSize (addSize
      (before.length+(delimiter boundary).length+2+part.encode.length-1) 1)
        (delimiter boundary).length) 2=
      before.length+(delimiter boundary).length+2+part.encode.length+
        (delimiter boundary).length+2 := by
    have hone : addSize (before.length+(delimiter boundary).length+2+part.encode.length-1) 1=
        before.length+(delimiter boundary).length+2+part.encode.length := by
      rw [addSize_eq (by omega)]
      omega
    rw [hone,addSize_eq (b:=(delimiter boundary).length) (by omega),addSize_eq (by omega)]
  rw [contentLoop]
  dsimp only
  rw [hfinish,hadd]
  dsimp only
  rw [hnext]

/-- From the start of a part on, the loop stores that part and all behind it. -/
theorem contentLoop_parts (hreturn : (13 : UInt8) ∉ boundary) (hfeed : (10 : UInt8) ∉ boundary)
    (hclosing : closing=[] ∨ closing=lineEnd) (parts : List FormPart) (part : FormPart)
    (before : Bytes) (fuel : ℕ) (output : FieldMap)
    (hparts : ∀ p ∈ part::parts,p.Encodable boundary)
    (hs : (before++encodeForm boundary closing (part::parts)).length ≤ maxSize) :
    ∃ result : FieldMap,
      contentLoop (before++encodeForm boundary closing (part::parts)) (delimiter boundary)
          (parts.length+1+fuel) (before.length+(delimiter boundary).length+2)
          (before.length+(delimiter boundary).length+2+part.encode.length) output=
        some (.ok result) ∧
      ∀ key,key≠ascii "Content-Type" →
        result[key]?=(lastValue (part::parts) key).or output[key]? := by
  have hm := maxSize_lt_npos
  induction parts generalizing part before output with
  | nil =>
    obtain ⟨typed,hround,hkeep⟩ := contentLoop_part (hparts part List.mem_cons_self) before []
      fuel output hs
    have hsplit := encodeForm_behind before boundary closing part []
    have hbehind := find_behind_closing boundary hclosing
      (before++delimiter boundary++lineEnd++part.encode)
    have hlen := behindPart_length before boundary part
    rw [←hsplit,hlen] at hbehind
    refine ⟨typed.insert part.name part.value,?_,?_⟩
    · rw [List.length_nil,Nat.zero_add,Nat.add_comm 1 fuel,hround]
      dsimp only
      rw [hbehind,if_pos rfl]
    · intro key hkey
      rw [lastValue_cons,getElem?_insert_part,hkeep key hkey]
      rfl
  | cons next parts ih =>
    obtain ⟨typed,hround,hkeep⟩ := contentLoop_part (hparts part List.mem_cons_self) before
      (next::parts) (parts.length+1+fuel) output hs
    have hsplit := encodeForm_behind before boundary closing part (next::parts)
    have hlen := behindPart_length before boundary part
    have hnext := hparts next (List.mem_cons_of_mem _ List.mem_cons_self)
    have hfinish := find?_nextDelimiter closing hnext.headers hnext.value hreturn hfeed
      (before++delimiter boundary++lineEnd++part.encode) parts
    obtain ⟨result,hrun,hresult⟩ := ih next (before++delimiter boundary++lineEnd++part.encode)
      (typed.insert part.name part.value) (fun p hp => hparts p (List.mem_cons_of_mem _ hp))
      (by rw [←hsplit]; exact hs)
    rw [←hsplit,hlen] at hfinish hrun
    have hbound := (find?_bounds hfinish).2
    refine ⟨result,?_,?_⟩
    · have hfuel : (next::parts).length+1+fuel=parts.length+1+fuel+1 := by
        rw [List.length_cons]
        omega
      rw [hfuel,hround]
      dsimp only
      rw [find_of_some hfinish,if_neg (by omega),hrun]
    · intro key hkey
      rw [hresult key hkey,lastValue_cons part,getElem?_insert_part,hkeep key hkey,Option.or_assoc]

/-- The delimiter is read back from the Content-Type. -/
theorem getBoundary_formContentType (boundary : Bytes)
    (hs : (formContentType boundary).length ≤ maxSize) :
    getBoundary (formContentType boundary)=.ok (delimiter boundary) := by
  have hsplit : formContentType boundary=
      ascii "multipart/form-data; boundary"++(ascii "="++boundary) := by
    have hhead : ascii "multipart/form-data; boundary="=
        ascii "multipart/form-data; boundary"++ascii "=" := by decide
    unfold formContentType
    rw [hhead,List.append_assoc]
  have hequal : find? (formContentType boundary) (ascii "=") 0=some 29 := by
    rw [hsplit]
    exact find?_behind_head (by decide)
  rw [getBoundary_some hs hequal]
  rfl

/-- Reading an encoded form gives, for every name, the value of the last part
that carries it, and no other field but the type. -/
theorem getContent_encodeForm {boundary closing : Bytes} {parts : List FormPart}
    (hreturn : (13 : UInt8) ∉ boundary) (hfeed : (10 : UInt8) ∉ boundary)
    (hclosing : closing=[] ∨ closing=lineEnd) (hne : parts≠[])
    (hparts : ∀ part ∈ parts,part.Encodable boundary) (body : CxxText)
    (hbody : body.bytes=encodeForm boundary closing parts) :
    ∃ fields : FieldMap,
      getContent (formContentType boundary) body.bytes ∅=some (.ok fields) ∧
      ∀ key,key≠ascii "Content-Type" → fields[key]?=lastValue parts key := by
  have hm := maxSize_lt_npos
  have hnm := npos_lt_sizeModulus
  have hs := body.size_le
  rw [hbody] at hs ⊢
  obtain ⟨part,others,rfl⟩ := List.exists_cons_of_ne_nil hne
  have hpart := hparts part List.mem_cons_self
  have hfinish := find?_nextDelimiter closing hpart.headers hpart.value hreturn hfeed [] others
  rw [List.nil_append,List.length_nil,Nat.zero_add] at hfinish
  have hbound := (find?_bounds hfinish).2
  have hencode : 45 ≤ part.encode.length := by
    have hheaders := headers_length part
    rw [encode_length]
    omega
  have htype : (formContentType boundary).length ≤ maxSize := by
    have hdelimiter := delimiter_length boundary
    have hhead : (ascii "multipart/form-data; boundary=").length=30 := by decide
    unfold formContentType
    rw [List.length_append]
    omega
  have hfirst : find? (encodeForm boundary closing (part::others)) (delimiter boundary) 0=some 0 := by
    obtain ⟨rest,hrest⟩ := encodeForm_delimiter boundary closing (part::others)
    rw [hrest]
    exact find?_of_occurs ⟨Nat.zero_le _,List.prefix_append _ _⟩
  have hstart : addSize (addSize 0 (delimiter boundary).length) 2=(delimiter boundary).length+2 := by
    rw [addSize_eq (a:=0) (by omega),Nat.zero_add,addSize_eq (by omega)]
  have hfuel := length_le_encodeForm boundary closing (part::others)
  obtain ⟨extra,hextra⟩ := Nat.exists_eq_add_of_le hfuel
  obtain ⟨fields,hrun,hfields⟩ := contentLoop_parts hreturn hfeed hclosing others part [] (extra+3)
    ∅ hparts hs
  refine ⟨fields,?_,?_⟩
  · unfold getContent
    rw [getBoundary_formContentType boundary htype]
    dsimp only
    rw [find_of_some hfirst,hstart,find_of_some hfinish]
    have hcount : (encodeForm boundary closing (part::others)).length+1=
        others.length+1+(extra+3) := by
      rw [hextra,List.length_cons]
      omega
    rw [hcount]
    rw [List.nil_append,List.length_nil,Nat.zero_add] at hrun
    exact hrun
  · intro key hkey
    rw [hfields key hkey,Std.ExtTreeMap.getElem?_empty,Option.or_none]

/-- A text field and a photo whose bytes look like a header. -/
def sampleParts : List FormPart :=
  [⟨ascii "description",none,none,[]⟩,
    ⟨ascii "photo",some (ascii "f.png"),some (ascii "image/png"),ascii "\r\n\r\nname="⟩]

/-- Both parts can be carried behind a boundary. -/
theorem sampleParts_encodable : ∀ part ∈ sampleParts,part.Encodable (ascii "--7") := by
  have hquotable : Quotable (ascii "description") ∧ Quotable (ascii "photo") ∧
      Quotable (ascii "f.png") :=
    ⟨⟨by decide,by decide,by decide,by decide⟩,⟨by decide,by decide,by decide,by decide⟩,
      ⟨by decide,by decide,by decide,by decide⟩⟩
  intro part hpart
  rcases List.mem_cons.mp hpart with rfl|hphoto
  · exact ⟨hquotable.1,fun _ h => (nomatch h),fun _ h => (nomatch h),by decide +kernel,by decide⟩
  · cases List.mem_singleton.mp hphoto
    exact ⟨hquotable.2.1,fun _ h => Option.some.inj h ▸ hquotable.2.2,
      fun _ h => Option.some.inj h ▸ ⟨by decide,by decide⟩,by decide +kernel,by decide⟩

/-- The sample form is read back. -/
theorem getContent_sampleParts :
    ∃ fields : FieldMap,
      getContent (formContentType (ascii "--7")) (encodeForm (ascii "--7") lineEnd sampleParts) ∅=
        some (.ok fields) ∧
      ∀ key,key≠ascii "Content-Type" → fields[key]?=lastValue sampleParts key :=
  getContent_encodeForm (by decide) (by decide) (Or.inr rfl) (by decide) sampleParts_encodable
    ⟨encodeForm (ascii "--7") lineEnd sampleParts,by decide +kernel⟩ rfl

end forms

end Photogram.FormDataRoundTrip
