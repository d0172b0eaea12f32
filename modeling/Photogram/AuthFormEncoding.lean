import Photogram.AuthFormParts
import Photogram.FormDataRoundTrip

/-!
# Encoded parts seen by the authentication server

The parts of a standard encoding as the registration and the photo upload
visit them. A visit may start at the first byte of a part or at the line feed
in front of it. A text part is read back whatever its value is, as long as
that has one line; of a photo part the type and the coordinates are right
exactly when its disposition line does not show a content type of its own.
-/

namespace Photogram.AuthFormEncoding

open CxxString QueryString AuthRequest AuthFormData AuthFormParts FormDataRoundTrip
open FormDataParser (FormPart delimiter encodeForm lineEnd headersEnd quoted)

/-- Text between quotes on one line. -/
structure Inline (text : Bytes) : Prop where
  /-- No quote. -/
  noQuote : (34 : UInt8) ∉ text
  /-- No carriage return. -/
  noReturn : (13 : UInt8) ∉ text
  /-- No line feed. -/
  noFeed : (10 : UInt8) ∉ text

/-- A text field of a form. -/
structure TextField where
  /-- Its name. -/
  name : Bytes
  /-- Its value. -/
  value : Bytes

/-- The part of a text field. -/
def TextField.part (field : TextField) : FormPart := ⟨field.name,none,none,field.value⟩

/-- A photo of a form. -/
structure Photo where
  /-- Name of the field. -/
  name : Bytes
  /-- Name of the file. -/
  filename : Bytes
  /-- Its type. -/
  type : Bytes
  /-- Its bytes. -/
  bytes : Bytes

/-- The part of a photo. -/
def Photo.part (photo : Photo) : FormPart :=
  ⟨photo.name,some photo.filename,some photo.type,photo.bytes⟩

/-- A photo with a name, a file name and a type of one line each. -/
structure Photo.OneLine (photo : Photo) : Prop where
  /-- The name. -/
  name : Inline photo.name
  /-- The file name. -/
  filename : Inline photo.filename
  /-- The type has no carriage return. -/
  typeReturn : (13 : UInt8) ∉ photo.type
  /-- The type has no line feed. -/
  typeFeed : (10 : UInt8) ∉ photo.type

/-- What may stand between the start of a visit and the part. -/
def Lead (lead : Bytes) : Prop := lead=[] ∨ lead=[10]

/-- A lead is skipped by a search for something that does not begin with a
line feed. -/
theorem find?_lead {c : UInt8} {lead needle : Bytes} (h : Lead lead)
    (hhead : needle.head?=some c) (hc : c≠10) (s : Bytes) :
    find? (lead++s) needle 0=(find? s needle 0).map (lead.length+·) := by
  rcases h with rfl|rfl
  · exact find?_skip hhead List.not_mem_nil s
  · exact find?_skip hhead (fun hmem => hc (List.mem_singleton.mp hmem)) s

/-- A search from the start of a visit goes on at the part. -/
theorem find?_part {c : UInt8} {lead needle : Bytes} (h : Lead lead)
    (hhead : needle.head?=some c) (hc : c≠10) (left s : Bytes) :
    find? (left++(lead++s)) needle left.length=
      (find? s needle 0).map (left.length+lead.length+·) := by
  have hshift := find?_append_right left (lead++s) needle 0
  rw [find?_lead h hhead hc,Nat.add_zero,Option.map_map] at hshift
  rw [hshift]
  exact congrArg (Option.map · _) (funext fun p => (Nat.add_assoc _ _ p).symm)

/-- A visited part, cut behind its blank line. -/
theorem part_split (part : FormPart) (left lead right : Bytes) :
    left++(lead++(part.encode++right))=
      (left++(lead++(part.headers++headersEnd)))++(part.value++(crlf++right)) := by
  rw [encode_append]
  simp only [List.append_assoc]
  rfl

/-- Where the value of a visited part starts. -/
theorem valueStart_length (part : FormPart) (left lead : Bytes) :
    (left++(lead++(part.headers++headersEnd))).length=
      left.length+lead.length+part.headers.length+4 := by
  simp only [List.length_append]
  change _+(_+(_+4))=_
  omega

/-- The blank line found from the start of a visit ends the header block of the part. -/
theorem find?_blankLine {part : FormPart} {lead : Bytes} (hlead : Lead lead)
    (hline : (13 : UInt8) ∉ part.disposition)
    (htype : ∀ type,part.contentType=some type → (13 : UInt8) ∉ type) (left right : Bytes) :
    find? (left++(lead++(part.encode++right))) blankLine left.length=
      some (left.length+lead.length+part.headers.length) := by
  have hend : find? (part.encode++right) blankLine 0=some part.headers.length := by
    rw [encode_append]
    exact find?_headersEnd hline htype _
  rw [find?_part hlead rfl (by decide),hend]
  rfl

/-- A part whose names and type stay on their lines. -/
structure Legible (part : FormPart) : Prop where
  /-- The name. -/
  name : Inline part.name
  /-- The file name. -/
  filename : ∀ filename,part.filename=some filename → Inline filename
  /-- The type. -/
  type : ∀ type,part.contentType=some type → (13 : UInt8) ∉ type

/-- What a disposition line shows between its first and its last quote. -/
def shownName (part : FormPart) : Bytes :=
  match part.filename with
  | none => part.name
  | some filename => part.name++(ascii "\"; filename=\""++filename)

/-- First line of a value. -/
def firstLine (value : Bytes) : Bytes := lineFrom value 0 0

section lines

/-- The first line is found in front of what follows a value. -/
theorem find?_firstLine (value right : Bytes) :
    find? (value++(crlf++right)) crlf 0=some (firstLine value).length := by
  unfold firstLine lineFrom cutAt
  cases hfound : find? value crlf 0 with
  | none => exact find?_lineEnd (find?_zero_eq_none_iff.mp hfound) right
  | some p =>
    have hinside := (find?_bounds hfound).2
    dsimp only
    rw [find?_append hfound,List.drop_zero,Nat.sub_zero,List.length_take,
      Nat.min_eq_left (by omega)]

/-- A value begins with its first line. -/
theorem firstLine_starts (value : Bytes) : firstLine value<+:value := by
  unfold firstLine lineFrom cutAt
  split
  · exact List.prefix_rfl
  · exact List.take_prefix _ _

/-- A value is its first line exactly when it has no line end. -/
theorem firstLine_eq_iff {value : Bytes} : firstLine value=value ↔ ¬crlf<:+:value := by
  constructor
  · intro heq
    rw [←heq]
    exact cutAt_free (by decide) (le_refl 0)
  · intro hwhole
    unfold firstLine lineFrom cutAt
    rw [find?_zero_eq_none_iff.mpr hwhole]
    rfl

/-- A quote that ends a line is found behind a text without a carriage return. -/
theorem find?_quoteLine {text : Bytes} (h : (13 : UInt8) ∉ text) (rest : Bytes) :
    find? (text++(ascii "\"\r\n"++rest)) (ascii "\"\r\n") 0=some text.length := by
  refine find?_at fun q hq hocc => ?_
  obtain ⟨_,after,hafter⟩ := hocc
  have hsecond := congrArg (fun l : Bytes => l[1]?) hafter
  have hreturn : (text++(ascii "\"\r\n"++rest))[q+1]?=some 13 := by
    simpa [ascii,List.getElem?_drop] using hsecond.symm
  by_cases hinside : q+1<text.length
  · rw [List.getElem?_append_left hinside] at hreturn
    exact h (List.mem_of_getElem? hreturn)
  · have hend : q+1=text.length := by omega
    rw [hend,List.getElem?_append_right (le_refl _),Nat.sub_self] at hreturn
    exact absurd (Option.some.inj hreturn : (34 : UInt8)=13) (by decide)

end lines

section texts

variable {part : FormPart} {field : TextField} {left lead right : Bytes}

/-- A disposition line between its quotes. -/
theorem disposition_shown (part : FormPart) :
    part.disposition=dispositionStart++(shownName part++[34]) := by
  have hstart : dispositionStart=ascii "Content-Disposition: form-data; name="++[34] := by decide
  have hquote : ascii "\""=[34] := by decide
  have hmiddle : ascii "\"; filename=\""=[34]++(ascii "; filename="++[34]) := by decide
  unfold FormPart.disposition shownName quoted
  rw [hstart,hquote,hmiddle]
  cases part.filename with
  | none => simp only [List.append_assoc,List.append_nil]
  | some filename => simp only [List.append_assoc]

/-- It is followed by a line end, whether or not the part has a type. -/
theorem headers_shown (part : FormPart) (rest : Bytes) :
    ∃ after,part.headers++(headersEnd++rest)=
      dispositionStart++(shownName part++(ascii "\"\r\n"++after)) := by
  have hquote : ascii "\"\r\n"=[34]++lineEnd := by decide
  have hend : headersEnd=lineEnd++lineEnd := by decide
  unfold FormPart.headers
  rw [disposition_shown,hquote,hend]
  cases part.contentType with
  | none => exact ⟨lineEnd++rest,by simp only [List.append_assoc,List.nil_append]⟩
  | some type =>
    exact ⟨ascii "Content-Type: "++(type++(lineEnd++(lineEnd++rest))),
      by simp only [List.append_assoc]⟩

/-- The names of a legible part have no carriage return. -/
theorem Legible.noReturn (h : Legible part) : (13 : UInt8) ∉ shownName part := by
  unfold shownName
  cases hfilename : part.filename with
  | none => exact h.name.noReturn
  | some filename =>
    simp only [List.mem_append,not_or]
    exact ⟨h.name.noReturn,by decide,(h.filename filename hfilename).noReturn⟩

/-- Nor has their disposition line. -/
theorem Legible.disposition (h : Legible part) : (13 : UInt8) ∉ part.disposition :=
  disposition_noReturn h.name.noReturn fun filename hfilename =>
    (h.filename filename hfilename).noReturn

/-- The header block of a visited part. -/
theorem partHeaders_part (h : Legible part) (hlead : Lead lead) :
    partHeaders (left++(lead++(part.encode++right))) left.length=lead++part.headers := by
  have hblank := find?_blankLine hlead h.disposition h.type left right
  unfold partHeaders cutAt
  rw [hblank]
  dsimp only
  rw [List.drop_left,Nat.add_assoc,Nat.add_sub_cancel_left,encode_append,←List.append_assoc lead,
    List.take_left' List.length_append]

/-- A visited part shows a content type exactly when its header block does. -/
theorem hasType_part (h : Legible part) (hlead : Lead lead) (finish : ℕ) :
    HasType (left++(lead++(part.encode++right))) (left.length,finish) ↔
      contentType<:+:part.headers := by
  unfold HasType
  dsimp only
  rw [partHeaders_part h hlead,←find?_zero_isSome_iff,find?_lead hlead rfl (by decide),
    Option.isSome_map,find?_zero_isSome_iff]

/-- The content type of a visited part is that of the part alone. -/
theorem photoType_part (h : Legible part) (hlead : Lead lead) :
    photoType (left++(lead++(part.encode++right))) left.length=photoType part.encode 0 := by
  have halone : partHeaders part.encode 0=part.headers := by
    have hheaders := @partHeaders_part part [] [] [] h (Or.inl rfl)
    rw [List.append_nil] at hheaders
    exact hheaders
  unfold photoType
  rw [partHeaders_part h hlead,halone]
  dsimp only
  rw [find?_lead hlead rfl (by decide)]
  cases find? part.headers contentType 0 with
  | none => rfl
  | some arg =>
    dsimp only [Option.map_some]
    rw [Nat.add_assoc]
    exact cutAt_append_right lead part.headers crlf arg (arg+14)

/-- What a visited part shows between its quotes is read back. -/
theorem getPropertisName_shown (h : Legible part) (hlead : Lead lead)
    (hs : (left++(lead++(part.encode++right))).length ≤ maxSize) :
    getPropertisName (left++(lead++(part.encode++right))) left.length (ascii "name")=
      .ok (shownName part) := by
  have hlen : dispositionStart.length=38 := by decide
  have hstart : dispositionStart=ascii "Content-Disposition: form-data;"++
      32::(ascii "name"++ascii "=\"") := by decide
  obtain ⟨after,hafter⟩ := headers_shown part (part.value++(lineEnd++right))
  have hencode : part.encode++right=
      dispositionStart++(shownName part++(ascii "\"\r\n"++after)) := by
    rw [encode_append,hafter]
  have hsplit : left++(lead++(part.encode++right))=
      (left++(lead++dispositionStart))++(shownName part++(ascii "\"\r\n"++after)) := by
    rw [hencode]
    simp only [List.append_assoc]
  have hbefore : (left++(lead++dispositionStart)).length=left.length+lead.length+38 := by
    simp only [List.length_append,hlen]
    omega
  have hparameter : find? (left++(lead++(part.encode++right))) (ascii "name"++ascii "=\"")
      left.length=some (left.length+lead.length+32) := by
    rw [find?_part hlead rfl (by decide),hencode,hstart,List.append_assoc,List.cons_append,
      List.append_assoc,find?_around (by decide) (by decide) (by decide),←List.append_assoc,
      find?_of_occurs ⟨Nat.zero_le _,List.prefix_append _ _⟩]
    rfl
  have hquote : find? (left++(lead++(part.encode++right))) (ascii "\"\r\n")
      (left.length+lead.length+38)=some (left.length+lead.length+38+(shownName part).length) := by
    have hshift := find?_append_right (left++(lead++dispositionStart))
      (shownName part++(ascii "\"\r\n"++after)) (ascii "\"\r\n") 0
    rw [find?_quoteLine h.noReturn,←hsplit,hbefore] at hshift
    exact hshift
  rw [getPropertisName_some hs hparameter hquote]
  change Except.ok (List.take (left.length+lead.length+38+(shownName part).length-
    (left.length+lead.length+38)) (List.drop (left.length+lead.length+38) _))=_
  rw [Nat.add_sub_cancel_left,hsplit,List.drop_left' hbefore,List.take_left]

/-- A part visited as a text is stored under what it shows between its quotes,
with the first line of its value. -/
theorem visitPart_shown (h : Legible part) (hlead : Lead lead)
    (hs : (left++(lead++(part.encode++right))).length ≤ maxSize) {finish : ℕ}
    (hfinish : 14<subSize finish left.length) (state : FormState) :
    visitPart .lenient (left++(lead++(part.encode++right))) left.length finish false state=
      .ok (shownName part=passwordName,
        {state with userProperties :=
          state.userProperties.insert (shownName part) (firstLine part.value)}) := by
  have hsize : maxSize+4<sizeModulus := by decide
  have hblank := find?_blankLine hlead h.disposition h.type left right
  have hbefore := valueStart_length part left lead
  have hsplit := part_split part left lead right
  have hend : find? (left++(lead++(part.encode++right))) crlf
      (left.length+lead.length+part.headers.length+4)=
        some (left.length+lead.length+part.headers.length+4+(firstLine part.value).length) := by
    have hshift := find?_append_right (left++(lead++(part.headers++headersEnd)))
      (part.value++(crlf++right)) crlf 0
    rw [find?_firstLine,←hsplit,hbefore] at hshift
    exact hshift
  have hinside := (find?_bounds hend).2
  have hliteral : findLiteral .lenient (left++(lead++(part.encode++right)))
      (ascii "Content-Type:") left.length (subSize finish left.length)=.ok npos := by
    unfold findLiteral
    rw [if_neg]
    exact Nat.not_le_of_lt hfinish
  have hstart : addSize (left.length+lead.length+part.headers.length) 4=
      left.length+lead.length+part.headers.length+4 := addSize_eq (by omega)
  have hline : (part.value++(crlf++right)).take (firstLine part.value).length=
      firstLine part.value :=
    (List.prefix_iff_eq_take.mp ((firstLine_starts part.value).trans (List.prefix_append _ _))).symm
  unfold visitPart
  rw [if_neg (by decide),hliteral,ok_bind,if_pos rfl,getPropertisName_shown h hlead hs,ok_bind,
    find_of_some hblank,hstart]
  dsimp only
  rw [find_of_some hend,subSize_eq (by omega) (by omega),
    substr_of_le _ (by omega),ok_bind,Nat.add_sub_cancel_left,hsplit,List.drop_left' hbefore,hline]
  rfl

/-- Length of the header block of a text field. -/
theorem text_headers_length (field : TextField) :
    field.part.headers.length=39+field.name.length := by
  have hheaders : field.part.headers=dispositionStart++(field.name++[34]) :=
    (List.append_nil _).trans (disposition_shown field.part)
  rw [hheaders]
  simp only [List.length_append]
  change 38+(field.name.length+1)=_
  omega

end texts

section photos

variable {photo : Photo} {left lead right : Bytes}

/-- A photo on one line is legible. -/
theorem Photo.OneLine.legible (h : photo.OneLine) : Legible photo.part where
  name := h.name
  filename := fun _ hfilename => by
    cases hfilename
    exact h.filename
  type := fun _ htype => by
    cases htype
    exact h.typeReturn

/-- The header block of a photo: the disposition line and the type. -/
theorem photo_headers (photo : Photo) :
    photo.part.headers=photo.part.disposition++(lineEnd++(contentType++photo.type)) := by
  change photo.part.disposition++(lineEnd++ascii "Content-Type: "++photo.type)=_
  rw [List.append_assoc]
  rfl

/-- The header block of a visited photo part. -/
theorem partHeaders_photo (h : photo.OneLine) (hlead : Lead lead) :
    partHeaders (left++(lead++(photo.part.encode++right))) left.length=
      lead++photo.part.headers := partHeaders_part h.legible hlead

/-- Where the content type of a photo stands when its disposition line shows none. -/
theorem find?_contentType (hlead : Lead lead) (hnone : ¬contentType<:+:photo.part.disposition) :
    find? (lead++photo.part.headers) contentType 0=
      some (lead.length+(photo.part.disposition.length+2)) := by
  have hfound : find? (contentType++photo.type) contentType 0=some 0 :=
    find?_of_occurs ⟨Nat.zero_le _,List.prefix_append _ _⟩
  have hsplit : photo.part.headers=photo.part.disposition++13::(10::(contentType++photo.type)) :=
    photo_headers photo
  have hafter : find? (10::(contentType++photo.type)) contentType 0=some 1 := by
    have hskip : find? ([10]++(contentType++photo.type)) contentType 0=_ :=
      find?_skip rfl (by decide) (contentType++photo.type)
    rw [hfound] at hskip
    exact hskip
  rw [find?_lead hlead rfl (by decide),hsplit,
    find?_around (by decide) (by decide) hnone,hafter]
  rfl

/-- Behind the content type of a photo its header block has no line end. -/
theorem find?_typeEnd (h : photo.OneLine) (lead : Bytes) :
    find? (lead++photo.part.headers) crlf (lead.length+(photo.part.disposition.length+2))=none := by
  have hsplit : lead++photo.part.headers=
      (lead++(photo.part.disposition++lineEnd))++(contentType++photo.type) := by
    rw [photo_headers]
    simp only [List.append_assoc]
  have hlen : (lead++(photo.part.disposition++lineEnd)).length=
      lead.length+(photo.part.disposition.length+2) := by
    simp only [List.length_append]
    rfl
  have hplain : find? (contentType++photo.type) crlf 0=none := by
    refine find?_zero_eq_none_iff.mpr (not_crlf_isInfix fun hmem => ?_)
    rcases List.mem_append.mp hmem with hliteral|htype
    · exact absurd hliteral (by decide)
    · exact h.typeReturn htype
  have hshift := find?_append_right (lead++(photo.part.disposition++lineEnd))
    (contentType++photo.type) crlf 0
  rw [hplain,Nat.add_zero,hlen,←hsplit] at hshift
  exact hshift

/-- The type of a visited photo is read back when its disposition line shows
no content type. -/
theorem photoType_photo (h : photo.OneLine) (hlead : Lead lead)
    (hnone : ¬contentType<:+:photo.part.disposition) :
    photoType (left++(lead++(photo.part.encode++right))) left.length=photo.type := by
  have hsplit : lead++photo.part.headers=
      (lead++(photo.part.disposition++(lineEnd++contentType)))++photo.type := by
    rw [photo_headers]
    simp only [List.append_assoc]
  have hlen : (lead++(photo.part.disposition++(lineEnd++contentType))).length=
      lead.length+(photo.part.disposition.length+2)+14 := by
    simp only [List.length_append]
    change _+(_+(2+14))=_
    omega
  unfold photoType
  rw [partHeaders_photo h hlead]
  dsimp only
  rw [find?_contentType hlead hnone]
  dsimp only
  unfold lineFrom cutAt
  rw [find?_typeEnd h lead]
  dsimp only
  rw [hsplit,List.drop_left' hlen]

/-- The photo is then recorded from its first byte on. -/
theorem photoStart_photo (h : photo.OneLine) (hlead : Lead lead)
    (hnone : ¬contentType<:+:photo.part.disposition) :
    photoStart (left++(lead++(photo.part.encode++right))) left.length=
      left.length+lead.length+photo.part.headers.length+4 := by
  have hheaders : photo.part.headers.length=
      photo.part.disposition.length+2+14+photo.type.length := by
    rw [photo_headers]
    simp only [List.length_append]
    change _+(2+(14+_))=_
    omega
  unfold photoStart
  rw [partHeaders_photo h hlead]
  dsimp only
  rw [find?_contentType hlead hnone]
  dsimp only
  rw [photoType_photo h hlead hnone,hheaders]
  omega

/-- The coordinates of a visited photo are those of its bytes when its
disposition line shows no content type. -/
theorem photoCoordinates_photo (h : photo.OneLine) (hlead : Lead lead)
    (hnone : ¬contentType<:+:photo.part.disposition)
    (hs : (left++(lead++(photo.part.encode++right))).length ≤ maxSize) :
    photoCoordinates (left++(lead++(photo.part.encode++right)))
        (left.length,left.length+lead.length+photo.part.encode.length)=
      (left.length+lead.length+photo.part.headers.length+4,photo.bytes.length) := by
  have hm := maxSize_lt_npos
  have hnm := npos_lt_sizeModulus
  have hlength : photo.part.encode.length=photo.part.headers.length+4+photo.bytes.length+2 :=
    encode_length photo.part
  simp only [List.length_append] at hs
  have hsize : subSize (left.length+lead.length+photo.part.encode.length)
      (left.length+lead.length+photo.part.headers.length+4)=photo.bytes.length+2 := by
    rw [subSize_eq (by omega) (by omega)]
    omega
  unfold photoCoordinates
  dsimp only
  rw [photoStart_photo h hlead hnone,hsize,subSize_eq (by omega) (by omega)]
  rfl

/-- A content type shown by the disposition line is taken for the type, and
the photo is recorded in front of its first byte. -/
theorem photoStart_misled (h : photo.OneLine) (hlead : Lead lead)
    (hshown : contentType<:+:photo.part.disposition) :
    photoStart (left++(lead++(photo.part.encode++right))) left.length<
      left.length+lead.length+photo.part.headers.length+4 := by
  obtain ⟨arg,hfirst⟩ := Option.isSome_iff_exists.mp (find?_zero_isSome_iff.mpr hshown)
  have hinside : arg+14 ≤ photo.part.disposition.length := (find?_bounds hfirst).2
  have hsplit : photo.part.headers=
      photo.part.disposition++(crlf++(contentType++photo.type)) := photo_headers photo
  have hfind : find? (lead++photo.part.headers) contentType 0=some (lead.length+arg) := by
    rw [find?_lead hlead rfl (by decide),hsplit,find?_append hfirst]
    rfl
  have hline : find? (lead++photo.part.headers) crlf (lead.length+arg)=
      some (lead.length+photo.part.disposition.length) := by
    have hafter : find? (photo.part.disposition++(crlf++(contentType++photo.type))) crlf 0=
        some photo.part.disposition.length := find?_behind_head h.legible.disposition
    have hend : find? (lead++photo.part.headers) crlf 0=
        some (lead.length+photo.part.disposition.length) := by
      rw [find?_lead hlead rfl (by decide),hsplit,hafter]
      rfl
    exact find?_from hend (Nat.zero_le _) (by omega)
  have htype : (photoType (left++(lead++(photo.part.encode++right))) left.length).length ≤
      photo.part.disposition.length-(arg+14) := by
    unfold photoType
    rw [partHeaders_photo h hlead]
    dsimp only
    rw [hfind]
    dsimp only
    unfold lineFrom cutAt
    rw [hline]
    dsimp only
    rw [List.length_take]
    omega
  have hlonger : photo.part.disposition.length<photo.part.headers.length := by
    rw [hsplit]
    simp only [List.length_append]
    change _<_+(2+_)
    omega
  unfold photoStart
  rw [partHeaders_photo h hlead]
  dsimp only
  rw [hfind]
  dsimp only
  omega

/-- The coordinates recorded then are those of a longer piece of the request. -/
theorem photoCoordinates_misled (h : photo.OneLine) (hlead : Lead lead)
    (hshown : contentType<:+:photo.part.disposition)
    (hs : (left++(lead++(photo.part.encode++right))).length ≤ maxSize) {coordinates : ℕ×ℕ}
    (hcoordinates : coordinates=photoCoordinates (left++(lead++(photo.part.encode++right)))
      (left.length,left.length+lead.length+photo.part.encode.length)) :
    substr (left++(lead++(photo.part.encode++right))) coordinates.1 coordinates.2≠.ok photo.bytes := by
  have hm := maxSize_lt_npos
  have hnm := npos_lt_sizeModulus
  have hearly : photoStart (left++(lead++(photo.part.encode++right))) left.length<
      left.length+lead.length+photo.part.headers.length+4 := photoStart_misled h hlead hshown
  have hlength : photo.part.encode.length=photo.part.headers.length+4+photo.bytes.length+2 :=
    encode_length photo.part
  have hroom : left.length+lead.length+photo.part.encode.length ≤
      (left++(lead++(photo.part.encode++right))).length := by
    simp only [List.length_append]
    omega
  have hsize : subSize (subSize (left.length+lead.length+photo.part.encode.length)
      (photoStart (left++(lead++(photo.part.encode++right))) left.length)) 2=
        left.length+lead.length+photo.part.encode.length-
          photoStart (left++(lead++(photo.part.encode++right))) left.length-2 := by
    have hpiece := subSize_eq (b:=photoStart (left++(lead++(photo.part.encode++right))) left.length)
      (a:=left.length+lead.length+photo.part.encode.length) (by omega) (by omega)
    rw [hpiece,subSize_eq (by omega) (by omega)]
  rw [hcoordinates]
  unfold photoCoordinates
  dsimp only
  rw [hsize,substr_of_le _ (by omega)]
  intro heq
  have hcount := congrArg List.length (Except.ok.inj heq)
  rw [List.length_take,List.length_drop] at hcount
  omega

/-- A visited photo part shows a content type in its header block. -/
theorem hasType_photo (h : photo.OneLine) (hlead : Lead lead) (finish : ℕ) :
    HasType (left++(lead++(photo.part.encode++right))) (left.length,finish) := by
  rw [hasType_part h.legible hlead,photo_headers]
  exact ⟨photo.part.disposition++lineEnd,photo.type,by simp only [List.append_assoc]⟩

/-- A visited photo whose disposition line shows no content type is recorded
with its type and the coordinates of its bytes. -/
theorem addPhoto_photo (h : photo.OneLine) (hlead : Lead lead)
    (hnone : ¬contentType<:+:photo.part.disposition) (left right : Bytes)
    (hs : (left++(lead++(photo.part.encode++right))).length ≤ maxSize) (state : FormState) :
    addPhoto .lenient (left++(lead++(photo.part.encode++right))) left.length
        (left.length+lead.length+photo.part.encode.length) state=
      .ok ⟨state.userProperties.insert photoTypeKey photo.type,
        state.filesCoordinates.insert
          (fileName (left++(lead++(photo.part.encode++right))) left.length)
          (left.length+lead.length+photo.part.headers.length+4,photo.bytes.length)⟩ := by
  have hstart : left.length ≤ (left++(lead++(photo.part.encode++right))).length := by
    rw [List.length_append]
    omega
  rw [addPhoto_lenient hs hstart _ state (hasType_photo h hlead 0),
    photoType_photo h hlead hnone,photoCoordinates_photo h hlead hnone hs]

/-- The bytes of a photo are cut out behind its header block. -/
theorem substr_photo (photo : Photo) (left lead right : Bytes) :
    substr (left++(lead++(photo.part.encode++right)))
        (left.length+lead.length+photo.part.headers.length+4) photo.bytes.length=
      .ok photo.bytes := by
  have hbytes : photo.part.value=photo.bytes := rfl
  have hsplit := part_split photo.part left lead right
  have hbefore := valueStart_length photo.part left lead
  rw [hbytes] at hsplit
  have hinside : left.length+lead.length+photo.part.headers.length+4 ≤
      (left++(lead++(photo.part.encode++right))).length := by
    rw [hsplit,List.length_append,hbefore]
    omega
  rw [substr_of_le _ hinside,hsplit,List.drop_left' hbefore,List.take_left]

/-- A photo whose name and file name do not show a content type. -/
def Photo.Plain (photo : Photo) : Prop :=
  ¬contentType<:+:photo.name ∧ ¬contentType<:+:photo.filename

/-- The disposition line shows a content type exactly when one of its names does. -/
theorem plain_iff (photo : Photo) :
    ¬contentType<:+:photo.part.disposition ↔ photo.Plain := by
  have hquote : (34 : UInt8) ∉ contentType := by decide
  have hne : contentType≠[] := by decide
  have hsplit : photo.part.disposition=
      ascii "Content-Disposition: form-data; name="++34::(photo.name++34::
        (ascii "; filename="++34::(photo.filename++34::[]))) := by
    simp [FormPart.disposition,Photo.part,quoted,ascii]
  have hstart : ¬contentType<:+:ascii "Content-Disposition: form-data; name=" := by decide
  have hmiddle : ¬contentType<:+:ascii "; filename=" := by decide
  have hend : ¬contentType<:+:([] : Bytes) := by decide
  unfold Photo.Plain
  rw [hsplit,isInfix_around hquote hne,isInfix_around hquote hne,isInfix_around hquote hne,
    isInfix_around hquote hne]
  simp only [not_or,hstart,hmiddle,hend,not_false_eq_true,true_and,and_true]

end photos

end Photogram.AuthFormEncoding
