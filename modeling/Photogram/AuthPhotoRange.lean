import Photogram.AuthFormEncoding
import Photogram.HeaderLines

/-!
# The range recorded for a photo part

A photo part is a block of header lines, a blank line, the photo and a line
end. Its photo starts behind the blank line, but the recorded start is counted
from the first line that shows a content type: the length of what that line
says and four bytes. The two agree exactly when that line is the last one. The
recorded length never wraps, since the recorded start stays in front of the
photo otherwise.
-/

namespace Photogram.AuthPhotoRange

open CxxString AuthRequest AuthFormData AuthFormParts AuthFormEncoding HeaderLines

/-- A photo part with any header lines. -/
structure PhotoPart where
  /-- The header lines. -/
  lines : List Bytes
  /-- Its type. -/
  type : Bytes
  /-- The name of its file. -/
  filename : Bytes
  /-- The bytes of the photo. -/
  photo : Bytes

/-- Parameter that shows the name of a file, up to its quote. -/
def filenameStart : Bytes := ascii "filename=\""

/-- The header lines are lines; one of them is the type line and one a
disposition line that ends with the file name. -/
structure PhotoPart.Announced (part : PhotoPart) : Prop where
  /-- Lines. -/
  lines : ∀ line ∈ part.lines,HeaderLine line
  /-- The type line. -/
  type : contentType++part.type ∈ part.lines
  /-- The disposition line. -/
  filename : ∃ front,ascii "Content-Disposition: "++front++filenameStart++part.filename++ascii "\""
    ∈ part.lines

/-- The part behind its separator. -/
def PhotoPart.bytes (part : PhotoPart) : Bytes :=
  terminated part.lines++(crlf++(part.photo++crlf))

/-- A request that holds the part. -/
def PhotoPart.within (part : PhotoPart) (left lead right : Bytes) : Bytes :=
  left++(lead++(part.bytes++right))

/-- Where the part finishes in it. -/
def PhotoPart.finish (part : PhotoPart) (left lead : Bytes) : ℕ :=
  left.length+lead.length+part.bytes.length

/-- What is recorded under the name is the range from behind the first blank
line to the line end in front of the finish. -/
def RecordsPhoto (request : Bytes) (startPositon finishPositon : ℕ) (filename : Bytes) : Prop :=
  ∃ blank size,find? request blankLine startPositon=some blank ∧ blank+4+size+2=finishPositon ∧
    ∀ state,∃ userProperties,addPhoto .lenient request startPositon finishPositon state=
      .ok ⟨userProperties,state.filesCoordinates.insert filename (blank+4,size)⟩

/-- The recorded length is what lies between the recorded start and the line
end in front of the finish: it did not wrap. -/
def LengthFits (request : Bytes) (startPositon finishPositon : ℕ) : Prop :=
  ∀ state,∃ userProperties name first size,
    addPhoto .lenient request startPositon finishPositon state=
      .ok ⟨userProperties,state.filesCoordinates.insert name (first,size)⟩ ∧
        first+size+2=finishPositon

/-- The type line is the last one and the only one that shows a content type. -/
def PhotoPart.TypeLast (part : PhotoPart) : Prop :=
  ∃ before,part.lines=before++[contentType++part.type] ∧ ∀ line ∈ before,¬contentType<:+:line

/-- The first file name shown by the header lines is the one of the part. -/
def PhotoPart.NameFirst (part : PhotoPart) : Prop :=
  FirstBegins (terminated part.lines) filenameStart (filenameStart++part.filename++ascii "\"\r\n")

/-- A line of a block, up to the end of the line or of the block. -/
theorem lineFrom_shown (before : Bytes) {line tail : Bytes} {p k : ℕ}
    (htail : tail=[] ∨ ∃ after,tail=ascii "\r\n"++after) (hline : ¬crlf<:+:line)
    (hk : p+k ≤ line.length) :
    lineFrom (before++(line++tail)) (before.length+p) (before.length+p+k)=line.drop (p+k) := by
  rcases htail with rfl|⟨after,rfl⟩
  · have hnone : find? line crlf p=none :=
      find?_eq_none_iff.mpr fun q _ hocc => hline hocc.isInfix
    rw [List.append_nil,Nat.add_assoc]
    unfold lineFrom
    rw [cutAt_append_right]
    unfold cutAt
    rw [hnone]
  · have hbegin : line.drop p++crlf<+:(before++(line++(crlf++after))).drop (before.length+p) := by
      rw [List.drop_length_add_append,List.drop_append_of_le_length (by omega),←List.append_assoc]
      exact List.prefix_append _ _
    have hplace : before.length+p ≤ (before++(line++(crlf++after))).length := by
      simp only [List.length_append]
      omega
    have hrest : ¬crlf<:+:line.drop p := fun h => hline (h.trans (List.drop_suffix _ _).isInfix)
    have hlength : k ≤ (line.drop p).length := by
      rw [List.length_drop]
      omega
    exact (lineFrom_begins hbegin hplace hrest hlength).trans List.drop_drop

section visited

variable {part : PhotoPart} {left lead right : Bytes}

/-- A part that announces its type has a line. -/
theorem PhotoPart.Announced.filled (h : part.Announced) : part.lines≠[] := by
  intro hnil
  have hmem := h.type
  rw [hnil] at hmem
  exact absurd hmem List.not_mem_nil

/-- The request, taken apart at the lines of the part. -/
theorem within_eq (part : PhotoPart) (left lead right : Bytes) :
    part.within left lead right=
      left++(lead++(terminated part.lines++(crlf++(part.photo++(crlf++right))))) := by
  unfold PhotoPart.within PhotoPart.bytes
  simp only [List.append_assoc]

/-- Where the part finishes, counted from its lines. -/
theorem finish_eq (part : PhotoPart) (left lead : Bytes) :
    part.finish left lead=
      left.length+lead.length+(terminated part.lines).length+2+part.photo.length+2 := by
  unfold PhotoPart.finish PhotoPart.bytes
  simp only [List.length_append]
  change _+_+(_+(2+(_+2)))=_
  omega

/-- The request, taken apart at the blank line of the part. -/
theorem within_blank (h : part.Announced) (left lead right : Bytes) :
    part.within left lead right=
      left++(lead++(joined part.lines++(blankLine++(part.photo++(crlf++right))))) := by
  rw [within_eq]
  exact congrArg (fun bytes => left++(lead++bytes)) (joined_blank h.filled _)

/-- The first blank line is the one behind the header lines. -/
theorem find?_blank_within (left right : Bytes) (h : part.Announced) (hlead : Lead lead) :
    find? (part.within left lead right) blankLine left.length=
      some (left.length+lead.length+(joined part.lines).length) := by
  rw [within_blank h,find?_part hlead rfl (by decide)]
  exact congrArg (Option.map _) (find?_blank h.lines h.filled _)

/-- The header block of the part is its lines. -/
theorem partHeaders_within (left right : Bytes) (h : part.Announced) (hlead : Lead lead) :
    partHeaders (part.within left lead right) left.length=lead++joined part.lines := by
  unfold partHeaders cutAt
  rw [find?_blank_within left right h hlead]
  dsimp only
  rw [within_blank h,List.drop_left,Nat.add_assoc,Nat.add_sub_cancel_left,←List.append_assoc lead,
    List.take_left' List.length_append]

/-- The recorded start is four bytes behind the first line that shows a
content type. -/
theorem photoStart_within (left right : Bytes) (h : part.Announced) (hlead : Lead lead)
    {before after : List Bytes} {line : Bytes} (hlines : part.lines=before++line::after) (hshows : contentType<:+:line)
    (hfree : ∀ l ∈ before,¬contentType<:+:l) :
    photoStart (part.within left lead right) left.length=
      left.length+lead.length+(terminated before).length+line.length+4 := by
  obtain ⟨p,hp⟩ := Option.isSome_iff_exists.mp (find?_zero_isSome_iff.mpr hshows)
  have hinside : p+14 ≤ line.length := (find?_bounds hp).2
  have hheaders : partHeaders (part.within left lead right) left.length=
      lead++(terminated before++(line++led after)) := by
    rw [partHeaders_within left right h hlead,hlines,joined_split]
  have hline : HeaderLine line := h.lines line (by rw [hlines]; simp)
  have hfind : find? (partHeaders (part.within left lead right) left.length) contentType 0=
      some (lead.length+((terminated before).length+p)) := by
    rw [hheaders,find?_lead hlead rfl (by decide),
      find?_passLines (by decide) (by decide) (by decide) hfree,find?_append hp]
    rfl
  have htype : photoType (part.within left lead right) left.length=line.drop (p+14) := by
    unfold photoType
    dsimp only
    rw [hfind]
    dsimp only
    have hcut := lineFrom_shown (lead++terminated before) (led_cases after)
      (not_crlf_isInfix hline.noReturn) hinside
    rw [List.append_assoc,←hheaders,List.length_append] at hcut
    rw [←Nat.add_assoc lead.length]
    exact hcut
  unfold photoStart
  dsimp only
  rw [hfind,htype]
  dsimp only
  rw [List.length_drop]
  omega

/-- The header lines show a file name, and a quote at the end of a line behind it. -/
theorem PhotoPart.Announced.shown (h : part.Announced) :
    ∃ p stop,find? (terminated part.lines) filenameStart 0=some p ∧
      find? (terminated part.lines) (ascii "\"\r\n") (p+10)=some stop := by
  obtain ⟨front,hname⟩ := h.filename
  obtain ⟨before,after,hlines⟩ := List.append_of_mem hname
  have hsplit : terminated part.lines=
      (terminated before++(ascii "Content-Disposition: "++front))++
        (filenameStart++(part.filename++(ascii "\"\r\n"++terminated after))) := by
    rw [hlines,terminated_split]
    simp only [List.append_assoc]
    rfl
  have hshown : Occurs filenameStart (terminated part.lines)
      (terminated before++(ascii "Content-Disposition: "++front)).length := by
    rw [hsplit]
    exact occurs_behind _ _ _
  have hquote : Occurs (ascii "\"\r\n") (terminated part.lines)
      ((terminated before++(ascii "Content-Disposition: "++front)).length+
        (10+part.filename.length)) := by
    have hagain : terminated part.lines=
        (terminated before++(ascii "Content-Disposition: "++front)++
          (filenameStart++part.filename))++(ascii "\"\r\n"++terminated after) := by
      rw [hsplit]
      simp only [List.append_assoc]
    have hlength : (terminated before++(ascii "Content-Disposition: "++front)++
        (filenameStart++part.filename)).length=
          (terminated before++(ascii "Content-Disposition: "++front)).length+
            (10+part.filename.length) := by
      simp only [List.length_append]
      rfl
    rw [hagain,←hlength]
    exact occurs_behind _ _ _
  obtain ⟨p,hp,hple⟩ := exists_find?_le hshown (Nat.zero_le _)
  have hbehind : p+10 ≤ (terminated before++(ascii "Content-Disposition: "++front)).length+
      (10+part.filename.length) := by omega
  obtain ⟨stop,hstop,_⟩ := exists_find?_le hquote hbehind
  exact ⟨p,stop,hp,hstop⟩

/-- The file name that is read stands behind the first parameter that shows
one, up to the first quote at the end of a line. -/
theorem fileName_within (h : part.Announced) (hlead : Lead lead)
    (hs : (part.within left lead right).length ≤ maxSize) :
    ∃ p stop,find? (terminated part.lines) filenameStart 0=some p ∧
      find? (terminated part.lines) (ascii "\"\r\n") (p+10)=some stop ∧
        fileName (part.within left lead right) left.length=
          ((terminated part.lines).drop (p+10)).take (stop-(p+10)) := by
  obtain ⟨p,stop,hp,hstop⟩ := h.shown
  have hparameter : p+10 ≤ (terminated part.lines).length := (find?_bounds hp).2
  have hend : stop+3 ≤ (terminated part.lines).length := (find?_bounds hstop).2
  have hrequest := within_eq part left lead right
  have hat : find? (part.within left lead right) (ascii "filename"++ascii "=\"") left.length=
      some (left.length+lead.length+p) := by
    rw [hrequest,find?_part hlead rfl (by decide)]
    exact congrArg (Option.map _) (find?_append hp)
  have hclose : find? (part.within left lead right) (ascii "\"\r\n")
      (left.length+lead.length+p+10)=some (left.length+lead.length+stop) := by
    have hshift := find?_append_right (left++lead)
      (terminated part.lines++(crlf++(part.photo++(crlf++right)))) (ascii "\"\r\n") (p+10)
    rw [find?_append hstop,List.append_assoc,←hrequest,List.length_append,←Nat.add_assoc] at hshift
    exact hshift
  refine ⟨p,stop,hp,hstop,?_⟩
  unfold fileName
  rw [getPropertisName_some hs hat hclose]
  change List.take (_-(left.length+lead.length+p+10)) (List.drop (left.length+lead.length+p+10) _)=_
  have hcount : left.length+lead.length+stop-(left.length+lead.length+p+10)=stop-(p+10) := by omega
  rw [hcount,hrequest,←List.append_assoc left,Nat.add_assoc _ p,←List.length_append,
    List.drop_length_add_append,List.drop_append_of_le_length (by omega),
    List.take_append_of_le_length (by rw [List.length_drop]; omega)]

/-- The name of the file stays on its line. -/
theorem PhotoPart.Announced.noReturn (h : part.Announced) : (13 : UInt8) ∉ part.filename := by
  obtain ⟨front,hname⟩ := h.filename
  intro hmem
  refine (h.lines _ hname).noReturn ?_
  exact List.mem_append_left _ (List.mem_append_right _ hmem)

/-- The file name of the part is read exactly when it is shown first. -/
theorem fileName_eq_iff (h : part.Announced) (hlead : Lead lead)
    (hs : (part.within left lead right).length ≤ maxSize) :
    fileName (part.within left lead right) left.length=part.filename ↔ part.NameFirst := by
  obtain ⟨p,stop,hp,hstop,hname⟩ := fileName_within h hlead hs
  have hinside : p+10 ≤ (terminated part.lines).length := (find?_bounds hp).2
  have hbehind : p+10 ≤ stop := (find?_bounds hstop).1
  obtain ⟨rest,hrest⟩ := (find?_eq_some_iff.mp hp).2.1.2
  have hdrop : (terminated part.lines).drop (p+10)=rest := by
    rw [←List.drop_drop,←hrest]
    rfl
  rw [hname,hdrop]
  constructor
  · intro heq
    obtain ⟨_,after,hafter⟩ := (find?_eq_some_iff.mp hstop).2.1
    refine ⟨p,hp,after,?_⟩
    have hcut : rest=part.filename++(ascii "\"\r\n"++after) := by
      calc rest=rest.take (stop-(p+10))++rest.drop (stop-(p+10)) := (List.take_append_drop _ _).symm
        _=part.filename++(ascii "\"\r\n"++after) := by
          rw [heq,←hdrop,List.drop_drop,Nat.add_sub_cancel' hbehind,hafter]
    rw [←hrest,hcut]
    simp only [List.append_assoc]
  · rintro ⟨q,hq,after,hafter⟩
    cases Option.some.inj (hq.symm.trans hp)
    have hcut : rest=part.filename++(ascii "\"\r\n"++after) := by
      refine List.append_cancel_left (hrest.trans ?_)
      rw [←hafter]
      simp only [List.append_assoc]
    have hlength : ((terminated part.lines).take (p+10)).length=p+10 := by
      rw [List.length_take,Nat.min_eq_left hinside]
    have hquote := find?_append_right ((terminated part.lines).take (p+10)) rest (ascii "\"\r\n") 0
    rw [←hdrop,List.take_append_drop,hdrop,hlength,hcut,find?_quoteLine h.noReturn,Nat.add_zero,
      hstop] at hquote
    cases Option.some.inj hquote
    rw [Nat.add_sub_cancel_left,hcut,List.take_left]

/-- The part shows a content type wherever it is visited. -/
theorem hasType_within (h : part.Announced) (hlead : Lead lead) :
    contentType<:+:partHeaders (part.within left lead right) left.length := by
  obtain ⟨before,after,hlines⟩ := List.append_of_mem h.type
  rw [partHeaders_within left right h hlead,hlines,joined_split]
  refine ⟨lead++terminated before,part.type++led after,?_⟩
  simp only [List.append_assoc]

/-- The call records the file name it reads, from the recorded start to the
line end in front of the finish. -/
theorem addPhoto_within (h : part.Announced) (hlead : Lead lead)
    (hs : (part.within left lead right).length ≤ maxSize) :
    ∃ size,photoStart (part.within left lead right) left.length+size+2=part.finish left lead ∧
      ∀ state,addPhoto .lenient (part.within left lead right) left.length (part.finish left lead) state=
        .ok ⟨state.userProperties.insert photoTypeKey
            (photoType (part.within left lead right) left.length),
          state.filesCoordinates.insert (fileName (part.within left lead right) left.length)
            (photoStart (part.within left lead right) left.length,size)⟩ := by
  have hm : maxSize<sizeModulus := by decide
  obtain ⟨before,line,after,hlines,hshows,hfree⟩ := exists_firstShown h.type
    (List.prefix_append _ _).isInfix
  have hstart := photoStart_within left right h hlead hlines hshows hfree
  have hblock := terminated_length before after line
  rw [←hlines] at hblock
  have hfinish := finish_eq part left lead
  have hrequest : part.finish left lead ≤ (part.within left lead right).length := by
    unfold PhotoPart.finish PhotoPart.within
    simp only [List.length_append]
    omega
  have hsize : subSize (subSize (part.finish left lead)
      (photoStart (part.within left lead right) left.length)) 2=
        part.finish left lead-photoStart (part.within left lead right) left.length-2 := by
    have hfirst : subSize (part.finish left lead)
        (photoStart (part.within left lead right) left.length)=
          part.finish left lead-photoStart (part.within left lead right) left.length :=
      subSize_eq (by omega) (by omega)
    rw [hfirst,subSize_eq (by omega) (by omega)]
  refine ⟨part.finish left lead-photoStart (part.within left lead right) left.length-2,by omega,
    fun state => ?_⟩
  have hinside : left.length ≤ (part.within left lead right).length := by
    unfold PhotoPart.within
    rw [List.length_append]
    omega
  rw [addPhoto_lenient hs hinside _ _ (hasType_within h hlead)]
  unfold photoCoordinates
  dsimp only
  rw [hsize]

end visited

section main

variable {part : PhotoPart} {left lead right : Bytes}

/-- What is recorded under the name behind the blank line shows the name that
was read and the start that was counted. -/
theorem RecordsPhoto.counted (h : part.Announced) (hlead : Lead lead)
    (hs : (part.within left lead right).length ≤ maxSize)
    (hrecords : RecordsPhoto (part.within left lead right) left.length (part.finish left lead)
      part.filename) :
    fileName (part.within left lead right) left.length=part.filename ∧
      ∃ blank,find? (part.within left lead right) blankLine left.length=some blank ∧
        photoStart (part.within left lead right) left.length=blank+4 := by
  obtain ⟨_,_,hadd⟩ := addPhoto_within h hlead hs
  obtain ⟨blank,_,hblank,-,hrecorded⟩ := hrecords
  obtain ⟨_,hresult⟩ := hrecorded emptyForm
  rw [hadd emptyForm] at hresult
  have hentry := congrArg (fun state : FormState => state.filesCoordinates[part.filename]?)
    (Except.ok.inj hresult)
  dsimp only at hentry
  rw [getElem?_insert,getElem?_insert,if_pos rfl] at hentry
  by_cases hname : fileName (part.within left lead right) left.length=part.filename
  · rw [if_pos hname] at hentry
    exact ⟨hname,blank,hblank,congrArg Prod.fst (Option.some.inj hentry)⟩
  · rw [if_neg hname] at hentry
    exact absurd hentry (by simp [emptyForm])

/-- The start counted from the first line that shows a content type is that of
the photo exactly when the type line is the last one and the only such line. -/
theorem photoStart_eq_iff (left right : Bytes) (h : part.Announced) (hlead : Lead lead) :
    photoStart (part.within left lead right) left.length=
      left.length+lead.length+(joined part.lines).length+4 ↔ part.TypeLast := by
  have hblock : (joined part.lines).length+2=(terminated part.lines).length := by
    rw [←joined_lineEnd h.filled,List.length_append]
    rfl
  constructor
  · intro hstart
    obtain ⟨before,line,after,hlines,hshows,hfree⟩ := exists_firstShown h.type
      (List.prefix_append _ _).isInfix
    have hshown := photoStart_within left right h hlead hlines hshows hfree
    have hlength := terminated_length before after line
    rw [←hlines] at hlength
    have hnone : after=[] := terminated_length_eq_zero.mp (by omega)
    rw [hnone] at hlines
    refine ⟨before,?_,hfree⟩
    have hmem := h.type
    rw [hlines] at hmem
    rcases List.mem_append.mp hmem with hbefore|hlast
    · exact absurd (List.prefix_append _ _).isInfix (hfree _ hbefore)
    · rw [hlines,List.mem_singleton.mp hlast]
  · rintro ⟨before,hlines,hfree⟩
    have hstart := photoStart_within left right h hlead hlines
      (List.prefix_append _ _).isInfix hfree
    have hlength := terminated_length before [] (contentType++part.type)
    rw [←hlines,terminated_nil,List.length_nil] at hlength
    omega

/-- For a photo part with any header lines the recorded length never wraps, and
the photo is recorded under its name exactly when the type line is the last
line, with no content type shown in front of it, and no other file name is
shown before that of the part. -/
theorem addPhoto_records (h : part.Announced) (hlead : Lead lead)
    (hs : (part.within left lead right).length ≤ maxSize) :
    LengthFits (part.within left lead right) left.length (part.finish left lead) ∧
      (RecordsPhoto (part.within left lead right) left.length (part.finish left lead) part.filename ↔
        part.TypeLast ∧ part.NameFirst) := by
  obtain ⟨size,hsize,hadd⟩ := addPhoto_within h hlead hs
  have hblank := find?_blank_within left right h hlead
  refine ⟨fun state => ⟨_,_,_,size,hadd state,hsize⟩,?_⟩
  rw [←fileName_eq_iff h hlead hs,←photoStart_eq_iff left right h hlead]
  constructor
  · intro hrecords
    obtain ⟨hname,blank,hfound,hstart⟩ := hrecords.counted h hlead hs
    cases Option.some.inj (hblank.symm.trans hfound)
    exact ⟨hstart,hname⟩
  · rintro ⟨hstart,hname⟩
    rw [hstart] at hsize hadd
    rw [hname] at hadd
    exact ⟨_,size,hblank,hsize,fun state => ⟨_,hadd state⟩⟩

/-- A disposition line of a file named a. -/
def dispositionLine : Bytes :=
  ascii "Content-Disposition: form-data; name=\"photo\"; filename=\"a\""

/-- A photo part whose type line comes last. -/
def typeLastPart : PhotoPart :=
  ⟨[dispositionLine,ascii "Content-Type: image/png"],ascii "image/png",ascii "a",[1,2,3]⟩

/-- The same part with its type line first. -/
def typeFirstPart : PhotoPart := {typeLastPart with
  lines := [ascii "Content-Type: image/png",dispositionLine]}

/-- Both lines are lines. -/
theorem headerLine_typeLastPart : ∀ line ∈ typeLastPart.lines,HeaderLine line := by
  intro line hline
  rcases List.mem_pair.mp hline with rfl|rfl
  · exact ⟨by decide,by decide +kernel,by decide +kernel⟩
  · exact ⟨by decide,by decide,by decide⟩

/-- The photo of the first part is recorded behind its blank line. -/
theorem addPhoto_records_typeLast :
    RecordsPhoto (typeLastPart.within [] [10] (ascii "--")) 0 (typeLastPart.finish [] [10]) (ascii "a") := by
  have hannounced : typeLastPart.Announced := by
    refine ⟨headerLine_typeLastPart,?_,?_⟩
    · exact List.mem_pair.mpr (Or.inr (by decide))
    · exact ⟨ascii "form-data; name=\"photo\"; ",List.mem_pair.mpr (Or.inl (by decide +kernel))⟩
  have hsize : (typeLastPart.within [] [10] (ascii "--")).length ≤ maxSize := by decide +kernel
  refine (addPhoto_records hannounced (Or.inr rfl) hsize).2.mpr ⟨?_,?_⟩
  · exact ⟨[dispositionLine],rfl,by decide +kernel⟩
  · exact ⟨46,by decide +kernel,by decide +kernel⟩

/-- That of the second is recorded from inside the header block. -/
theorem addPhoto_typeFirst : typeFirstPart.Announced ∧
    (typeFirstPart.within [] [10] (ascii "--")).length ≤ maxSize ∧
      ¬RecordsPhoto (typeFirstPart.within [] [10] (ascii "--")) 0 (typeFirstPart.finish [] [10])
        (ascii "a") := by
  have hsize : (typeFirstPart.within [] [10] (ascii "--")).length ≤ maxSize := by decide +kernel
  have hannounced : typeFirstPart.Announced := by
    refine ⟨fun line hline => headerLine_typeLastPart line ?_,?_,?_⟩
    · exact List.mem_pair.mpr (List.mem_pair.mp hline).symm
    · exact List.mem_pair.mpr (Or.inl (by decide))
    · exact ⟨ascii "form-data; name=\"photo\"; ",List.mem_pair.mpr (Or.inr (by decide +kernel))⟩
  refine ⟨hannounced,hsize,fun hrecords => ?_⟩
  obtain ⟨-,blank,hblank,hstart⟩ := RecordsPhoto.counted hannounced (Or.inr rfl) hsize hrecords
  have hfound : find? (typeFirstPart.within [] [10] (ascii "--")) blankLine 0=some 84 := by decide +kernel
  have hcounted : photoStart (typeFirstPart.within [] [10] (ascii "--")) 0=28 := by decide +kernel
  cases Option.some.inj (hfound.symm.trans hblank)
  cases hcounted.symm.trans hstart

end main

end Photogram.AuthPhotoRange
