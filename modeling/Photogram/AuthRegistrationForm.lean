import Photogram.AuthPhotoForm

/-!
# Parts of a registration form

A form of text fields, the password last, and one photo. The loop enters the
first part behind its delimiter line and looks for the next delimiter one
delimiter length further on; every later part it enters one byte earlier,
with the search starting behind the delimiter. Only the first part can be
jumped over, and it is when it is shorter than the delimiter.
-/

namespace Photogram.AuthRegistrationForm

open CxxString QueryString AuthRequest AuthFormData AuthFormParts FormDataRoundTrip
open AuthFormEncoding AuthParserSafety AuthPhotoForm AuthReceive
open FormDataParser (FormPart delimiter encodeForm lineEnd)

/-- Starts and ends of the visits of parts from a delimiter on. A visit may
start some bytes early, at the end of the delimiter line; it ends at the next
delimiter. -/
def partSpans (boundary : Bytes) : ℕ → ℕ → List FormPart → List (ℕ×ℕ)
  | _,_,[] => []
  | position,early,part::parts =>
    let start := position+(delimiter boundary).length+2
    (start-early,start+part.encode.length)::
      partSpans boundary (start+part.encode.length) 1 parts

section delimiters

variable {boundary : Bytes}

/-- No delimiter of a boundary starts inside the closing one. -/
theorem find?_closing (hne : boundary≠[]) (hreturn : (13 : UInt8) ∉ boundary) {closing : Bytes}
    (hclosing : closing=[] ∨ closing=lineEnd) :
    find? (ascii "--"++closing) (delimiter boundary) 0=none := by
  refine find?_zero_eq_none_iff.mpr fun hin => ?_
  obtain ⟨p,hocc⟩ := exists_occurs_of_isInfix hin
  obtain ⟨first,rest,rfl⟩ := List.exists_cons_of_ne_nil hne
  have hend := hocc.end_le
  have hlong : (delimiter (first::rest)).length=rest.length+3 := by
    rw [delimiter_length,List.length_cons]
  rcases hclosing with rfl|rfl
  · change _ ≤ 2 at hend
    omega
  · -- the second dash stands in front of the line end, so the boundary begins with it
    change _ ≤ 4 at hend
    obtain ⟨after,hafter⟩ := hocc.2
    have hp : p=0 ∨ p=1 := by omega
    rcases hp with rfl|rfl
    · exact hreturn ((List.cons.inj (List.cons.inj (List.cons.inj hafter).2).2).1 ▸
        List.mem_cons_self)
    · exact absurd (List.cons.inj (List.cons.inj hafter).2).1 (by decide)

/-- A line end in front of what is searched is skipped. -/
theorem find?_behind_lineEnd (s : Bytes) : find? (lineEnd++s) (delimiter boundary) 0=
    (find? s (delimiter boundary) 0).map (2+·) := find?_skip rfl (by decide) s

/-- What is found from behind a delimiter on: the delimiter behind the part. -/
theorem find?_behindDelimiter (closing : Bytes) {part : FormPart}
    (hheaders : ¬delimiter boundary<:+:part.headers) (hvalue : ¬delimiter boundary<:+:part.value)
    (hreturn : (13 : UInt8) ∉ boundary) (hfeed : (10 : UInt8) ∉ boundary) (before : Bytes)
    (parts : List FormPart) :
    find? (before++encodeForm boundary closing (part::parts)) (delimiter boundary)
        (before.length+(delimiter boundary).length)=
      some (before.length+(delimiter boundary).length+2+part.encode.length) := by
  obtain ⟨rest,hrest⟩ := encodeForm_delimiter boundary closing parts
  have hsplit : before++encodeForm boundary closing (part::parts)=
      (before++delimiter boundary)++(lineEnd++(part.encode++(delimiter boundary++rest))) := by
    conv_lhs => unfold encodeForm
    rw [hrest]
    simp only [List.append_assoc]
  have hshift := find?_append_right (before++delimiter boundary)
    (lineEnd++(part.encode++(delimiter boundary++rest))) (delimiter boundary) 0
  rw [find?_behind_lineEnd,find?_delimiter hheaders hvalue hreturn hfeed,Nat.add_zero,
    List.length_append,←hsplit] at hshift
  rw [hshift]
  simp only [Option.map_some,Option.some.injEq]
  omega

/-- Behind the closing delimiter no delimiter is found. -/
theorem find?_behindClosing (hne : boundary≠[]) (hreturn : (13 : UInt8) ∉ boundary) {closing : Bytes}
    (hclosing : closing=[] ∨ closing=lineEnd) (before : Bytes) :
    find? (before++encodeForm boundary closing []) (delimiter boundary)
      (before.length+(delimiter boundary).length)=none := by
  have hsplit : before++encodeForm boundary closing []=
      (before++delimiter boundary)++(ascii "--"++closing) := by
    unfold encodeForm
    simp only [List.append_assoc]
  have hshift := find?_append_right (before++delimiter boundary) (ascii "--"++closing)
    (delimiter boundary) 0
  rw [find?_closing hne hreturn hclosing,Nat.add_zero,List.length_append,←hsplit] at hshift
  exact hshift

/-- Parts whose header lines and values hold no delimiter. -/
def Free (boundary : Bytes) (parts : List FormPart) : Prop :=
  ∀ part ∈ parts,¬delimiter boundary<:+:part.headers ∧ ¬delimiter boundary<:+:part.value

/-- From a delimiter on, the loop visits every part behind it, up to the next
delimiter each. -/
theorem partsFrom_form {closing : Bytes} (hne : boundary≠[])
    (hreturn : (13 : UInt8) ∉ boundary) (hfeed : (10 : UInt8) ∉ boundary)
    (hclosing : closing=[] ∨ closing=lineEnd) (parts : List FormPart) (hfree : Free boundary parts)
    (before : Bytes) (fuel : ℕ)
    (hs : (before++encodeForm boundary closing parts).length ≤ maxSize) :
    partsFrom (before++encodeForm boundary closing parts) (delimiter boundary) (parts.length+1+fuel)
        (before.length+(delimiter boundary).length+1) before.length=
      partSpans boundary before.length 1 parts := by
  have hm : maxSize+2<sizeModulus := by decide
  induction parts generalizing before with
  | nil =>
    have hnone := find?_behindClosing hne hreturn hclosing before
    have hroom : before.length+(delimiter boundary).length ≤
        (before++encodeForm boundary closing []).length := by
      unfold encodeForm
      simp only [List.length_append]
      omega
    have hfuel : ([] : List FormPart).length+1+fuel=fuel+1 := by
      rw [List.length_nil]
      omega
    rw [hfuel,partsFrom,addSize_eq (by omega),hnone]
    rfl
  | cons part parts ih =>
    obtain ⟨hheaders,hvalue⟩ := hfree part List.mem_cons_self
    have hnext := find?_behindDelimiter closing hheaders hvalue hreturn hfeed before parts
    have hend := (find?_bounds hnext).2
    have hsplit := encodeForm_behind before boundary closing part parts
    have hlen := behindPart_length before boundary part
    have hrest := ih (fun p hp => hfree p (List.mem_cons_of_mem _ hp))
      (before++delimiter boundary++lineEnd++part.encode) (by rw [←hsplit]; exact hs)
    rw [←hsplit,hlen] at hrest
    have hfuel : (part::parts).length+1+fuel=parts.length+1+fuel+1 := by
      rw [List.length_cons]
      omega
    rw [hfuel,partsFrom,addSize_eq (by omega),hnext]
    dsimp only
    rw [nextStart_eq _ _ (by omega) (by omega),hrest]
    rfl

/-- From the first delimiter on, the loop visits every part exactly when the
first one is not shorter than the delimiter. -/
theorem visitedParts_form {head closing : Bytes} (hne : boundary≠[])
    (hreturn : (13 : UInt8) ∉ boundary) (hfeed : (10 : UInt8) ∉ boundary)
    (hclosing : closing=[] ∨ closing=lineEnd) {part : FormPart} {parts : List FormPart}
    (hfree : Free boundary (part::parts))
    (hfirst : find? (head++encodeForm boundary closing (part::parts)) (delimiter boundary) 0=
      some head.length)
    (hs : (head++encodeForm boundary closing (part::parts)).length ≤ maxSize) :
    visitedParts (head++encodeForm boundary closing (part::parts)) (delimiter boundary)=
        partSpans boundary head.length 0 (part::parts) ↔
      (delimiter boundary).length ≤ part.encode.length := by
  have hm : 2*maxSize+2=sizeModulus := by decide
  obtain ⟨hheaders,hvalue⟩ := hfree part List.mem_cons_self
  have hnext := find?_behindDelimiter closing hheaders hvalue hreturn hfeed head parts
  have hend := (find?_bounds hnext).2
  have hstart := firstStart_eq hs hfirst
  unfold visitedParts
  rw [hstart,partsFrom,addSize_eq (by omega)]
  constructor
  · intro heq
    by_contra hshort
    cases hfound : find? (head++encodeForm boundary closing (part::parts)) (delimiter boundary)
        (head.length+(delimiter boundary).length+2+(delimiter boundary).length) with
    | none =>
      rw [hfound] at heq
      cases heq
    | some finish =>
      have hbehind := (find?_bounds hfound).1
      rw [hfound] at heq
      have hfinish := congrArg Prod.snd (List.cons.inj heq).1
      dsimp only at hfinish
      omega
  · intro hlong
    have hfound : find? (head++encodeForm boundary closing (part::parts)) (delimiter boundary)
        (head.length+(delimiter boundary).length+2+(delimiter boundary).length)=
          some (head.length+(delimiter boundary).length+2+part.encode.length) :=
      find?_from hnext (by omega) (by omega)
    have hsplit := encodeForm_behind head boundary closing part parts
    have hlen := behindPart_length head boundary part
    have hcount := length_le_encodeForm boundary closing (part::parts)
    rw [List.length_cons] at hcount
    obtain ⟨extra,hextra⟩ := Nat.exists_eq_add_of_le
      (show parts.length+1 ≤ (head++encodeForm boundary closing (part::parts)).length by
        rw [List.length_append]
        omega)
    have hrest := partsFrom_form hne hreturn hfeed hclosing parts
      (fun p hp => hfree p (List.mem_cons_of_mem _ hp))
      (head++delimiter boundary++lineEnd++part.encode) extra (by rw [←hsplit]; exact hs)
    rw [←hsplit,hlen,←hextra] at hrest
    rw [hfound]
    dsimp only
    rw [nextStart_eq _ _ (by omega) (by omega),hrest]
    rfl

end delimiters

/-- Parts of a registration: the text fields in order, then the photo. -/
def formParts (fields : List TextField) (photo : Photo) : List FormPart :=
  fields.map TextField.part++[photo.part]

/-- A part is named password. -/
def isPassword (part : FormPart) : Bool := part.name=passwordName

/-- Parts up to the first one named password. -/
def storedTexts : List FormPart → List FormPart
  | [] => []
  | part::parts => if isPassword part then [part] else part::storedTexts parts

/-- Parts behind the first one named password. -/
def behindPassword : List FormPart → List FormPart
  | [] => []
  | part::parts => if isPassword part then parts else behindPassword parts

/-- Store the first lines of parts in order. -/
def storeTexts (parts : List FormPart) (properties : PropertyMap) : PropertyMap :=
  parts.foldl (fun properties part => properties.insert part.name (firstLine part.value)) properties

/-- Store text fields in order. -/
def storeFields (fields : List TextField) (properties : PropertyMap) : PropertyMap :=
  fields.foldl (fun properties field => properties.insert field.name field.value) properties

section stores

/-- Storing fields does not change a key that none of them has. -/
theorem storeFields_other {key : Bytes} (fields : List TextField) (properties : PropertyMap)
    (hkey : key ∉ fields.map TextField.name) :
    (storeFields fields properties)[key]?=properties[key]? := by
  induction fields generalizing properties with
  | nil => rfl
  | cons field fields ih =>
    rw [List.map_cons,List.mem_cons,not_or] at hkey
    refine (ih (properties.insert field.name field.value) hkey.2).trans ?_
    rw [getElem?_insert,if_neg fun heq => hkey.1 heq.symm]

/-- Of fields with distinct names every one is stored. -/
theorem storeFields_field {field : TextField} (fields : List TextField) (properties : PropertyMap)
    (hdistinct : (fields.map TextField.name).Nodup) (hfield : field ∈ fields) :
    (storeFields fields properties)[field.name]?=some field.value := by
  induction fields generalizing properties with
  | nil => cases hfield
  | cons first fields ih =>
    rw [List.map_cons,List.nodup_cons] at hdistinct
    rcases List.mem_cons.mp hfield with rfl|hfield
    · exact (storeFields_other fields _ hdistinct.1).trans Std.ExtTreeMap.getElem?_insert_self
    · exact ih (properties.insert first.name first.value) hdistinct.2 hfield

/-- Text fields of one line are stored with their values. -/
theorem storeTexts_fields {fields : List TextField} (h : ∀ field ∈ fields,¬crlf<:+:field.value)
    (properties : PropertyMap) :
    storeTexts (fields.map TextField.part) properties=storeFields fields properties := by
  induction fields generalizing properties with
  | nil => rfl
  | cons field fields ih =>
    have hline : firstLine field.value=field.value :=
      firstLine_eq_iff.mpr (h field List.mem_cons_self)
    have hrest := ih (fun other hother => h other (List.mem_cons_of_mem _ hother))
      (properties.insert field.name field.value)
    conv_lhs at hrest => rw [←hline]
    exact hrest

/-- Storing the type of the photo behind the fields changes at most a field
under the key of the type. -/
theorem stored_fields_iff {fields : List TextField} (hdistinct : (fields.map TextField.name).Nodup)
    (type : Bytes) :
    (∀ field ∈ fields,
        ((storeFields fields ∅).insert photoTypeKey type)[field.name]?=some field.value) ↔
      ∀ field ∈ fields,field.name=photoTypeKey → field.value=type := by
  refine forall_congr' fun field => forall_congr' fun hfield => ?_
  rw [getElem?_insert,storeFields_field fields ∅ hdistinct hfield]
  by_cases hkey : field.name=photoTypeKey
  · rw [if_pos hkey.symm,Option.some.injEq]
    exact ⟨fun h _ => h.symm,fun h => (h hkey).symm⟩
  · rw [if_neg fun heq => hkey heq.symm]
    exact ⟨fun _ h => absurd h hkey,fun _ => rfl⟩

/-- The parts up to a password and those behind it are all parts. -/
theorem storedTexts_append (texts : List FormPart) :
    storedTexts texts++behindPassword texts=texts := by
  induction texts with
  | nil => rfl
  | cons part parts ih =>
    unfold storedTexts behindPassword
    split
    · rfl
    · rw [List.cons_append,ih]

/-- Parts that are no password do not matter to what stands behind the first one. -/
theorem behindPassword_append {others : List FormPart}
    (h : ∀ part ∈ others,isPassword part=false) (parts : List FormPart) :
    behindPassword (others++parts)=behindPassword parts := by
  induction others with
  | nil => rfl
  | cons part others ih =>
    rw [List.cons_append,behindPassword,if_neg (by rw [h part List.mem_cons_self]; decide)]
    exact ih fun other hother => h other (List.mem_cons_of_mem _ hother)

/-- Without a password every part is stored. -/
theorem behindPassword_nil {texts : List FormPart} (h : ¬texts.any isPassword) :
    behindPassword texts=[] := by
  induction texts with
  | nil => rfl
  | cons part parts ih =>
    rw [List.any_cons,Bool.or_eq_true,not_or] at h
    unfold behindPassword
    rw [if_neg h.1]
    exact ih h.2

end stores

section contents

variable {boundary closing : Bytes} {photo : Photo}

/-- Where the visit of a part starts: at the part or at the line feed in front of it. -/
theorem visit_split (before boundary closing : Bytes) (part : FormPart) (parts : List FormPart)
    {early : ℕ} (hearly : early ≤ 1) :
    ∃ left lead,Lead lead ∧
      before++encodeForm boundary closing (part::parts)=
        left++(lead++(part.encode++encodeForm boundary closing parts)) ∧
      left.length+lead.length=before.length+(delimiter boundary).length+2 ∧
      left.length=before.length+(delimiter boundary).length+2-early := by
  have hsplit := encodeForm_split before boundary closing part parts
  have hlen := delimiterLine_length before boundary
  rcases Nat.le_one_iff_eq_zero_or_eq_one.mp hearly with rfl|rfl
  · exact ⟨before++(delimiter boundary++lineEnd),[],Or.inl rfl,hsplit,hlen,hlen⟩
  · refine ⟨before++(delimiter boundary++[13]),[10],Or.inr rfl,?_,?_,?_⟩
    · rw [hsplit]
      have hline : lineEnd=[13]++[10] := rfl
      rw [hline]
      simp only [List.append_assoc,List.nil_append]
    · simp only [List.length_append,List.length_singleton]
      omega
    · simp only [List.length_append,List.length_singleton]
      omega

/-- The visit of a part as a text stores its first line and goes on with the parts behind it. -/
theorem visitParts_shown {part : FormPart} (h : Legible part) (before : Bytes)
    (parts : List FormPart) {early : ℕ} (hearly : early ≤ 1)
    (hs : (before++encodeForm boundary closing (part::parts)).length ≤ maxSize)
    (state : FormState) :
    visitParts .lenient (before++encodeForm boundary closing (part::parts))
        (partSpans boundary before.length early (part::parts)) false state=
      visitParts .lenient (before++encodeForm boundary closing (part::parts))
        (partSpans boundary (before.length+(delimiter boundary).length+2+part.encode.length) 1 parts)
        (shownName part=passwordName)
        {state with userProperties :=
          state.userProperties.insert (shownName part) (firstLine part.value)} := by
  have hm : maxSize<sizeModulus := by decide
  obtain ⟨left,lead,hlead,hsplit,hlen,hleft⟩ := visit_split before boundary closing part parts hearly
  have hencode := encode_length part
  have hheaders := headers_length part
  have hroom : left.length+lead.length+part.encode.length ≤ maxSize := by
    rw [hsplit] at hs
    simp only [List.length_append] at hs
    omega
  have hlong : 14<subSize (before.length+(delimiter boundary).length+2+part.encode.length)
      left.length := by
    rw [subSize_eq (by omega) (by omega)]
    omega
  rw [hsplit] at hs ⊢
  have hvisit := visitPart_shown h hlead hs hlong state
  rw [partSpans,visitParts]
  dsimp only
  rw [←hleft,hvisit]
  rfl

/-- The visits up to the first password store the first lines of its parts,
and go on at the parts behind it. -/
theorem visitParts_texts (texts : List FormPart) (hlegible : ∀ part ∈ texts,Legible part)
    (hplain : ∀ part ∈ texts,part.filename=none) (before : Bytes) {early : ℕ} (hearly : early ≤ 1)
    (hs : (before++encodeForm boundary closing (texts++[photo.part])).length ≤ maxSize)
    (state : FormState) :
    ∃ after later,later ≤ 1 ∧
      before++encodeForm boundary closing (texts++[photo.part])=
        after++encodeForm boundary closing (behindPassword texts++[photo.part]) ∧
      visitParts .lenient (before++encodeForm boundary closing (texts++[photo.part]))
          (partSpans boundary before.length early (texts++[photo.part])) false state=
        visitParts .lenient (before++encodeForm boundary closing (texts++[photo.part]))
          (partSpans boundary after.length later (behindPassword texts++[photo.part]))
          (texts.any isPassword)
          {state with userProperties := storeTexts (storedTexts texts) state.userProperties} := by
  induction texts generalizing before early state with
  | nil => exact ⟨before,early,hearly,rfl,rfl⟩
  | cons part parts ih =>
    have hlegiblePart := hlegible part List.mem_cons_self
    have hname : shownName part=part.name := by
      unfold shownName
      rw [hplain part List.mem_cons_self]
    have hvisit := visitParts_shown hlegiblePart before (parts++[photo.part]) hearly hs state
    rw [hname] at hvisit
    have hsplit := encodeForm_behind before boundary closing part (parts++[photo.part])
    have hlen := behindPart_length before boundary part
    by_cases hpassword : isPassword part
    · refine ⟨before++delimiter boundary++lineEnd++part.encode,1,le_rfl,?_,?_⟩
      · rw [behindPassword,if_pos hpassword]
        exact hsplit
      · rw [behindPassword,if_pos hpassword,storedTexts,if_pos hpassword,List.any_cons,hpassword,
          Bool.true_or,hlen]
        refine hvisit.trans ?_
        rw [decide_eq_true (of_decide_eq_true hpassword)]
        rfl
    · obtain ⟨after,later,hlater,hrest,hrun⟩ := ih
        (fun p hp => hlegible p (List.mem_cons_of_mem _ hp))
        (fun p hp => hplain p (List.mem_cons_of_mem _ hp))
        (before++delimiter boundary++lineEnd++part.encode) le_rfl (by rw [←hsplit]; exact hs)
        {state with userProperties := state.userProperties.insert part.name (firstLine part.value)}
      rw [←hsplit] at hrest hrun
      rw [hlen] at hrun
      refine ⟨after,later,hlater,?_,?_⟩
      · rw [behindPassword,if_neg hpassword]
        exact hrest
      · rw [behindPassword,if_neg hpassword,storedTexts,if_neg hpassword,List.any_cons,
          Bool.eq_false_iff.mpr hpassword,Bool.false_or]
        refine hvisit.trans ?_
        rw [decide_eq_false fun heq => hpassword (decide_eq_true heq)]
        exact hrun

/-- The visit of a last photo is what remains. -/
theorem visitParts_lastPhoto (request : Bytes) (start finish : ℕ) (state : FormState) :
    (visitPart .lenient request start finish true state>>=fun visited =>
      visitParts .lenient request [] visited.1 visited.2)=
        addPhoto .lenient request start finish state := by
  unfold visitPart
  rw [if_pos rfl]
  cases addPhoto .lenient request start finish state with
  | error failure => rfl
  | ok form => rfl

/-- The visits of text fields with the password last store them all and end
with the visit of the photo. -/
theorem visitParts_form {password : TextField} (hpassword : password.name=passwordName)
    (photo : Photo) (others : List TextField) (before : Bytes) {early : ℕ} (hearly : early ≤ 1)
    (hnames : ∀ field ∈ others++[password],Inline field.name)
    (hvalues : ∀ field ∈ others++[password],¬crlf<:+:field.value)
    (hothers : ∀ field ∈ others,field.name≠passwordName)
    (hs : (before++encodeForm boundary closing (formParts (others++[password]) photo)).length ≤ maxSize)
    (state : FormState) :
    ∃ left lead,Lead lead ∧
      before++encodeForm boundary closing (formParts (others++[password]) photo)=
        left++(lead++(photo.part.encode++encodeForm boundary closing [])) ∧
      visitParts .lenient (before++encodeForm boundary closing (formParts (others++[password]) photo))
          (partSpans boundary before.length early (formParts (others++[password]) photo)) false state=
        addPhoto .lenient
          (before++encodeForm boundary closing (formParts (others++[password]) photo))
          left.length (left.length+lead.length+photo.part.encode.length)
          {state with userProperties := storeFields (others++[password]) state.userProperties} := by
  have hlegible : ∀ part ∈ (others++[password]).map TextField.part,Legible part := by
    intro part hmem
    obtain ⟨field,hfield,rfl⟩ := List.mem_map.mp hmem
    exact ⟨hnames field hfield,nofun,nofun⟩
  have hplain : ∀ part ∈ (others++[password]).map TextField.part,part.filename=none := by
    intro part hmem
    obtain ⟨field,_,rfl⟩ := List.mem_map.mp hmem
    rfl
  have hopens : isPassword password.part=true := decide_eq_true hpassword
  have hclosed : ∀ part ∈ others.map TextField.part,isPassword part=false := by
    intro part hmem
    obtain ⟨field,hfield,rfl⟩ := List.mem_map.mp hmem
    exact decide_eq_false (hothers field hfield)
  have hany : ((others++[password]).map TextField.part).any isPassword=true :=
    List.any_eq_true.mpr ⟨password.part,
      List.mem_map_of_mem (List.mem_append_right _ (List.mem_singleton_self password)),hopens⟩
  have hbehind : behindPassword ((others++[password]).map TextField.part)=[] := by
    rw [List.map_append,behindPassword_append hclosed,List.map_singleton,behindPassword,
      if_pos hopens]
  have hstored := storedTexts_append ((others++[password]).map TextField.part)
  rw [hbehind,List.append_nil] at hstored
  obtain ⟨after,later,hlater,hsplit,hrun⟩ := visitParts_texts _ hlegible hplain before hearly hs state
  obtain ⟨left,lead,hlead,hright,hstart,hleft⟩ :=
    visit_split after boundary closing photo.part [] hlater
  rw [hbehind] at hsplit hrun
  refine ⟨left,lead,hlead,hsplit.trans hright,hrun.trans ?_⟩
  rw [hany,hstored,storeTexts_fields hvalues]
  change visitParts .lenient _ (partSpans boundary after.length later [photo.part]) true _=_
  rw [partSpans,visitParts,←hleft,←hstart]
  exact visitParts_lastPhoto _ _ _ _

end contents

section separators

variable {head boundary closing separator : Bytes} {part : FormPart} {parts : List FormPart}

/-- A separator does not start in front of the end of the header block and end behind it. -/
theorem separator_not_across {rest : Bytes} {p : ℕ} (hhead : EndsAtBlankLine head)
    (hseparator : SeparatorIs (head++rest) separator) (hocc : Occurs separator (head++rest) p)
    (hend : head.length ≤ p+separator.length) : head.length ≤ p := by
  obtain ⟨m,_,hline⟩ := hseparator
  obtain ⟨before,rfl⟩ := endsAtBlankLine_split hhead
  have hlen : (before++blankLine).length=before.length+4 := List.length_append
  have hsplit : before++blankLine++rest=(before++crlf)++(crlf++rest) := by
    have hline : blankLine=crlf++crlf := by decide
    rw [hline]
    simp only [List.append_assoc]
  by_contra hbefore
  by_cases hinside : p ≤ before.length+2
  · have hcrlf : Occurs crlf (before++blankLine++rest) (before.length+2) := by
      have hbehind := occurs_behind (before++crlf) crlf rest
      rw [←hsplit,List.length_append] at hbehind
      exact hbehind
    obtain ⟨d,hd⟩ := Nat.exists_eq_add_of_le hinside
    obtain ⟨after,hafter⟩ := hocc.2
    rw [hd,←occurs_drop hocc.1,←hafter,occurs_append_left (by
      have htwo : crlf.length=2 := rfl
      omega),hline] at hcrlf
    exact cutAt_free (by decide) (Nat.le_add_right m 9)
      (isInfix_behind_head (by decide) hcrlf.isInfix)
  · have hp : p=(before++crlf++[13]).length := by
      simp only [List.length_append,List.length_singleton]
      have htwo : crlf.length=2 := rfl
      omega
    have hfeed : before++blankLine++rest=(before++crlf++[13])++10::rest := by
      have hline : blankLine=crlf++([13]++[10]) := by decide
      rw [hline]
      simp only [List.append_assoc,List.cons_append,List.nil_append]
    rw [hline] at hocc
    have hdash : (before++blankLine++rest)[p]?=some 45 := hocc.head
    rw [hfeed,hp,List.getElem?_append_right (le_refl _),Nat.sub_self] at hdash
    exact absurd hdash (by simp)

/-- A separator that stands where the form has its delimiters: the first start
and the first end of the visits decide it. -/
theorem separator_of_visits (hhead : EndsAtBlankLine head)
    (hs : (head++encodeForm boundary closing (part::parts)).length ≤ maxSize)
    (hseparator : SeparatorIs (head++encodeForm boundary closing (part::parts)) separator)
    (hvisits : visitedParts (head++encodeForm boundary closing (part::parts)) separator=
      partSpans boundary head.length 0 (part::parts)) :
    separator=delimiter boundary ∧
      find? (head++encodeForm boundary closing (part::parts)) (delimiter boundary) 0=
        some head.length := by
  -- the delimiter stands at the first and at the second cut of the form
  have hbehind : Occurs (delimiter boundary) (head++encodeForm boundary closing (part::parts))
      (head.length+(delimiter boundary).length+2+part.encode.length) := by
    obtain ⟨rest,hrest⟩ := encodeForm_delimiter boundary closing parts
    rw [encodeForm_behind,hrest,←behindPart_length]
    exact occurs_behind _ _ _
  have hfront : Occurs (delimiter boundary) (head++encodeForm boundary closing (part::parts))
      head.length := by
    obtain ⟨rest,hrest⟩ := encodeForm_delimiter boundary closing (part::parts)
    rw [hrest]
    exact occurs_behind _ _ _
  -- so does the separator at the second cut, and its first match ends with the first delimiter
  unfold visitedParts at hvisits
  rw [partsFrom] at hvisits
  cases hfound : find? (head++encodeForm boundary closing (part::parts)) separator
      (addSize (firstStart (head++encodeForm boundary closing (part::parts)) separator)
        separator.length) with
  | none =>
    rw [hfound] at hvisits
    cases hvisits
  | some finish =>
    rw [hfound] at hvisits
    have hspan := (List.cons.inj hvisits).1
    have hstart := congrArg Prod.fst hspan
    have hfinish := congrArg Prod.snd hspan
    dsimp only at hstart hfinish
    have hocc := (find?_eq_some_iff.mp hfound).2.1
    rw [hfinish] at hocc
    obtain ⟨p,hfirst⟩ := Option.isSome_iff_exists.mp (find?_zero_isSome_iff.mpr hocc.isInfix)
    rw [firstStart_eq hs hfirst] at hstart
    obtain ⟨_,hp,hleast⟩ := find?_eq_some_iff.mp hfirst
    have hacross := separator_not_across hhead hseparator hp (by omega)
    have hstarts : separator<+:delimiter boundary :=
      List.prefix_of_prefix_length_le hocc.2 hbehind.2 (by omega)
    have hle : p ≤ head.length := Nat.le_of_not_lt fun hlt =>
      hleast head.length (Nat.zero_le _) hlt ⟨hfront.1,hstarts.trans hfront.2⟩
    have heq : separator=delimiter boundary := hstarts.eq_of_length (by omega)
    have hposition : p=head.length := Nat.le_antisymm hle hacross
    exact ⟨heq,by rw [←heq,hfirst,hposition]⟩

/-- A line end stands in front of the closing delimiter. -/
theorem encodeForm_lineEnd (boundary closing : Bytes) (part : FormPart) (parts : List FormPart) :
    ∃ before,encodeForm boundary closing (part::parts)=
      before++(lineEnd++encodeForm boundary closing []) := by
  induction parts generalizing part with
  | nil =>
    refine ⟨delimiter boundary++lineEnd++(part.headers++FormDataParser.headersEnd++part.value),?_⟩
    conv_lhs => unfold encodeForm FormPart.encode
    simp only [List.append_assoc]
  | cons other parts ih =>
    obtain ⟨before,hbefore⟩ := ih other
    refine ⟨delimiter boundary++lineEnd++part.encode++before,?_⟩
    conv_lhs => unfold encodeForm
    rw [hbefore]
    simp only [List.append_assoc]

/-- Behind a place that far from the end of a form there is a line end. -/
theorem find?_crlf_form {p : ℕ} (hclosing : closing=[] ∨ closing=lineEnd)
    (hp : p+9+boundary.length=(head++encodeForm boundary closing (part::parts)).length) :
    ∃ stop,find? (head++encodeForm boundary closing (part::parts)) crlf p=some stop := by
  have hocc : ∃ q,p ≤ q ∧ Occurs crlf (head++encodeForm boundary closing (part::parts)) q := by
    obtain ⟨before,hbefore⟩ := encodeForm_lineEnd boundary closing part parts
    rw [hbefore,←List.append_assoc] at hp ⊢
    have htwo : lineEnd.length=2 := rfl
    have hdelimiter := delimiter_length boundary
    rcases hclosing with rfl|rfl
    · refine ⟨(head++before).length,?_,occurs_behind _ _ _⟩
      unfold encodeForm at hp
      simp only [List.length_append,List.length_nil] at hp ⊢
      have hdashes : (ascii "--").length=2 := rfl
      omega
    · have hsplit : head++before++(lineEnd++encodeForm boundary lineEnd [])=
          (head++before++lineEnd++delimiter boundary++ascii "--")++(crlf++[]) := by
        unfold encodeForm
        simp only [List.append_assoc,List.append_nil]
        rfl
      rw [hsplit] at hp ⊢
      refine ⟨_,?_,occurs_behind _ _ _⟩
      rw [List.length_append] at hp
      have hcrlf : (crlf++[] : Bytes).length=2 := rfl
      omega
  obtain ⟨q,hq,hcrlf⟩ := hocc
  obtain ⟨stop,hstop,_⟩ := exists_find?_le hcrlf hq
  exact ⟨stop,hstop⟩

/-- The delimiter is the separator only when the first boundary literal is the form's. -/
theorem shows_of_separator (hclosing : closing=[] ∨ closing=lineEnd)
    (hseparator : SeparatorIs (head++encodeForm boundary closing (part::parts)) (delimiter boundary)) :
    FirstBegins (head++encodeForm boundary closing (part::parts)) boundaryLiteral
      (boundaryLine boundary++crlf) := by
  obtain ⟨p,hfirst,hline⟩ := hseparator
  have hvalue : lineFrom (head++encodeForm boundary closing (part::parts)) p (p+9)=boundary :=
    (List.append_cancel_left hline).symm
  obtain ⟨tail,htail⟩ := (find?_eq_some_iff.mp hfirst).2.1.2
  have hinside : p+10 ≤ (head++encodeForm boundary closing (part::parts)).length :=
    (find?_bounds hfirst).2
  have hnine : (head++encodeForm boundary closing (part::parts)).drop p=
      ascii "boundary="++(head++encodeForm boundary closing (part::parts)).drop (p+9) := by
    rw [←List.drop_drop,←htail]
    rfl
  unfold lineFrom cutAt at hvalue
  obtain ⟨stop,hstop⟩ :
      ∃ stop,find? (head++encodeForm boundary closing (part::parts)) crlf p=some stop := by
    cases hfound : find? (head++encodeForm boundary closing (part::parts)) crlf p with
    | some stop => exact ⟨stop,rfl⟩
    | none =>
      rw [hfound] at hvalue
      have hcount := congrArg List.length hvalue
      rw [List.length_drop] at hcount
      have hend : p+9+boundary.length=(head++encodeForm boundary closing (part::parts)).length := by
        omega
      obtain ⟨stop,hstop⟩ := find?_crlf_form hclosing hend
      exact absurd (hfound.symm.trans hstop) (by simp)
  rw [hstop] at hvalue
  dsimp only at hvalue
  have hten : p+10 ≤ stop := le_find?_crlf (find?_eq_some_iff.mp hfirst).2.1 (by decide) hstop
  have hboundary : (head++encodeForm boundary closing (part::parts)).drop (p+9)=
      boundary++(head++encodeForm boundary closing (part::parts)).drop stop := by
    have hcut := List.take_append_drop (stop-(p+9))
      ((head++encodeForm boundary closing (part::parts)).drop (p+9))
    rw [hvalue,List.drop_drop,Nat.add_sub_cancel' (by omega)] at hcut
    exact hcut.symm
  obtain ⟨last,hlast⟩ := (find?_eq_some_iff.mp hstop).2.1.2
  refine ⟨p,hfirst,last,?_⟩
  rw [hnine,hboundary,←hlast]
  unfold boundaryLine
  simp only [List.append_assoc]

/-- A text that holds the delimiter does not have it behind its end first. -/
theorem free_of_first {rest needle : Bytes} (h : find? (head++rest) needle 0=some head.length)
    (hne : needle≠[]) : ¬needle<:+:head := by
  intro hin
  obtain ⟨q,hq⟩ := exists_occurs_of_isInfix hin
  have hend := hq.end_le
  have hlen := List.length_pos_iff.mpr hne
  exact (find?_eq_some_iff.mp h).2.2 q (Nat.zero_le _) (by omega) ((occurs_append_left hend).mpr hq)

end separators

/-- A registration form behind a header block, however that announces the
boundary: distinct text fields, the password last, and one photo. -/
structure RegistrationForm (head boundary closing : Bytes) (fields : List TextField)
    (photo : Photo) : Prop where
  /-- The header block ends with its first blank line. -/
  blank : EndsAtBlankLine head
  /-- The boundary starts with a dash. -/
  dash : boundary.head?=some 45
  /-- It has a legal length. -/
  short : boundary.length ≤ 70
  /-- It has no carriage return. -/
  noReturn : (13 : UInt8) ∉ boundary
  /-- It has no line feed. -/
  noFeed : (10 : UInt8) ∉ boundary
  /-- At most a line end follows the closing delimiter. -/
  closed : closing=[] ∨ closing=lineEnd
  /-- The last text field is the password. -/
  password : ∃ others password,fields=others++[password] ∧ password.name=passwordName
  /-- No two text fields have one name. -/
  distinct : (fields.map TextField.name).Nodup
  /-- Names stay in their quotes. -/
  names : ∀ field ∈ fields,Inline field.name
  /-- Values have no line end. -/
  values : ∀ field ∈ fields,¬crlf<:+:field.value
  /-- The header lines of the photo are well formed. -/
  oneLine : photo.OneLine
  /-- No part holds the delimiter. -/
  free : Free boundary (formParts fields photo)

/-- The form is parsed without a loss: every part is visited once, between
its delimiters, every text field is held with its value and the photo can be
cut out at the coordinates held for it. -/
structure FormKept (request boundary : Bytes) (position : ℕ) (fields : List TextField)
    (photo : Photo) (separator : Bytes) (form : FormState) : Prop where
  /-- The separator that was read. -/
  separated : getSeparator request=.ok separator
  /-- The parts visited with it. -/
  visits : visitedParts request separator=partSpans boundary position 0 (formParts fields photo)
  /-- The result of the parse. -/
  parsed : AuthFormData.parse .lenient request emptyForm=.ok form
  /-- The text fields. -/
  texts : ∀ field ∈ fields,form.userProperties[field.name]?=some field.value
  /-- The photo. -/
  file : ∃ (name : Bytes) (coordinates : ℕ×ℕ),form.filesCoordinates[name]?=some coordinates ∧
    substr request coordinates.1 coordinates.2=.ok photo.bytes

/-- What a registration form needs on top of being well formed. -/
structure Undisturbed (request head boundary : Bytes) (fields : List TextField)
    (photo : Photo) : Prop where
  /-- The first boundary with a dash in the request is the form's, and ends its line. -/
  shows : FirstBegins request boundaryLiteral (boundaryLine boundary++crlf)
  /-- The header block does not hold the delimiter. -/
  headFree : ¬delimiter boundary<:+:head
  /-- The first part is not shorter than the delimiter. -/
  long : ∀ first ∈ fields.head?,boundary.length ≤ 43+first.name.length+first.value.length
  /-- A field under the key of the type has the type of the photo. -/
  typeKey : ∀ field ∈ fields,field.name=photoTypeKey → field.value=photo.type
  /-- The names of the photo do not show a content type. -/
  plain : photo.Plain

section registrations

variable {head boundary closing : Bytes} {fields : List TextField} {photo : Photo}

/-- The first part is as long as a delimiter exactly when its name and value
make up for the length of the boundary. -/
theorem first_long_iff (field : TextField) (boundary : Bytes) :
    (delimiter boundary).length ≤ field.part.encode.length ↔
      boundary.length ≤ 43+field.name.length+field.value.length := by
  have hlength := encode_length field.part
  have hheaders := text_headers_length field
  have hvalue : field.part.value=field.value := rfl
  rw [delimiter_length,hlength,hheaders,hvalue]
  omega

/-- No part is shorter than the delimiter of a short boundary. -/
theorem delimiter_le_encode {boundary : Bytes} (h : boundary.length ≤ 43) (part : FormPart) :
    (delimiter boundary).length ≤ part.encode.length := by
  have hheaders := headers_length part
  rw [delimiter_length,encode_length]
  omega

/-- The parts are visited from the first separator on. -/
theorem separatorToPropertis_visits {request separator : Bytes} (hs : request.length ≤ maxSize)
    {p : ℕ} (hfirst : find? request separator 0=some p) (state : FormState) :
    separatorToPropertis .lenient request separator state=
      visitParts .lenient request (visitedParts request separator) false state := by
  have hm := maxSize_lt_npos
  have hp := (find?_bounds hfirst).2
  unfold separatorToPropertis
  dsimp only
  rw [find_of_some hfirst,if_neg (by omega),separatorLoop_eq _ hs]
  unfold visitedParts firstStart
  rw [find_of_some hfirst]

/-- Parsing with the delimiter as separator visits the parts from the first delimiter on. -/
theorem parse_of_separator {request separator : Bytes} (hs : request.length ≤ maxSize)
    (hseparator : getSeparator request=.ok separator) {p : ℕ}
    (hfirst : find? request separator 0=some p) :
    AuthFormData.parse .lenient request emptyForm=
      visitParts .lenient request (visitedParts request separator) false emptyForm := by
  unfold AuthFormData.parse
  rw [hseparator,ok_bind]
  exact separatorToPropertis_visits hs hfirst emptyForm

/-- Parts of a registration form hold no delimiter, the first one being a text field's. -/
theorem RegistrationForm.parts (h : RegistrationForm head boundary closing fields photo) :
    ∃ first others,fields.head?=some first ∧ formParts fields photo=first.part::others := by
  obtain ⟨others,password,rfl,_⟩ := h.password
  cases others with
  | nil => exact ⟨password,_,rfl,rfl⟩
  | cons first others => exact ⟨first,_,rfl,rfl⟩

/-- Of fields with distinct names only the last one has its name. -/
theorem name_ne_last {others : List TextField} {last : TextField}
    (hdistinct : ((others++[last]).map TextField.name).Nodup) :
    ∀ field ∈ others,field.name≠last.name := by
  intro field hfield
  rw [List.map_append,List.nodup_append] at hdistinct
  exact hdistinct.2.2 field.name (List.mem_map_of_mem hfield) last.name
    (List.mem_map_of_mem (List.mem_singleton_self last))

/-- Only the last text field is named password. -/
theorem RegistrationForm.others (h : RegistrationForm head boundary closing fields photo)
    {others : List TextField} {password : TextField} (hfields : fields=others++[password])
    (hpassword : password.name=passwordName) : ∀ field ∈ others,field.name≠passwordName := by
  have hdistinct := h.distinct
  rw [hfields] at hdistinct
  rw [←hpassword]
  exact name_ne_last hdistinct

/-- When every part is visited, the parse is the visit of the photo behind
the stored text fields. -/
theorem parse_of_visits (h : RegistrationForm head boundary closing fields photo)
    (hs : (head++encodeForm boundary closing (formParts fields photo)).length ≤ maxSize)
    (hseparator : getSeparator (head++encodeForm boundary closing (formParts fields photo))=
      .ok (delimiter boundary))
    (hfirst : find? (head++encodeForm boundary closing (formParts fields photo)) (delimiter boundary)
      0=some head.length)
    (hvisits : visitedParts (head++encodeForm boundary closing (formParts fields photo))
      (delimiter boundary)=partSpans boundary head.length 0 (formParts fields photo)) :
    ∃ left lead,Lead lead ∧
      head++encodeForm boundary closing (formParts fields photo)=
        left++(lead++(photo.part.encode++encodeForm boundary closing [])) ∧
      AuthFormData.parse .lenient (head++encodeForm boundary closing (formParts fields photo))
          emptyForm=
        addPhoto .lenient (head++encodeForm boundary closing (formParts fields photo)) left.length
          (left.length+lead.length+photo.part.encode.length) ⟨storeFields fields ∅,∅⟩ := by
  obtain ⟨others,password,hfields,hpassword⟩ := h.password
  have hothers := h.others hfields hpassword
  have hnames := h.names
  have hvalues := h.values
  rw [parse_of_separator hs hseparator hfirst,hvisits]
  subst hfields
  exact visitParts_form hpassword photo others head (Nat.zero_le 1) hnames hvalues hothers hs
    emptyForm

/-- Behind the right first delimiter every part is visited exactly when the
first one is not shorter than the delimiter. -/
theorem visits_iff (h : RegistrationForm head boundary closing fields photo)
    (hs : (head++encodeForm boundary closing (formParts fields photo)).length ≤ maxSize)
    (hfirst : find? (head++encodeForm boundary closing (formParts fields photo)) (delimiter boundary)
      0=some head.length) :
    visitedParts (head++encodeForm boundary closing (formParts fields photo)) (delimiter boundary)=
        partSpans boundary head.length 0 (formParts fields photo) ↔
      ∀ first ∈ fields.head?,boundary.length ≤ 43+first.name.length+first.value.length := by
  obtain ⟨first,parts,hhead,hparts⟩ := h.parts
  have hne : boundary≠[] := fun hnil => absurd h.dash (by rw [hnil]; exact nofun)
  have hfree := h.free
  rw [hparts] at hs hfree hfirst ⊢
  rw [hhead,visitedParts_form hne h.noReturn h.noFeed h.closed hfree hfirst hs,first_long_iff]
  constructor
  · rintro hlong _ ⟨⟩
    exact hlong
  · exact fun hlong => hlong first rfl

/-- Visits of every part show that the separator is the delimiter, that the
header block shows the boundary first and that it does not hold the delimiter. -/
theorem visits_undisturbed (h : RegistrationForm head boundary closing fields photo)
    (hs : (head++encodeForm boundary closing (formParts fields photo)).length ≤ maxSize)
    {separator : Bytes}
    (hseparator : getSeparator (head++encodeForm boundary closing (formParts fields photo))=
      .ok separator)
    (hvisits : visitedParts (head++encodeForm boundary closing (formParts fields photo)) separator=
      partSpans boundary head.length 0 (formParts fields photo)) :
    separator=delimiter boundary ∧
      find? (head++encodeForm boundary closing (formParts fields photo)) (delimiter boundary) 0=
        some head.length ∧
      FirstBegins (head++encodeForm boundary closing (formParts fields photo)) boundaryLiteral
        (boundaryLine boundary++crlf) ∧
      ¬delimiter boundary<:+:head := by
  obtain ⟨first,parts,_,hparts⟩ := h.parts
  have hseparatorIs := (getSeparator_eq_iff hs separator).mp hseparator
  rw [hparts] at hs hseparatorIs hvisits ⊢
  obtain ⟨rfl,hfirst⟩ := separator_of_visits h.blank hs hseparatorIs hvisits
  exact ⟨rfl,hfirst,shows_of_separator h.closed hseparatorIs,
    free_of_first hfirst (delimiter_ne_nil boundary)⟩

/-- A photo that can be cut out at the coordinates recorded for it shows no
content type in its names. -/
theorem plain_of_cut {left lead right : Bytes} (hphoto : photo.OneLine) (hlead : Lead lead)
    (hs : (left++(lead++(photo.part.encode++right))).length ≤ maxSize) {properties : PropertyMap}
    {form : FormState}
    (hform : addPhoto .lenient (left++(lead++(photo.part.encode++right))) left.length
      (left.length+lead.length+photo.part.encode.length) ⟨properties,∅⟩=.ok form)
    {name : Bytes} {coordinates : ℕ×ℕ} (hentry : form.filesCoordinates[name]?=some coordinates)
    (hcut : substr (left++(lead++(photo.part.encode++right))) coordinates.1 coordinates.2=
      .ok photo.bytes) : photo.Plain := by
  refine (plain_iff photo).mp fun hshown => ?_
  have hstart : left.length ≤ (left++(lead++(photo.part.encode++right))).length := by
    rw [List.length_append]
    omega
  rw [addPhoto_lenient hs hstart _ _ (hasType_photo hphoto hlead 0)] at hform
  cases hform
  dsimp only at hentry
  rw [getElem?_insert,Std.ExtTreeMap.getElem?_empty] at hentry
  split at hentry
  · exact photoCoordinates_misled hphoto hlead hshown hs (Option.some.inj hentry).symm hcut
  · cases hentry

/-- A registration form is parsed without a loss exactly when nothing
disturbs the search for its delimiters and its photo, and no text field takes
the key of the photo's type. -/
theorem formKept_iff (h : RegistrationForm head boundary closing fields photo) (request : CxxText)
    (hrequest : request.bytes=head++encodeForm boundary closing (formParts fields photo)) :
    (∃ separator form,FormKept request.bytes boundary head.length fields photo separator form) ↔
      Undisturbed request.bytes head boundary fields photo := by
  have hs := request.size_le
  rw [hrequest] at hs ⊢
  constructor
  · rintro ⟨separator,form,hkept⟩
    obtain ⟨rfl,hfirst,hshows,hfree⟩ := visits_undisturbed h hs hkept.separated hkept.visits
    obtain ⟨left,lead,hlead,hsplit,hparse⟩ :=
      parse_of_visits h hs hkept.separated hfirst hkept.visits
    obtain ⟨name,coordinates,hentry,hcut⟩ := hkept.file
    have hphoto := hparse.symm.trans hkept.parsed
    have hsLeft := hs
    rw [hsplit] at hsLeft hphoto hcut
    have hplain := plain_of_cut h.oneLine hlead hsLeft hphoto hentry hcut
    have htexts := hkept.texts
    rw [addPhoto_photo h.oneLine hlead ((plain_iff photo).mpr hplain) _ _ hsLeft] at hphoto
    cases hphoto
    exact ⟨hshows,hfree,(visits_iff h hs hfirst).mp hkept.visits,
      (stored_fields_iff h.distinct photo.type).mp htexts,hplain⟩
  · intro hclear
    have hseparator := getSeparator_begins hs h.noReturn hclear.shows
    have hfirst := find?_firstDelimiter h.blank hclear.headFree h.noFeed closing
      (formParts fields photo)
    have hvisits := (visits_iff h hs hfirst).mpr hclear.long
    obtain ⟨left,lead,hlead,hsplit,hparse⟩ := parse_of_visits h hs hseparator hfirst hvisits
    have hsLeft := hs
    rw [hsplit] at hsLeft
    have hphoto := addPhoto_photo h.oneLine hlead ((plain_iff photo).mpr hclear.plain) left
      (encodeForm boundary closing []) hsLeft ⟨storeFields fields ∅,∅⟩
    rw [←hsplit] at hphoto
    refine ⟨_,_,hseparator,hvisits,hparse.trans hphoto,
      (stored_fields_iff h.distinct photo.type).mpr hclear.typeKey,_,_,
      Std.ExtTreeMap.getElem?_insert_self,?_⟩
    rw [hsplit]
    exact substr_photo photo left lead (encodeForm boundary closing [])

/-- Header block of a registration with a boundary, behind its method token. -/
def sampleHeader (boundary : Bytes) : Bytes :=
  ascii " /registration HTTP/1.1\r\n"++ascii "Content-Type: multipart/form-data; "++
    boundaryLine boundary++blankLine

/-- Two text fields with short values. -/
def sampleFields : List TextField := [⟨ascii "login",ascii "a"⟩,⟨passwordName,ascii "b"⟩]

/-- A boundary of the greatest legal length. -/
def longBoundary : Bytes := 45::List.replicate 69 120

/-- The sample fields and photo behind a boundary that does not disturb its own form. -/
theorem sampleRegistration {boundary : Bytes} (hblank : EndsAtBlankLine (sampleHeader boundary))
    (hdash : boundary.head?=some 45) (hshort : boundary.length ≤ 70)
    (hreturn : (13 : UInt8) ∉ boundary) (hfeed : (10 : UInt8) ∉ boundary)
    (hfree : Free boundary (formParts sampleFields samplePhoto)) :
    RegistrationForm (sampleHeader boundary) boundary lineEnd sampleFields samplePhoto where
  blank := hblank
  dash := hdash
  short := hshort
  noReturn := hreturn
  noFeed := hfeed
  closed := Or.inr rfl
  password := ⟨[⟨ascii "login",ascii "a"⟩],⟨passwordName,ascii "b"⟩,rfl,rfl⟩
  distinct := by decide
  names := by
    rintro field hfield
    rcases List.mem_cons.mp hfield with rfl|hlast
    · exact ⟨by decide,by decide,by decide⟩
    · cases List.mem_singleton.mp hlast
      exact ⟨by decide,by decide,by decide⟩
  values := by
    rintro field hfield
    rcases List.mem_cons.mp hfield with rfl|hlast
    · decide
    · cases List.mem_singleton.mp hlast
      decide
  oneLine := samplePhoto_oneLine
  free := hfree

/-- Parts hold no delimiter when it is found in none of their header lines and values. -/
theorem free_of_find? {boundary : Bytes} {parts : List FormPart}
    (h : (parts.all fun part => (find? part.headers (delimiter boundary) 0).isNone &&
      (find? part.value (delimiter boundary) 0).isNone)=true) : Free boundary parts := by
  intro part hpart
  have hnone := List.all_eq_true.mp h part hpart
  rw [Bool.and_eq_true,Option.isNone_iff_eq_none,Option.isNone_iff_eq_none] at hnone
  exact ⟨find?_zero_eq_none_iff.mp hnone.1,find?_zero_eq_none_iff.mp hnone.2⟩

/-- With a short boundary the sample is kept. -/
theorem sample_kept :
    ∃ separator form,FormKept (sampleHeader (ascii "--7")++
      encodeForm (ascii "--7") lineEnd (formParts sampleFields samplePhoto)) (ascii "--7")
        (sampleHeader (ascii "--7")).length sampleFields samplePhoto separator form := by
  have hform : RegistrationForm (sampleHeader (ascii "--7")) (ascii "--7") lineEnd sampleFields
      samplePhoto :=
    sampleRegistration ⟨72,by decide +kernel,by decide +kernel⟩ (by decide) (by decide) (by decide)
      (by decide) (free_of_find? (by decide +kernel))
  refine (formKept_iff hform ⟨sampleHeader (ascii "--7")++
    encodeForm (ascii "--7") lineEnd (formParts sampleFields samplePhoto),by decide +kernel⟩ rfl).mpr
      ⟨⟨60,by decide +kernel,by decide +kernel⟩,by decide +kernel,?_,?_,by decide,by decide⟩
  · rintro _ ⟨⟩
    decide
  · intro field hfield hkey
    rcases List.mem_cons.mp hfield with rfl|hlast
    · exact absurd hkey (by decide)
    · cases List.mem_singleton.mp hlast
      exact absurd hkey (by decide)

/-- With a boundary of 70 bytes the first field is shorter than the delimiter:
the parse returns, but the password is lost. -/
theorem password_lost :
    RegistrationForm (sampleHeader longBoundary) longBoundary lineEnd sampleFields samplePhoto ∧
      Returns (AuthFormData.parse .lenient (sampleHeader longBoundary++
        encodeForm longBoundary lineEnd (formParts sampleFields samplePhoto)) emptyForm) ∧
      ¬∃ separator form,FormKept (sampleHeader longBoundary++
        encodeForm longBoundary lineEnd (formParts sampleFields samplePhoto)) longBoundary
          (sampleHeader longBoundary).length sampleFields samplePhoto separator form := by
  have hlost : (match AuthFormData.parse .lenient (sampleHeader longBoundary++
      encodeForm longBoundary lineEnd (formParts sampleFields samplePhoto)) emptyForm with
    | .ok form => decide (form.userProperties[passwordName]?=none)
    | .error _ => false)=true := by decide +kernel
  cases hparse : AuthFormData.parse .lenient (sampleHeader longBoundary++
      encodeForm longBoundary lineEnd (formParts sampleFields samplePhoto)) emptyForm with
  | error failure =>
    rw [hparse] at hlost
    cases hlost
  | ok form =>
    rw [hparse] at hlost
    refine ⟨sampleRegistration ⟨139,by decide +kernel,by decide +kernel⟩ (by decide) (by decide)
      (by decide) (by decide) (free_of_find? (by decide +kernel)),returns_ok form,?_⟩
    rintro ⟨separator,kept,hkept⟩
    have hsame : form=kept := Except.ok.inj (hparse.symm.trans hkept.parsed)
    have hheld := hkept.texts ⟨passwordName,ascii "b"⟩
      (List.mem_cons_of_mem _ (List.mem_singleton_self _))
    rw [←hsame,of_decide_eq_true hlost] at hheld
    cases hheld

end registrations

end Photogram.AuthRegistrationForm
