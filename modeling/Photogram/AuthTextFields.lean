import Photogram.AuthRegistrationForm

/-!
# Values of the text parts of a form

Text parts with any values in front of one photo. A text part is stored with
the first line of its value, up to and including the first part named
password; every part behind that one is read as a photo. So a form keeps its
texts when the stored ones have one line each and parts of one name agree.
-/

namespace Photogram.AuthTextFields

open CxxString QueryString AuthRequest AuthFormData AuthFormParts FormDataRoundTrip
open AuthFormEncoding AuthPhotoForm AuthRegistrationForm
open FormDataParser (FormPart delimiter encodeForm lineEnd lastValue)

/-- A form of text parts and a photo. -/
structure TextForm (boundary closing : Bytes) (texts : List FormPart) (photo : Photo) : Prop where
  /-- The boundary is not empty. -/
  ne : boundary≠[]
  /-- It has no carriage return. -/
  noReturn : (13 : UInt8) ∉ boundary
  /-- It has no line feed. -/
  noFeed : (10 : UInt8) ∉ boundary
  /-- At most a line end follows the closing delimiter. -/
  closed : closing=[] ∨ closing=lineEnd
  /-- Names stay in their quotes and types on their lines. -/
  legible : ∀ part ∈ texts,Legible part
  /-- Text parts have no file name. -/
  plain : ∀ part ∈ texts,part.filename=none
  /-- The header lines of the photo are well formed. -/
  oneLine : photo.OneLine
  /-- No part holds the delimiter. -/
  free : Free boundary (texts++[photo.part])
  /-- No part is shorter than the delimiter. -/
  long : ∀ part ∈ texts++[photo.part],(delimiter boundary).length ≤ part.encode.length

/-- The type a photo shows. -/
def shownType (photo : Photo) : Bytes := photoType photo.part.encode 0

/-- What a form needs to keep its texts. -/
structure Storable (texts : List FormPart) (photo : Photo) : Prop where
  /-- A part behind the first password shows a content type. -/
  behind : ∀ part ∈ behindPassword texts,contentType<:+:part.headers
  /-- With a password, a text under the key of the type is the type of the photo. -/
  typeKey : texts.any isPassword → ∀ part ∈ texts,part.name=photoTypeKey →
    part.value=shownType photo
  /-- Any other text has one line and is the last one stored under its name. -/
  text : ∀ part ∈ texts,¬(texts.any isPassword ∧ part.name=photoTypeKey) →
    ¬crlf<:+:part.value ∧ lastValue (storedTexts texts) part.name=some part.value

/-- The form is parsed, and every text part is held with its value. -/
def TextsHeld (request boundary : Bytes) (texts : List FormPart) : Prop :=
  ∃ form,separatorToPropertis .lenient request (delimiter boundary) emptyForm=.ok form ∧
    ∀ part ∈ texts,form.userProperties[part.name]?=some part.value

section stores

/-- Under a key stands the first line of the last part of that name. -/
theorem getElem?_storeTexts (parts : List FormPart) (properties : PropertyMap) (key : Bytes) :
    (storeTexts parts properties)[key]?=
      ((lastValue parts key).map firstLine).or properties[key]? := by
  induction parts generalizing properties with
  | nil => rfl
  | cons part parts ih =>
    refine (ih (properties.insert part.name (firstLine part.value))).trans ?_
    have hinsert := getElem?_insert_part properties ⟨part.name,none,none,firstLine part.value⟩ key
    dsimp only at hinsert
    rw [hinsert,lastValue_cons]
    cases lastValue parts key with
    | some value => rfl
    | none => by_cases hname : part.name=key <;> simp [hname]

/-- A last value is that of a part of the name. -/
theorem exists_lastValue {parts : List FormPart} {key value : Bytes}
    (h : lastValue parts key=some value) : ∃ part ∈ parts,part.name=key ∧ part.value=value := by
  obtain ⟨part,hfound,hvalue⟩ := Option.map_eq_some_iff.mp h
  exact ⟨part,List.mem_reverse.mp (List.mem_of_find?_eq_some hfound),
    by simpa using List.find?_some hfound,hvalue⟩

/-- A photo shows a quote between its first and its last one. -/
theorem shownName_quoted (photo : Photo) : (34 : UInt8) ∈ shownName photo.part := by
  change (34 : UInt8) ∈ photo.name++(ascii "\"; filename=\""++photo.filename)
  simp [ascii]

end stores

section visits

variable {boundary closing : Bytes} {photo : Photo}

/-- A photo shows a content type in its header block. -/
theorem photo_shows (photo : Photo) : contentType<:+:photo.part.headers := by
  rw [photo_headers]
  exact ⟨photo.part.disposition++lineEnd,photo.type,by simp only [List.append_assoc]⟩

/-- The visit of a part as a photo: its type is stored, and the visits go on,
when it shows a content type; otherwise it raises. -/
theorem visitParts_photo {part : FormPart} (h : Legible part) (before : Bytes)
    (parts : List FormPart) {early : ℕ} (hearly : early ≤ 1)
    (hs : (before++encodeForm boundary closing (part::parts)).length ≤ maxSize)
    (state : FormState) :
    (contentType<:+:part.headers → ∃ files,
        visitParts .lenient (before++encodeForm boundary closing (part::parts))
            (partSpans boundary before.length early (part::parts)) true state=
          visitParts .lenient (before++encodeForm boundary closing (part::parts))
            (partSpans boundary
              (before.length+(delimiter boundary).length+2+part.encode.length) 1 parts) true
            ⟨state.userProperties.insert photoTypeKey (photoType part.encode 0),files⟩) ∧
      (¬contentType<:+:part.headers →
        ¬Returns (visitParts .lenient (before++encodeForm boundary closing (part::parts))
          (partSpans boundary before.length early (part::parts)) true state)) := by
  obtain ⟨left,lead,hlead,hsplit,_,hleft⟩ := visit_split before boundary closing part parts hearly
  have hinside : left.length ≤
      (left++(lead++(part.encode++encodeForm boundary closing parts))).length := by
    rw [List.length_append]
    omega
  have hshows := @hasType_part part left lead (encodeForm boundary closing parts) h hlead 0
  rw [hsplit] at hs ⊢
  rw [partSpans,visitParts,←hleft]
  dsimp only
  unfold visitPart
  rw [if_pos rfl]
  constructor
  · intro htype
    rw [addPhoto_lenient hs hinside _ _ (hshows.mpr htype),photoType_part h hlead]
    exact ⟨_,rfl⟩
  · intro htype
    rw [addPhoto_none .lenient hs hinside _ _ fun hshown => htype (hshows.mp hshown)]
    exact not_returns_error _

/-- Visits of photos need a content type each, and change no field but that of the type. -/
theorem visitParts_behind (hphoto : photo.OneLine) (parts : List FormPart)
    (hlegible : ∀ part ∈ parts,Legible part) (before : Bytes) {early : ℕ} (hearly : early ≤ 1)
    (hs : (before++encodeForm boundary closing (parts++[photo.part])).length ≤ maxSize)
    (state : FormState) :
    (Returns (visitParts .lenient (before++encodeForm boundary closing (parts++[photo.part]))
          (partSpans boundary before.length early (parts++[photo.part])) true state) ↔
        ∀ part ∈ parts,contentType<:+:part.headers) ∧
      ∀ form,visitParts .lenient (before++encodeForm boundary closing (parts++[photo.part]))
          (partSpans boundary before.length early (parts++[photo.part])) true state=.ok form →
        ∀ key,form.userProperties[key]?=
          if photoTypeKey=key then some (shownType photo) else state.userProperties[key]? := by
  induction parts generalizing before early state with
  | nil =>
    obtain ⟨files,hrun⟩ := (visitParts_photo hphoto.legible before [] hearly hs state).1
      (photo_shows photo)
    rw [List.nil_append,hrun]
    refine ⟨iff_of_true (returns_ok _) (by simp),?_⟩
    rintro form ⟨⟩ key
    exact getElem?_insert _ _ key _
  | cons part parts ih =>
    obtain ⟨hshown,hnone⟩ := visitParts_photo (hlegible part List.mem_cons_self) before
      (parts++[photo.part]) hearly hs state
    have hsplit := encodeForm_behind before boundary closing part (parts++[photo.part])
    have hlen := behindPart_length before boundary part
    by_cases htype : contentType<:+:part.headers
    · obtain ⟨files,hrun⟩ := hshown htype
      obtain ⟨hreturns,hfields⟩ := ih (fun p hp => hlegible p (List.mem_cons_of_mem _ hp))
        (before++delimiter boundary++lineEnd++part.encode) le_rfl (by rw [←hsplit]; exact hs)
        ⟨state.userProperties.insert photoTypeKey (photoType part.encode 0),files⟩
      rw [←hsplit,hlen,←hrun] at hreturns hfields
      refine ⟨hreturns.trans ?_,fun form hform key => ?_⟩
      · rw [List.forall_mem_cons]
        exact (and_iff_right htype).symm
      · rw [hfields form hform key]
        by_cases hkey : photoTypeKey=key
        · rw [if_pos hkey,if_pos hkey]
        · rw [if_neg hkey,if_neg hkey,getElem?_insert,if_neg hkey]
    · refine ⟨iff_of_false (hnone htype) fun hall => htype (hall part List.mem_cons_self),?_⟩
      exact fun form hform => absurd ⟨form,hform⟩ (hnone htype)

end visits

section forms

variable {head boundary closing : Bytes} {texts : List FormPart} {photo : Photo}

/-- The parts of a form are visited between its delimiters exactly when the
first delimiter of the request is that of the form. -/
theorem visitedParts_texts_iff (h : TextForm boundary closing texts photo) (head : Bytes)
    (hs : (head++encodeForm boundary closing (texts++[photo.part])).length ≤ maxSize) :
    visitedParts (head++encodeForm boundary closing (texts++[photo.part])) (delimiter boundary)=
        partSpans boundary head.length 0 (texts++[photo.part]) ↔
      find? (head++encodeForm boundary closing (texts++[photo.part])) (delimiter boundary) 0=
        some head.length := by
  have hfree := h.free
  have hlong := h.long
  obtain ⟨part,parts,hparts⟩ := List.exists_cons_of_ne_nil
    (List.append_ne_nil_of_right_ne_nil texts (List.cons_ne_nil photo.part []))
  rw [hparts] at hs hfree hlong ⊢
  constructor
  · intro hvisits
    obtain ⟨rest,hrest⟩ := encodeForm_delimiter boundary closing (part::parts)
    have hocc := occurs_behind head (delimiter boundary) rest
    rw [←hrest] at hocc
    obtain ⟨p,hfirst⟩ := Option.isSome_iff_exists.mp (find?_zero_isSome_iff.mpr hocc.isInfix)
    have hstart := firstStart_eq hs hfirst
    unfold visitedParts at hvisits
    rw [hstart,partsFrom] at hvisits
    split at hvisits
    · cases hvisits
    · have hspan := congrArg Prod.fst (List.cons.inj hvisits).1
      dsimp only at hspan
      have hposition : p=head.length := by omega
      rw [hfirst,hposition]
  · intro hfirst
    exact (visitedParts_form h.ne h.noReturn h.noFeed h.closed hfree hfirst hs).mpr
      (hlong part List.mem_cons_self)

/-- What a parsed form holds: a photo in front of the password's flag is stored
under a name with quotes, and one behind it leaves its type. -/
theorem separatorToPropertis_texts (h : TextForm boundary closing texts photo)
    (hs : (head++encodeForm boundary closing (texts++[photo.part])).length ≤ maxSize)
    (hfirst : find? (head++encodeForm boundary closing (texts++[photo.part])) (delimiter boundary) 0=
      some head.length) :
    (Returns (separatorToPropertis .lenient
          (head++encodeForm boundary closing (texts++[photo.part])) (delimiter boundary) emptyForm) ↔
        ∀ part ∈ behindPassword texts,contentType<:+:part.headers) ∧
      ∀ form,separatorToPropertis .lenient
          (head++encodeForm boundary closing (texts++[photo.part])) (delimiter boundary) emptyForm=
            .ok form →
        ∀ key,(34 : UInt8) ∉ key → form.userProperties[key]?=
          if texts.any isPassword ∧ key=photoTypeKey then some (shownType photo)
          else (lastValue (storedTexts texts) key).map firstLine := by
  have hvisits := (visitedParts_texts_iff h head hs).mpr hfirst
  obtain ⟨after,later,hlater,hsplit,hrun⟩ := visitParts_texts texts h.legible h.plain head
    (Nat.zero_le 1) hs emptyForm
  have hstored : ∀ key,(storeTexts (storedTexts texts) ∅)[key]?=
      (lastValue (storedTexts texts) key).map firstLine := by
    intro key
    rw [getElem?_storeTexts]
    simp
  rw [separatorToPropertis_visits hs hfirst,hvisits,hrun]
  rw [hsplit] at hs ⊢
  by_cases hpassword : texts.any isPassword
  · have hlegible : ∀ part ∈ behindPassword texts,Legible part := fun part hmem =>
      h.legible part (storedTexts_append texts ▸ List.mem_append_right _ hmem)
    rw [hpassword]
    obtain ⟨hreturns,hfields⟩ := visitParts_behind h.oneLine (behindPassword texts) hlegible after
      hlater hs {emptyForm with userProperties := storeTexts (storedTexts texts) ∅}
    refine ⟨hreturns,fun form hform key _ => ?_⟩
    rw [hfields form hform key,hstored]
    simp [eq_comm]
  · rw [behindPassword_nil hpassword] at hs ⊢
    rw [Bool.eq_false_iff.mpr hpassword]
    have hphoto := visitParts_shown h.oneLine.legible after [] hlater hs
      {emptyForm with userProperties := storeTexts (storedTexts texts) ∅}
    refine ⟨iff_of_true ⟨_,hphoto⟩ (by simp),fun form hform key hquote => ?_⟩
    cases hphoto.symm.trans hform
    have hother : shownName photo.part≠key := fun heq => hquote (heq ▸ shownName_quoted photo)
    dsimp only
    rw [getElem?_insert,if_neg hother,hstored]
    simp

/-- Behind a first delimiter that is the form's, the texts are held exactly
when they are storable. -/
theorem textsHeld_iff (h : TextForm boundary closing texts photo)
    (hs : (head++encodeForm boundary closing (texts++[photo.part])).length ≤ maxSize)
    (hfirst : find? (head++encodeForm boundary closing (texts++[photo.part])) (delimiter boundary) 0=
      some head.length) :
    TextsHeld (head++encodeForm boundary closing (texts++[photo.part])) boundary texts ↔
      Storable texts photo := by
  obtain ⟨hreturns,hfields⟩ := separatorToPropertis_texts h hs hfirst
  have hquote : ∀ part ∈ texts,(34 : UInt8) ∉ part.name := fun part hmem =>
    (h.legible part hmem).name.noQuote
  constructor
  · rintro ⟨form,hform,htexts⟩
    have hheld : ∀ part ∈ texts,some part.value=
        if texts.any isPassword ∧ part.name=photoTypeKey then some (shownType photo)
        else (lastValue (storedTexts texts) part.name).map firstLine := fun part hmem =>
      (htexts part hmem).symm.trans (hfields form hform part.name (hquote part hmem))
    refine ⟨hreturns.mp ⟨form,hform⟩,fun hpassword part hmem hkey => ?_,fun part hmem hother => ?_⟩
    · have hvalue := hheld part hmem
      rw [if_pos ⟨hpassword,hkey⟩] at hvalue
      exact Option.some.inj hvalue
    · have hvalue := hheld part hmem
      rw [if_neg hother] at hvalue
      -- the last part stored under the name has to be held as well, so it has one line
      obtain ⟨value,hlast,hline⟩ := Option.map_eq_some_iff.mp hvalue.symm
      obtain ⟨last,hstored,hname,hlastValue⟩ := exists_lastValue hlast
      have hlastHeld := hheld last (storedTexts_append texts ▸ List.mem_append_left _ hstored)
      rw [hname,if_neg hother,hlast,hlastValue] at hlastHeld
      have hwhole : firstLine value=value := (Option.some.inj hlastHeld).symm
      rw [←hline,hlast]
      rw [hwhole]
      exact ⟨firstLine_eq_iff.mp hwhole,rfl⟩
  · intro hstorable
    obtain ⟨form,hform⟩ := hreturns.mpr hstorable.behind
    refine ⟨form,hform,fun part hmem => ?_⟩
    rw [hfields form hform part.name (hquote part hmem)]
    by_cases hkey : texts.any isPassword ∧ part.name=photoTypeKey
    · rw [if_pos hkey,hstorable.typeKey hkey.1 part hmem hkey.2]
    · obtain ⟨hwhole,hlast⟩ := hstorable.text part hmem hkey
      rw [if_neg hkey,hlast,Option.map_some,firstLine_eq_iff.mpr hwhole]

/-- The parts of a form are visited between its delimiters, with every text
held as its whole value, exactly when the first delimiter of the request is
that of the form and the texts are storable. Behind such a delimiter the texts
are held exactly when they are storable. -/
theorem texts_stored_iff (h : TextForm boundary closing texts photo) (head : Bytes)
    (request : CxxText)
    (hrequest : request.bytes=head++encodeForm boundary closing (texts++[photo.part])) :
    (visitedParts request.bytes (delimiter boundary)=
          partSpans boundary head.length 0 (texts++[photo.part]) ∧
        TextsHeld request.bytes boundary texts ↔
      find? request.bytes (delimiter boundary) 0=some head.length ∧ Storable texts photo) ∧
    (find? request.bytes (delimiter boundary) 0=some head.length →
      (TextsHeld request.bytes boundary texts ↔ Storable texts photo)) := by
  have hs := request.size_le
  rw [hrequest] at hs ⊢
  rw [visitedParts_texts_iff h head hs]
  exact ⟨and_congr_right (textsHeld_iff h hs),textsHeld_iff h hs⟩

/-- A login with a value and a type, and a password. -/
def loginTexts (value : Bytes) : List FormPart :=
  [⟨ascii "login",none,some (ascii "text/plain"),value⟩,⟨passwordName,none,none,ascii "p"⟩]

/-- A request of a login and a photo. -/
def loginRequest (value : Bytes) : Bytes :=
  sampleHeader (ascii "--7")++
    encodeForm (ascii "--7") lineEnd (loginTexts value++[samplePhoto.part])

/-- With a value without the delimiter it is a form. -/
theorem loginForm {value : Bytes} (hfree : ¬delimiter (ascii "--7")<:+:value) :
    TextForm (ascii "--7") lineEnd (loginTexts value) samplePhoto := by
  have hlogin : Inline (ascii "login") := ⟨by decide,by decide,by decide⟩
  have htype : ∀ type,some (ascii "text/plain")=some type → (13 : UInt8) ∉ type := by
    rintro _ ⟨⟩
    decide
  have hheaders : ¬delimiter (ascii "--7")<:+:
      (⟨ascii "login",none,some (ascii "text/plain"),[]⟩ : FormPart).headers := by decide +kernel
  exact {
    ne := by decide
    noReturn := by decide
    noFeed := by decide
    closed := Or.inr rfl
    legible := List.forall_mem_cons.mpr ⟨⟨hlogin,nofun,htype⟩,List.forall_mem_singleton.mpr
      ⟨⟨by decide,by decide,by decide⟩,nofun,nofun⟩⟩
    plain := List.forall_mem_cons.mpr ⟨rfl,List.forall_mem_singleton.mpr rfl⟩
    oneLine := samplePhoto_oneLine
    free := List.forall_mem_cons.mpr ⟨⟨hheaders,hfree⟩,List.forall_mem_cons.mpr
      ⟨⟨by decide +kernel,by decide +kernel⟩,List.forall_mem_singleton.mpr
        ⟨by decide +kernel,by decide +kernel⟩⟩⟩
    long := fun part _ => delimiter_le_encode (by decide) part }

/-- A value of one line is held. -/
theorem loginTexts_held :
    visitedParts (loginRequest (ascii "a")) (delimiter (ascii "--7"))=
        partSpans (ascii "--7") (sampleHeader (ascii "--7")).length 0
          (loginTexts (ascii "a")++[samplePhoto.part]) ∧
      TextsHeld (loginRequest (ascii "a")) (ascii "--7") (loginTexts (ascii "a")) := by
  refine (texts_stored_iff (loginForm (by decide +kernel)) (sampleHeader (ascii "--7"))
    ⟨loginRequest (ascii "a"),by decide +kernel⟩ rfl).1.mpr ⟨by decide +kernel,?_⟩
  have hnames : ∀ part ∈ loginTexts (ascii "a"),part.name≠photoTypeKey :=
    List.forall_mem_cons.mpr ⟨by decide,List.forall_mem_singleton.mpr (by decide)⟩
  have hlast : ∀ part ∈ loginTexts (ascii "a"),¬crlf<:+:part.value ∧
      lastValue (storedTexts (loginTexts (ascii "a"))) part.name=some part.value :=
    List.forall_mem_cons.mpr ⟨⟨by decide,by decide +kernel⟩,List.forall_mem_singleton.mpr
      ⟨by decide,by decide +kernel⟩⟩
  have hbehind : behindPassword (loginTexts (ascii "a"))=[] := by rfl
  exact ⟨fun part hmem => absurd (hbehind ▸ hmem) List.not_mem_nil,
    fun _ part hmem hkey => absurd hkey (hnames part hmem),fun part hmem _ => hlast part hmem⟩

/-- A value of two lines loses the second one. -/
theorem loginTexts_cut :
    TextForm (ascii "--7") lineEnd (loginTexts (ascii "a\r\nb")) samplePhoto ∧
      find? (loginRequest (ascii "a\r\nb")) (delimiter (ascii "--7")) 0=
        some (sampleHeader (ascii "--7")).length ∧
      ¬TextsHeld (loginRequest (ascii "a\r\nb")) (ascii "--7") (loginTexts (ascii "a\r\nb")) := by
  have hcut : (match separatorToPropertis .lenient (loginRequest (ascii "a\r\nb"))
      (delimiter (ascii "--7")) emptyForm with
    | .ok form => decide (form.userProperties[ascii "login"]?=some (ascii "a"))
    | .error _ => false)=true := by decide +kernel
  refine ⟨loginForm (by decide +kernel),by decide +kernel,?_⟩
  rintro ⟨form,hform,htexts⟩
  rw [hform] at hcut
  have hheld := htexts _ List.mem_cons_self
  dsimp only [loginTexts] at hheld
  rw [of_decide_eq_true hcut] at hheld
  exact absurd (Option.some.inj hheld) (by decide)

end forms

end Photogram.AuthTextFields
