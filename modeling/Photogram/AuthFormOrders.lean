import Mathlib.Data.List.Nodup
import Photogram.AuthTextFields

/-!
# Orders of the parts of a registration form

The text fields and the photo of a form in any order. Parts are stored as
texts until the one named password, a photo among them too, and every part
behind it is read as a photo. A text field there makes the parse raise, and
without a part there no photo is recorded. Two orders that end with the
password and the photo store the same fields and cut out the same bytes.
-/

namespace Photogram.AuthFormOrders

open CxxString QueryString AuthRequest AuthFormData AuthFormParts AuthHttpParser FormDataRoundTrip
open AuthFormEncoding AuthParserSafety AuthPhotoForm AuthReceive AuthRegistrationForm
open AuthTextFields (visitParts_photo shownType photo_shows shownName_quoted)
open FormDataParser (FormPart delimiter encodeForm lineEnd)

/-- Text fields and a photo that make a registration form, in whatever order. -/
structure UnorderedForm (boundary : Bytes) (fields : List TextField) (photo : Photo) : Prop where
  /-- The boundary is not empty. -/
  ne : boundary≠[]
  /-- It has no carriage return. -/
  noReturn : (13 : UInt8) ∉ boundary
  /-- It has no line feed. -/
  noFeed : (10 : UInt8) ∉ boundary
  /-- A text field is the password. -/
  password : ∃ field ∈ fields,field.name=passwordName
  /-- No two text fields have one name. -/
  distinct : (fields.map TextField.name).Nodup
  /-- Names stay in their quotes. -/
  names : ∀ field ∈ fields,Inline field.name
  /-- Values have no line end. -/
  values : ∀ field ∈ fields,¬crlf<:+:field.value
  /-- The header lines of the photo are well formed. -/
  oneLine : photo.OneLine
  /-- No part holds the delimiter. -/
  free : Free boundary (formParts fields photo)
  /-- No part is shorter than the delimiter. -/
  long : ∀ part ∈ formParts fields photo,(delimiter boundary).length ≤ part.encode.length

/-- A request with parts in some order, behind a header block that announces
their boundary. -/
structure OrderedRequest (request : CxxText) (head boundary closing : Bytes)
    (order : List FormPart) : Prop where
  /-- The header block is followed by the parts. -/
  body : request.bytes=head++encodeForm boundary closing order
  /-- At most a line end follows the closing delimiter. -/
  closed : closing=[] ∨ closing=lineEnd
  /-- The first boundary with a dash in the request is the form's and ends its line. -/
  shows : FirstBegins request.bytes boundaryLiteral (boundaryLine boundary++crlf)
  /-- The first delimiter of the request is the one behind the header block. -/
  first : find? request.bytes (delimiter boundary) 0=some head.length

/-- An order that ends with the password and the photo. -/
def PhotoLast (order : List FormPart) (photo : Photo) : Prop :=
  ∃ others password,order=others++[password,photo.part] ∧ isPassword password

/-- Both requests are parsed, with the same fields, and the photo cut out of
either has the given bytes. -/
def SameRegistration (request other bytes : Bytes) : Prop :=
  ∃ form otherForm,AuthFormData.parse .lenient request emptyForm=.ok form ∧
    AuthFormData.parse .lenient other emptyForm=.ok otherForm ∧
    form.userProperties=otherForm.userProperties ∧
    firstFile request form.filesCoordinates=.ok bytes ∧
    firstFile other otherForm.filesCoordinates=.ok bytes

/-- The text field of a part. -/
def textOf (part : FormPart) : TextField := ⟨part.name,part.value⟩

section stores

/-- Fields with distinct names are stored the same in any order. -/
theorem storeFields_perm {fields others : List TextField} (h : fields.Perm others)
    (hdistinct : (fields.map TextField.name).Nodup) :
    storeFields fields ∅=storeFields others ∅ := by
  have hother : (others.map TextField.name).Nodup := (h.map _).nodup_iff.mp hdistinct
  refine Std.ExtTreeMap.ext_getElem? fun key => ?_
  by_cases hkey : key ∈ fields.map TextField.name
  · obtain ⟨field,hfield,rfl⟩ := List.mem_map.mp hkey
    rw [storeFields_field fields ∅ hdistinct hfield,
      storeFields_field others ∅ hother (h.mem_iff.mp hfield)]
  · have hnone : key ∉ others.map TextField.name := fun hmem =>
      hkey ((h.map _).mem_iff.mpr hmem)
    rw [storeFields_other fields ∅ hkey,storeFields_other others ∅ hnone]

/-- An order that ends with the password and the photo is the form of its own
text fields. -/
theorem PhotoLast.fields {fields : List TextField} {photo : Photo} {order : List FormPart}
    (h : PhotoLast order photo) (horder : order.Perm (formParts fields photo)) :
    ∃ others password,order=formParts (others++[password]) photo ∧
      (others++[password]).Perm fields ∧ password.name=passwordName := by
  obtain ⟨others,password,hsplit,hpassword⟩ := h
  have hparts : order=(others++[password])++[photo.part] := by
    rw [hsplit,List.append_assoc]
    rfl
  rw [hparts] at horder
  have htexts : (others++[password]).Perm (fields.map TextField.part) :=
    (List.perm_append_right_iff _).mp horder
  have hback : ((others++[password]).map textOf).map TextField.part=others++[password] := by
    rw [List.map_map]
    refine (List.map_congr_left fun part hpart => ?_).trans (List.map_id _)
    obtain ⟨field,_,rfl⟩ := List.mem_map.mp (htexts.mem_iff.mp hpart)
    rfl
  refine ⟨others.map textOf,textOf password,?_,?_,of_decide_eq_true hpassword⟩
  · rw [List.map_append,List.map_singleton] at hback
    rw [hparts,formParts,hback]
  · have hfields := htexts.map textOf
    have hsame : textOf ∘ TextField.part=id := rfl
    rwa [List.map_map,hsame,List.map_id,List.map_append,List.map_singleton] at hfields

end stores

section photos

variable {photo : Photo} {left lead right : Bytes}

/-- First byte recorded for a photo, counted from its part. -/
def shownStart (photo : Photo) : ℕ := photoStart photo.part.encode 0

/-- Bytes recorded for a photo. -/
def shownBytes (photo : Photo) : Bytes :=
  (photo.part.encode.drop (shownStart photo)).take (photo.part.encode.length-shownStart photo-2)

/-- The header block of a part alone. -/
theorem partHeaders_alone (h : photo.OneLine) : partHeaders photo.part.encode 0=photo.part.headers := by
  have hheaders := @partHeaders_part photo.part [] [] [] h.legible (Or.inl rfl)
  rw [List.append_nil] at hheaders
  exact hheaders

/-- The recorded start stands at the same place of the part wherever it is visited. -/
theorem photoStart_shown (h : photo.OneLine) (hlead : Lead lead) :
    photoStart (left++(lead++(photo.part.encode++right))) left.length=
      left.length+lead.length+shownStart photo := by
  obtain ⟨arg,harg⟩ := Option.isSome_iff_exists.mp (find?_zero_isSome_iff.mpr (photo_shows photo))
  have htype := @photoType_part photo.part left lead right h.legible hlead
  unfold shownStart photoStart
  rw [partHeaders_photo h hlead,partHeaders_alone h,htype]
  dsimp only
  rw [find?_lead hlead rfl (by decide),harg]
  dsimp only [Option.map_some]
  omega

/-- It stands in front of the photo or at its first byte. -/
theorem shownStart_le (h : photo.OneLine) : shownStart photo ≤ photo.part.headers.length+4 := by
  have hstart := @photoStart_shown photo [] [] [] h (Or.inl rfl)
  simp only [List.nil_append,List.append_nil,List.length_nil,Nat.zero_add] at hstart
  by_cases hshown : contentType<:+:photo.part.disposition
  · have hmisled := @photoStart_misled photo [] [] [] h (Or.inl rfl) hshown
    simp only [List.nil_append,List.append_nil,List.length_nil,Nat.zero_add] at hmisled
    omega
  · have hexact := @photoStart_photo photo [] [] [] h (Or.inl rfl) hshown
    simp only [List.nil_append,List.append_nil,List.length_nil,Nat.zero_add] at hexact
    omega

/-- A visited photo is recorded with the type it shows, at that start. -/
theorem addPhoto_shown (h : photo.OneLine) (hlead : Lead lead)
    (hs : (left++(lead++(photo.part.encode++right))).length ≤ maxSize) (state : FormState) :
    addPhoto .lenient (left++(lead++(photo.part.encode++right))) left.length
        (left.length+lead.length+photo.part.encode.length) state=
      .ok ⟨state.userProperties.insert photoTypeKey (shownType photo),
        state.filesCoordinates.insert
          (fileName (left++(lead++(photo.part.encode++right))) left.length)
          (left.length+lead.length+shownStart photo,
            photo.part.encode.length-shownStart photo-2)⟩ := by
  have hm : maxSize<sizeModulus := by decide
  have hstart : left.length ≤ (left++(lead++(photo.part.encode++right))).length := by
    rw [List.length_append]
    omega
  have hshown := shownStart_le h
  have hlength := encode_length photo.part
  rw [addPhoto_lenient hs hstart _ state (hasType_photo h hlead 0),photoType_part h.legible hlead]
  simp only [List.length_append] at hs
  have hsize : subSize (left.length+lead.length+photo.part.encode.length)
      (left.length+lead.length+shownStart photo)=photo.part.encode.length-shownStart photo := by
    rw [subSize_eq (by omega) (by omega),Nat.add_sub_add_left]
  unfold photoCoordinates
  dsimp only
  rw [photoStart_shown h hlead,hsize,subSize_eq (by omega) (by omega)]
  rfl

/-- What is cut out there does not depend on where the photo is visited. -/
theorem substr_shown (h : photo.OneLine) (left lead right : Bytes) :
    substr (left++(lead++(photo.part.encode++right))) (left.length+lead.length+shownStart photo)
        (photo.part.encode.length-shownStart photo-2)=.ok (shownBytes photo) := by
  have hshown := shownStart_le h
  have hlength := encode_length photo.part
  have hsplit : left++(lead++(photo.part.encode++right))=
      (left++lead)++(photo.part.encode++right) := (List.append_assoc _ _ _).symm
  have hbefore : left.length+lead.length=(left++lead).length := List.length_append.symm
  rw [substr_of_le _ (by simp only [List.length_append]; omega),hsplit,hbefore,←List.drop_drop,
    List.drop_left,List.drop_append_of_le_length (by omega),List.take_append_of_le_length (by
      rw [List.length_drop]
      omega)]
  rfl

/-- The bytes cut out are the photo's when its names show no content type. -/
theorem shownBytes_plain (h : photo.OneLine) (hplain : photo.Plain) :
    shownBytes photo=photo.bytes := by
  have hstart := @photoStart_photo photo [] [] [] h (Or.inl rfl) ((plain_iff photo).mpr hplain)
  simp only [List.nil_append,List.append_nil,List.length_nil,Nat.zero_add] at hstart
  have hlength : photo.part.encode.length=photo.part.headers.length+4+photo.bytes.length+2 :=
    encode_length photo.part
  have hcut := substr_shown h [] [] []
  have hphoto := substr_photo photo [] [] []
  have hshown : shownStart photo=photo.part.headers.length+4 := hstart
  have hcount : photo.part.encode.length-(photo.part.headers.length+4)-2=photo.bytes.length := by
    omega
  rw [hshown,hcount] at hcut
  simp only [List.length_nil,Nat.zero_add] at hcut hphoto
  exact Except.ok.inj (hcut.symm.trans hphoto)

end photos

section visits

variable {boundary closing : Bytes}

/-- The header lines of a text field show a content type when its name does. -/
theorem text_shows_iff (field : TextField) :
    contentType<:+:field.part.headers ↔ contentType<:+:field.name := by
  have hquote : (34 : UInt8) ∉ contentType := by decide
  have hne : contentType≠[] := by decide
  have hheaders : field.part.headers=
      ascii "Content-Disposition: form-data; name="++34::(field.name++34::[]) := by
    have hstart : dispositionStart=ascii "Content-Disposition: form-data; name="++[34] := by decide
    have hshown : field.part.headers=dispositionStart++(field.name++[34]) :=
      (List.append_nil _).trans (disposition_shown field.part)
    rw [hshown,hstart,List.append_assoc,List.singleton_append]
  have hstart : ¬contentType<:+:ascii "Content-Disposition: form-data; name=" := by decide
  have hend : ¬contentType<:+:([] : Bytes) := by decide
  rw [hheaders,isInfix_around hquote hne,isInfix_around hquote hne]
  simp only [hstart,hend,false_or,or_false]

/-- Visits as photos return only when every part shows a content type. -/
theorem visitParts_typed (parts : List FormPart) (hlegible : ∀ part ∈ parts,Legible part)
    (before : Bytes) {early : ℕ} (hearly : early ≤ 1)
    (hs : (before++encodeForm boundary closing parts).length ≤ maxSize) (state : FormState)
    (h : Returns (visitParts .lenient (before++encodeForm boundary closing parts)
      (partSpans boundary before.length early parts) true state)) :
    ∀ part ∈ parts,contentType<:+:part.headers := by
  induction parts generalizing before early state with
  | nil => exact nofun
  | cons part parts ih =>
    obtain ⟨hshown,hnone⟩ := visitParts_photo (hlegible part List.mem_cons_self) before parts hearly
      hs state
    have htype : contentType<:+:part.headers := by
      by_contra hmissing
      exact hnone hmissing h
    obtain ⟨files,hrun⟩ := hshown htype
    have hsplit := encodeForm_behind before boundary closing part parts
    have hlen := behindPart_length before boundary part
    rw [hrun,hsplit,←hlen] at h
    exact List.forall_mem_cons.mpr ⟨htype,
      ih (fun other hother => hlegible other (List.mem_cons_of_mem _ hother))
        (before++delimiter boundary++lineEnd++part.encode) le_rfl (by rw [←hsplit]; exact hs) _ h⟩

/-- Visits meet no password and record no file, or go on as photos with the
parts behind the first one. -/
theorem visitParts_opened (parts : List FormPart) (hlegible : ∀ part ∈ parts,Legible part)
    (before : Bytes) {early : ℕ} (hearly : early ≤ 1)
    (hs : (before++encodeForm boundary closing parts).length ≤ maxSize) (state : FormState) :
    (∃ form,visitParts .lenient (before++encodeForm boundary closing parts)
          (partSpans boundary before.length early parts) false state=.ok form ∧
        form.filesCoordinates=state.filesCoordinates) ∨
      ∃ front password behind after properties,parts=front++password::behind ∧
        shownName password=passwordName ∧
        before++encodeForm boundary closing parts=after++encodeForm boundary closing behind ∧
        visitParts .lenient (before++encodeForm boundary closing parts)
            (partSpans boundary before.length early parts) false state=
          visitParts .lenient (before++encodeForm boundary closing parts)
            (partSpans boundary after.length 1 behind) true ⟨properties,state.filesCoordinates⟩ := by
  induction parts generalizing before early state with
  | nil => exact Or.inl ⟨state,rfl,rfl⟩
  | cons part parts ih =>
    have hvisit := visitParts_shown (hlegible part List.mem_cons_self) before parts hearly hs state
    have hsplit := encodeForm_behind before boundary closing part parts
    have hlen := behindPart_length before boundary part
    by_cases hname : shownName part=passwordName
    · refine Or.inr ⟨[],part,parts,before++delimiter boundary++lineEnd++part.encode,
        state.userProperties.insert (shownName part) (firstLine part.value),rfl,hname,hsplit,?_⟩
      rw [hvisit,hlen,decide_eq_true hname]
    · rw [hvisit,decide_eq_false hname]
      have hrest := ih (fun other hother => hlegible other (List.mem_cons_of_mem _ hother))
        (before++delimiter boundary++lineEnd++part.encode) le_rfl (by rw [←hsplit]; exact hs)
        {state with userProperties :=
          state.userProperties.insert (shownName part) (firstLine part.value)}
      rw [←hsplit,hlen] at hrest
      rcases hrest with hplain|⟨front,password,behind,after,properties,hparts,hopens,hafter,hrun⟩
      · exact Or.inl hplain
      · exact Or.inr ⟨part::front,password,behind,after,properties,
          by rw [hparts,List.cons_append],hopens,hafter,hrun⟩

end visits

section orders

variable {head boundary closing : Bytes} {fields : List TextField} {photo : Photo}
  {order : List FormPart} {request : CxxText}

/-- The parts of a form stay on their lines, in every order. -/
theorem UnorderedForm.legible (h : UnorderedForm boundary fields photo)
    (horder : order.Perm (formParts fields photo)) : ∀ part ∈ order,Legible part := by
  intro part hpart
  rcases List.mem_append.mp (horder.mem_iff.mp hpart) with htext|hphoto
  · obtain ⟨field,hfield,rfl⟩ := List.mem_map.mp htext
    exact ⟨h.names field hfield,nofun,nofun⟩
  · cases List.mem_singleton.mp hphoto
    exact h.oneLine.legible

/-- No part of a form occurs twice. -/
theorem UnorderedForm.nodup (h : UnorderedForm boundary fields photo) :
    (formParts fields photo).Nodup := by
  have hnames : ((fields.map TextField.part).map FormPart.name).Nodup := by
    rw [List.map_map]
    exact h.distinct
  refine List.nodup_append.mpr ⟨List.Nodup.of_map _ hnames,List.nodup_singleton _,?_⟩
  intro text htext last hlast heq
  obtain ⟨field,_,rfl⟩ := List.mem_map.mp htext
  rw [List.mem_singleton.mp hlast] at heq
  exact absurd (congrArg FormPart.filename heq) nofun

/-- Parsing an ordered request visits its parts in their order. -/
theorem parse_ordered (h : UnorderedForm boundary fields photo)
    (hrequest : OrderedRequest request head boundary closing order)
    (horder : order.Perm (formParts fields photo)) :
    AuthFormData.parse .lenient request.bytes emptyForm=
      visitParts .lenient request.bytes (partSpans boundary head.length 0 order) false emptyForm := by
  have hs := request.size_le
  have hfirst := hrequest.first
  have hseparator := getSeparator_begins hs h.noReturn hrequest.shows
  rw [parse_of_separator hs hseparator hfirst]
  have hne : order≠[] := fun hnil => by
    rw [hnil] at horder
    exact absurd horder.nil_eq.symm (List.append_ne_nil_of_right_ne_nil _ (List.cons_ne_nil _ _))
  obtain ⟨part,parts,rfl⟩ := List.exists_cons_of_ne_nil hne
  have hpart := horder.mem_iff.mp List.mem_cons_self
  have hfree : Free boundary (part::parts) := fun other hother =>
    h.free other (horder.mem_iff.mp hother)
  rw [hrequest.body] at hs hfirst ⊢
  rw [(visitedParts_form h.ne h.noReturn h.noFeed hrequest.closed hfree hfirst hs).mpr
    (h.long part hpart)]

/-- With the password and the photo last all fields are stored, and the bytes
the photo shows can be cut out. -/
theorem parse_photoLast (h : UnorderedForm boundary fields photo)
    (hrequest : OrderedRequest request head boundary closing order)
    (horder : order.Perm (formParts fields photo)) (hlast : PhotoLast order photo) :
    ∃ form,AuthFormData.parse .lenient request.bytes emptyForm=.ok form ∧
      form.userProperties=(storeFields fields ∅).insert photoTypeKey (shownType photo) ∧
      firstFile request.bytes form.filesCoordinates=.ok (shownBytes photo) := by
  obtain ⟨others,password,rfl,hfields,hpassword⟩ := hlast.fields horder
  have hparse := parse_ordered h hrequest horder
  have hs := request.size_le
  have hdistinct := (hfields.map TextField.name).nodup_iff.mpr h.distinct
  rw [hrequest.body] at hs hparse ⊢
  obtain ⟨left,lead,hlead,hright,hrun⟩ := visitParts_form hpassword photo others head
    (Nat.zero_le 1) (fun field hfield => h.names field (hfields.mem_iff.mp hfield))
    (fun field hfield => h.values field (hfields.mem_iff.mp hfield))
    (fun field hfield => hpassword ▸ name_ne_last hdistinct field hfield) hs emptyForm
  rw [hparse,hrun]
  rw [hright] at hs ⊢
  have hcut := substr_shown h.oneLine left lead (encodeForm boundary closing [])
  refine ⟨_,addPhoto_shown h.oneLine hlead hs _,?_,?_⟩
  · exact congrArg (Std.ExtTreeMap.insert · photoTypeKey (shownType photo))
      (storeFields_perm hfields hdistinct)
  · unfold firstFile
    dsimp only [emptyForm]
    rw [mapBegin_insert,ok_bind]
    exact hcut

/-- When no name of a text field shows a content type, the photo alone does. -/
theorem eq_photo_of_shows {part : FormPart} (hpart : part ∈ formParts fields photo)
    (huntyped : ∀ field ∈ fields,¬contentType<:+:field.name)
    (hshows : contentType<:+:part.headers) : part=photo.part := by
  rcases List.mem_append.mp hpart with htext|hphoto
  · obtain ⟨field,hfield,rfl⟩ := List.mem_map.mp htext
    exact absurd ((text_shows_iff field).mp hshows) (huntyped field hfield)
  · exact List.mem_singleton.mp hphoto

/-- A part that shows the name password is a text field of that name. -/
theorem isPassword_of_shown {part : FormPart} (hpart : part ∈ formParts fields photo)
    (hopens : shownName part=passwordName) : isPassword part := by
  rcases List.mem_append.mp hpart with htext|hphoto
  · obtain ⟨field,_,rfl⟩ := List.mem_map.mp htext
    exact decide_eq_true hopens
  · rw [List.mem_singleton.mp hphoto] at hopens
    exact absurd (hopens ▸ shownName_quoted photo) (by decide)

/-- An order from which a photo can be cut out ends with the password and the photo. -/
theorem photoLast_of_returns (h : UnorderedForm boundary fields photo)
    (huntyped : ∀ field ∈ fields,¬contentType<:+:field.name)
    (hrequest : OrderedRequest request head boundary closing order)
    (horder : order.Perm (formParts fields photo)) {form : FormState}
    (hform : AuthFormData.parse .lenient request.bytes emptyForm=.ok form)
    (hfile : Returns (firstFile request.bytes form.filesCoordinates)) : PhotoLast order photo := by
  have hs := request.size_le
  have hlegible := h.legible horder
  have hdistinct : order.Nodup := horder.nodup_iff.mpr h.nodup
  have hempty : ¬Returns (firstFile request.bytes ∅) := by
    rintro ⟨bytes,hbytes⟩
    cases hbytes
  rw [parse_ordered h hrequest horder] at hform
  rw [hrequest.body] at hs hform
  rcases visitParts_opened order hlegible head (Nat.zero_le 1) hs emptyForm with
    ⟨plain,hplain,hfiles⟩|⟨front,password,behind,after,properties,rfl,hopens,hafter,hrun⟩
  · cases hplain.symm.trans hform
    rw [hfiles] at hfile
    exact absurd hfile hempty
  · rw [hrun] at hform
    rw [hafter] at hs hform
    have htyped := visitParts_typed behind
      (fun part hpart => hlegible part (List.mem_append_right _ (List.mem_cons_of_mem _ hpart)))
      after le_rfl hs _ ⟨form,hform⟩
    have hmem : ∀ part ∈ password::behind,part ∈ formParts fields photo := fun part hpart =>
      horder.mem_iff.mp (List.mem_append_right front hpart)
    -- only the photo shows a content type, and it occurs once
    have hphotos : ∀ part ∈ behind,part=photo.part := fun part hpart =>
      eq_photo_of_shows (hmem part (List.mem_cons_of_mem _ hpart)) huntyped (htyped part hpart)
    have hbehind : behind.Nodup := (List.nodup_cons.mp (List.nodup_append.mp hdistinct).2.1).2
    have htext := isPassword_of_shown (hmem password List.mem_cons_self) hopens
    cases behind with
    | nil =>
      cases hform
      exact absurd hfile hempty
    | cons first rest =>
      have hfirst := hphotos first List.mem_cons_self
      cases rest with
      | nil => exact ⟨front,password,by rw [hfirst],htext⟩
      | cons second rest =>
        have hsecond := hphotos second (List.mem_cons_of_mem _ List.mem_cons_self)
        rw [hfirst,hsecond] at hbehind
        exact absurd List.mem_cons_self (List.nodup_cons.mp hbehind).1

/-- Two orders that both end with the password and the photo give the same
fields and the same bytes, those of the photo when its names show no content
type. When no name of a text field shows one, no other orders do. -/
theorem same_registration_iff (h : UnorderedForm boundary fields photo)
    {other : CxxText} {otherHead otherClosing : Bytes} {otherOrder : List FormPart}
    (horder : order.Perm (formParts fields photo))
    (hother : otherOrder.Perm (formParts fields photo))
    (hrequest : OrderedRequest request head boundary closing order)
    (hotherRequest : OrderedRequest other otherHead boundary otherClosing otherOrder) :
    (PhotoLast order photo → PhotoLast otherOrder photo →
      ∃ bytes,SameRegistration request.bytes other.bytes bytes ∧
        (photo.Plain → bytes=photo.bytes)) ∧
    ((∀ field ∈ fields,¬contentType<:+:field.name) →
      ((∃ bytes,SameRegistration request.bytes other.bytes bytes) ↔
        PhotoLast order photo ∧ PhotoLast otherOrder photo)) := by
  have hsame : PhotoLast order photo → PhotoLast otherOrder photo →
      SameRegistration request.bytes other.bytes (shownBytes photo) := by
    intro hlast hotherLast
    obtain ⟨form,hform,hfields,hfile⟩ := parse_photoLast h hrequest horder hlast
    obtain ⟨otherForm,hotherForm,hotherFields,hotherFile⟩ :=
      parse_photoLast h hotherRequest hother hotherLast
    exact ⟨form,otherForm,hform,hotherForm,hfields.trans hotherFields.symm,hfile,hotherFile⟩
  refine ⟨fun hlast hotherLast =>
    ⟨shownBytes photo,hsame hlast hotherLast,shownBytes_plain h.oneLine⟩,fun huntyped => ?_⟩
  constructor
  · rintro ⟨bytes,form,otherForm,hform,hotherForm,_,hfile,hotherFile⟩
    exact ⟨photoLast_of_returns h huntyped hrequest horder hform ⟨bytes,hfile⟩,
      photoLast_of_returns h huntyped hotherRequest hother hotherForm ⟨bytes,hotherFile⟩⟩
  · rintro ⟨hlast,hotherLast⟩
    exact ⟨shownBytes photo,hsame hlast hotherLast⟩

end orders

section samples

/-- A login, an e-mail address and a password. -/
def accountFields : List TextField :=
  [⟨ascii "login",ascii "a"⟩,⟨ascii "email",ascii "b"⟩,⟨passwordName,ascii "c"⟩]

/-- A request of parts behind a header block that announces their boundary. -/
def accountRequest (order : List FormPart) : Bytes :=
  sampleHeader (ascii "--7")++encodeForm (ascii "--7") lineEnd order

/-- The fields of an account and a photo make a form. -/
theorem accountForm : UnorderedForm (ascii "--7") accountFields samplePhoto where
  ne := by decide
  noReturn := by decide
  noFeed := by decide
  password := ⟨⟨passwordName,ascii "c"⟩,by simp [accountFields],rfl⟩
  distinct := by decide
  names := List.forall_mem_cons.mpr ⟨⟨by decide,by decide,by decide⟩,List.forall_mem_cons.mpr
    ⟨⟨by decide,by decide,by decide⟩,List.forall_mem_singleton.mpr
      ⟨by decide,by decide,by decide⟩⟩⟩
  values := List.forall_mem_cons.mpr ⟨by decide,List.forall_mem_cons.mpr
    ⟨by decide,List.forall_mem_singleton.mpr (by decide)⟩⟩
  oneLine := samplePhoto_oneLine
  free := free_of_find? (by decide +kernel)
  long := fun part _ => delimiter_le_encode (by decide) part

/-- The header block announces the boundary in front of any parts. -/
theorem accountRequest_ordered (order : List FormPart)
    (hs : (accountRequest order).length ≤ maxSize) :
    OrderedRequest ⟨accountRequest order,hs⟩ (sampleHeader (ascii "--7")) (ascii "--7") lineEnd
      order where
  body := rfl
  closed := Or.inr rfl
  shows := FirstBegins.append ⟨60,by decide +kernel,by decide +kernel⟩ _
  first := find?_firstDelimiter ⟨72,by decide +kernel,by decide +kernel⟩ (by decide +kernel)
    (by decide) lineEnd order

/-- The login and the e-mail address may change places. -/
theorem registration_reordered :
    SameRegistration (accountRequest (formParts accountFields samplePhoto))
      (accountRequest (formParts
        [⟨ascii "email",ascii "b"⟩,⟨ascii "login",ascii "a"⟩,⟨passwordName,ascii "c"⟩] samplePhoto))
      samplePhoto.bytes := by
  have horder : (formParts [⟨ascii "email",ascii "b"⟩,⟨ascii "login",ascii "a"⟩,
      ⟨passwordName,ascii "c"⟩] samplePhoto).Perm (formParts accountFields samplePhoto) :=
    ((List.Perm.swap _ _ _).map _).append_right _
  obtain ⟨bytes,hsame,hbytes⟩ := (same_registration_iff accountForm (List.Perm.refl _) horder
    (accountRequest_ordered _ (by decide +kernel))
    (accountRequest_ordered _ (by decide +kernel))).1 ⟨_::_::[],_,rfl,rfl⟩ ⟨_::_::[],_,rfl,rfl⟩
  rw [←hbytes ⟨by decide,by decide⟩]
  exact hsame

/-- With the e-mail address behind the password the parse raises. -/
theorem registration_misordered :
    UnorderedForm (ascii "--7") accountFields samplePhoto ∧
      ∃ order request other,order.Perm (formParts accountFields samplePhoto) ∧
        OrderedRequest request (sampleHeader (ascii "--7")) (ascii "--7") lineEnd
          (formParts accountFields samplePhoto) ∧
        OrderedRequest other (sampleHeader (ascii "--7")) (ascii "--7") lineEnd order ∧
        ¬Returns (AuthFormData.parse .lenient other.bytes emptyForm) ∧
        ¬∃ bytes,SameRegistration request.bytes other.bytes bytes := by
  have hraises : (match AuthFormData.parse .lenient (accountRequest (formParts
      [⟨ascii "login",ascii "a"⟩,⟨passwordName,ascii "c"⟩,⟨ascii "email",ascii "b"⟩] samplePhoto))
      emptyForm with
    | .ok _ => false
    | .error _ => true)=true := by decide +kernel
  have hlost : ¬Returns (AuthFormData.parse .lenient (accountRequest (formParts
      [⟨ascii "login",ascii "a"⟩,⟨passwordName,ascii "c"⟩,⟨ascii "email",ascii "b"⟩] samplePhoto))
      emptyForm) := by
    rintro ⟨form,hform⟩
    rw [hform] at hraises
    cases hraises
  refine ⟨accountForm,_,_,_,(((List.Perm.swap _ _ _).cons _).map _).append_right _,
    accountRequest_ordered _ (by decide +kernel),accountRequest_ordered _ (by decide +kernel),hlost,?_⟩
  rintro ⟨_,_,otherForm,_,hother,_⟩
  exact hlost ⟨otherForm,hother⟩

end samples

end Photogram.AuthFormOrders
