import Photogram.AuthFormParts
import Photogram.AuthHttpParser

/-!
# Requests on which the parser stays defined

The condition follows the parser's branches on the request alone: which
literals occur, whether a slash stands behind the method, which message the
path names, whether the query, the length, the JSON text or the form is well
formed. The parser returns one of its statuses exactly under this condition;
otherwise an exception escapes it or an undefined operation is reached.
-/

namespace Photogram.AuthParserSafety

open CxxString QueryString AuthRequest AuthFormData AuthFormParts AuthHttpParser

/-- Text behind the first blank line. -/
def bodyOf (req : Bytes) : Bytes :=
  match find? req blankLine 0 with
  | none => []
  | some p => req.drop (p+4)

/-- The body is a JSON text. -/
def BodyDefined (setting : ParserSetting) (req : Bytes) : Prop :=
  (setting.jsonParse (bodyOf req)).isSome

/-- The separator text: two dashes and the boundary value. -/
def SeparatorIs (req separator : Bytes) : Prop :=
  ∃ p,find? req (ascii "boundary=-") 0=some p ∧ separator=ascii "--"++lineFrom req p (p+9)

/-- A registration form whose photo parts all have a type, and whose file
of least name starts inside the request. Taken strictly there is none. -/
def RegistrationDefined (reading : StorageReading) (req : Bytes) : Prop :=
  reading=.lenient ∧ ∃ separator,SeparatorIs req separator ∧ separator<:+:req ∧
    (∀ part ∈ photoParts req (visitedParts req separator),HasType req part) ∧
    ∃ file others,
      (fileTable req (photoParts req (visitedParts req separator)) ∅).toList=file::others ∧
      file.2.1 ≤ req.length

/-- A form whose first part has a type and four more bytes behind it.
Taken strictly there is none. -/
def PhotoOnlyDefined (reading : StorageReading) (req : Bytes) : Prop :=
  reading=.lenient ∧ ∃ separator,SeparatorIs req separator ∧ separator<:+:req ∧
    ∃ part,(visitedParts req separator).head?=some part ∧ HasType req part ∧
      photoStart req part.1 ≤ req.length

/-- The literals and texts a POST message asks for. -/
def PostFieldsDefined (setting : ParserSetting) (req : Bytes) : EPostMsg → Prop
  | .login => BodyDefined setting req
  | .registration => RegistrationDefined setting.reading req
  | .updateProfilePhoto => bearerPrefix<:+:req ∧ PhotoOnlyDefined setting.reading req
  | .updateProfileData | .updateProfilePassword =>
    bearerPrefix<:+:req ∧ BodyDefined setting req

/-- The literals and the query a GET message asks for. -/
def GetFieldsDefined (req : Bytes) : EGetMsg → Prop
  | .getNewToken => refreshTokenPrefix<:+:req
  | _ => bearerPrefix<:+:req ∧ QueryReady False False (queryRegion (req.drop 4))

/-- A request with an origin has a slash, and the fields of the message its
path names are well formed. -/
def MessageDefined {μ : Type} (names : List (Bytes×μ)) (fields : μ → Prop) (req : Bytes) : Prop :=
  originHeader<:+:req → 47 ∈ req ∧ ∀ msg,getMsg names req=.ok (some msg) → fields msg

/-- A length literal is followed by a number of the int type. -/
def LengthDefined (request : Bytes) : Prop :=
  ∃ p,find? request contentLengthHeader 0=some p ∧ Returns (stoi (lineFrom request p (p+15)))

/-- The requests on which the parser stays defined. -/
def ParseDefined (setting : ParserSetting) (request : Bytes) : Prop :=
  ∀ type,getReqT request=some type → blankLine<:+:request →
    match type.type with
    | .get => MessageDefined getMsgNames (GetFieldsDefined (request.drop type.size))
        (request.drop type.size)
    | .post => LengthDefined request ∧
        (checkIsFullRequest request .post=.ok .success →
          MessageDefined postMsgNames (PostFieldsDefined setting (request.drop type.size))
            (request.drop type.size))
    | _ => True

section lookups

variable {req : Bytes}

/-- The path lookup returns exactly when a slash occurs. -/
theorem returns_getMsg_iff {μ : Type} (names : List (Bytes×μ)) (hs : req.length ≤ maxSize) :
    Returns (getMsg names req) ↔ 47 ∈ req := by
  have hslash : 47 ∈ req ↔ ascii "/"<:+:req := by
    constructor
    · intro h
      obtain ⟨before,after,rfl⟩ := List.append_of_mem h
      exact ⟨before,after,by rw [List.append_assoc]; rfl⟩
    · exact fun h => h.subset (by decide)
  have hm := maxSize_lt_npos
  have hnm := npos_lt_sizeModulus
  rw [hslash,←find?_zero_isSome_iff]
  unfold getMsg
  dsimp only
  cases hf : find? req (ascii "/") 0 with
  | none =>
    rw [find_of_none hf,substr_of_lt _ (by omega),error_bind]
    exact iff_of_false (not_returns_error _) (by simp)
  | some p =>
    have hb : p+1 ≤ req.length := (find?_bounds hf).2
    rw [find_of_some hf,substr_of_le _ (by omega),ok_bind]
    refine iff_of_true ?_ rfl
    split
    · exact returns_ok _
    · rw [addSize_eq (by omega),substr_of_le _ hb,ok_bind]
      exact returns_ok _

/-- The body is parsed behind the first blank line. -/
theorem returns_getBody_iff (setting : ParserSetting) (hs : req.length ≤ maxSize)
    (h : blankLine<:+:req) : Returns (getBody setting req) ↔ BodyDefined setting req := by
  obtain ⟨p,hf⟩ := Option.isSome_iff_exists.mp (find?_zero_isSome_iff.mpr h)
  have hb : p+4 ≤ req.length := (find?_bounds hf).2
  have hm : maxSize<sizeModulus := by decide
  simp only [getBody,BodyDefined,bodyOf,hf,find_of_some hf]
  rw [addSize_eq (by omega),substr_npos hs hb,ok_bind]
  cases hj : setting.jsonParse (req.drop (p+4)) with
  | none => exact iff_of_false (not_returns_error _) (by simp)
  | some value => exact iff_of_true (returns_ok _) rfl

/-- The separator is read from the boundary literal. -/
theorem getSeparator_eq_iff (hs : req.length ≤ maxSize) (separator : Bytes) :
    getSeparator req=.ok separator ↔ SeparatorIs req separator := by
  unfold getSeparator SeparatorIs
  cases hf : find? req (ascii "boundary=-") 0 with
  | none =>
    rw [getValueSomeHeader_none hf,ok_bind,optionalValue,error_bind]
    simp
  | some p =>
    have hl : (ascii "boundary=-").length=10 := rfl
    rw [getValueSomeHeader_some hs (by decide) (by decide) hf,ok_bind,optionalValue,ok_bind,hl]
    constructor
    · rintro ⟨⟩
      exact ⟨p,rfl,rfl⟩
    · rintro ⟨q,⟨⟩,rfl⟩
      rfl

/-- The separator is shorter than the request that carries its boundary. -/
theorem SeparatorIs.length {separator : Bytes} (h : SeparatorIs req separator) :
    separator≠[] ∧ separator.length<req.length ∧ 3 ≤ req.length := by
  obtain ⟨p,hf,rfl⟩ := h
  have hb : p+10 ≤ req.length := (find?_bounds hf).2
  have hl := cutAt_length_le req crlf p (p+9)
  have hd : (ascii "--").length=2 := rfl
  refine ⟨by simp [ascii],?_,by omega⟩
  rw [List.length_append,hd]
  change (lineFrom req p (p+9)).length ≤ _ at hl
  omega

/-- The file copied is the first of the map and has to start inside the request. -/
theorem returns_firstFile_iff (files : FileMap) :
    Returns (firstFile req files) ↔ ∃ file others,files.toList=file::others ∧
      file.2.1 ≤ req.length := by
  unfold firstFile mapBegin
  cases hl : files.toList with
  | nil =>
    rw [error_bind]
    exact iff_of_false (not_returns_error _) (by simp)
  | cons file others =>
    rw [ok_bind,returns_substr_iff]
    constructor
    · exact fun h => ⟨file,others,rfl,h⟩
    · rintro ⟨_,_,⟨⟩,h⟩
      exact h

/-- Parsing a registration form and copying its file returns exactly for a
well-formed registration. -/
theorem returns_registration_iff (reading : StorageReading) (hs : req.length ≤ maxSize) :
    Returns (AuthFormData.parse reading req emptyForm>>=fun form =>
      firstFile req form.filesCoordinates) ↔ RegistrationDefined reading req := by
  constructor
  · intro h
    obtain ⟨form,hform,hfile⟩ := (returns_bind _ _).mp h
    obtain ⟨separator,hsep,_⟩ := (returns_bind _ _).mp ⟨form,hform⟩
    have hsi := (getSeparator_eq_iff hs separator).mp hsep
    rw [AuthFormData.parse,hsep,ok_bind,separatorToPropertis] at hform
    dsimp only at hform
    split at hform
    · cases hform
    · next hfound =>
      rw [find_zero_eq_npos_iff hs,not_not] at hfound
      have hstart := visitedParts_start hs hsi.length.1 hsi.length.2.1 hfound
      rw [separatorLoop_eq reading hs] at hform
      change visitParts reading req (visitedParts req separator) false emptyForm=.ok form at hform
      cases reading with
      | strict =>
        have hempty := visitParts_strict hs hstart hform
        rw [returns_firstFile_iff,hempty] at hfile
        obtain ⟨file,others,hl,_⟩ := hfile
        have hnil : emptyForm.filesCoordinates.toList=[] := rfl
        rw [hnil] at hl
        cases hl
      | lenient =>
        have htext := visitParts_text hs hsi.length.2.2 hstart emptyForm
        rw [returns_firstFile_iff,htext.2 form hform] at hfile
        exact ⟨rfl,separator,hsi,hfound,htext.1.mp ⟨form,hform⟩,hfile⟩
  · rintro ⟨rfl,separator,hsi,hfound,htypes,hfile⟩
    have hsep := (getSeparator_eq_iff hs separator).mpr hsi
    have hstart := visitedParts_start hs hsi.length.1 hsi.length.2.1 hfound
    have htext := visitParts_text hs hsi.length.2.2 hstart emptyForm
    obtain ⟨form,hform⟩ := htext.1.mpr htypes
    have hne : ¬find req separator 0=npos := by
      rw [find_zero_eq_npos_iff hs,not_not]
      exact hfound
    have hparse : AuthFormData.parse .lenient req emptyForm=.ok form := by
      rw [AuthFormData.parse,hsep,ok_bind,separatorToPropertis]
      dsimp only
      rw [if_neg hne,separatorLoop_eq .lenient hs]
      exact hform
    rw [hparse,ok_bind,returns_firstFile_iff,htext.2 form hform]
    exact hfile

/-- A request has one separator at most. -/
theorem SeparatorIs.unique (hs : req.length ≤ maxSize) {separator other : Bytes}
    (h : SeparatorIs req separator) (hother : SeparatorIs req other) : other=separator := by
  have hget := (getSeparator_eq_iff hs separator).mpr h
  rw [(getSeparator_eq_iff hs other).mpr hother] at hget
  exact Except.ok.inj hget

/-- A photo part is recorded and copied exactly when, read leniently, it has
a type and four more bytes behind it. -/
theorem returns_photoPart_iff (reading : StorageReading) (hs : req.length ≤ maxSize)
    {start : ℕ} (hstart : start ≤ req.length) (finish : ℕ) :
    Returns (addPhoto reading req start finish emptyForm>>=fun form =>
      firstFile req form.filesCoordinates) ↔
      reading=.lenient ∧ HasType req (start,finish) ∧ photoStart req start ≤ req.length := by
  cases reading with
  | strict =>
    refine iff_of_false (fun h => ?_) (by simp)
    obtain ⟨form,hform,_⟩ := (returns_bind _ _).mp h
    exact addPhoto_strict hs hstart finish emptyForm ⟨form,hform⟩
  | lenient =>
    by_cases ht : HasType req (start,finish)
    · have hfiles : ((∅ : FileMap).insert (fileName req start)
          (photoCoordinates req (start,finish))).toList=
            [(fileName req start,photoCoordinates req (start,finish))] := rfl
      rw [addPhoto_lenient hs hstart finish emptyForm ht,ok_bind,returns_firstFile_iff]
      dsimp only [emptyForm]
      rw [hfiles]
      simp [photoCoordinates,ht]
    · rw [addPhoto_none .lenient hs hstart finish emptyForm ht,error_bind]
      exact iff_of_false (not_returns_error _) fun h => ht h.2.1

/-- A form without a separator of its own is no photo form. -/
theorem returns_photoOnly_none (reading : StorageReading) (hs : req.length ≤ maxSize)
    (h : ¬∃ separator,SeparatorIs req separator) :
    Returns (parsePhotoOnly reading req emptyForm>>=fun form =>
      firstFile req form.filesCoordinates) ↔ PhotoOnlyDefined reading req := by
  refine iff_of_false (fun hreturns => ?_) fun hdefined => ?_
  · obtain ⟨form,hform,_⟩ := (returns_bind _ _).mp hreturns
    obtain ⟨separator,hget,_⟩ := (returns_bind _ _).mp ⟨form,hform⟩
    exact h ⟨separator,(getSeparator_eq_iff hs separator).mp hget⟩
  · obtain ⟨_,separator,hseparator,_⟩ := hdefined
    exact h ⟨separator,hseparator⟩

/-- With its separator known, a photo form is one whose first part is a photo. -/
theorem photoOnlyDefined_iff (reading : StorageReading) (hs : req.length ≤ maxSize)
    {separator : Bytes} (h : SeparatorIs req separator) :
    PhotoOnlyDefined reading req ↔ reading=.lenient ∧ separator<:+:req ∧
      ∃ part,(visitedParts req separator).head?=some part ∧ HasType req part ∧
        photoStart req part.1 ≤ req.length := by
  constructor
  · rintro ⟨hreading,other,hother,hpart⟩
    cases h.unique hs hother
    exact ⟨hreading,hpart⟩
  · rintro ⟨hreading,hpart⟩
    exact ⟨hreading,separator,h,hpart⟩

/-- Parsing a single photo and copying it returns exactly for a well-formed
photo form. -/
theorem returns_photoOnly_iff (reading : StorageReading) (hs : req.length ≤ maxSize) :
    Returns (parsePhotoOnly reading req emptyForm>>=fun form =>
      firstFile req form.filesCoordinates) ↔ PhotoOnlyDefined reading req := by
  by_cases hsep : ∃ separator,SeparatorIs req separator
  swap
  · exact returns_photoOnly_none reading hs hsep
  obtain ⟨separator,hsi⟩ := hsep
  rw [photoOnlyDefined_iff reading hs hsi,parsePhotoOnly,(getSeparator_eq_iff hs separator).mpr hsi,
    ok_bind]
  dsimp only
  by_cases hfound : separator<:+:req
  swap
  · rw [if_pos ((find_zero_eq_npos_iff hs).mpr hfound),error_bind]
    exact iff_of_false (not_returns_error _) (fun h => hfound h.2.1)
  rw [if_neg (by rw [find_zero_eq_npos_iff hs,not_not]; exact hfound)]
  have hstart := visitedParts_start hs hsi.length.1 hsi.length.2.1 hfound
  simp only [visitedParts,partsFrom] at hstart ⊢
  change Returns ((if find req separator (addSize (firstStart req separator) separator.length)=npos
    then _ else addPhoto reading req (firstStart req separator)
      (find req separator (addSize (firstStart req separator) separator.length)) emptyForm)>>=_) ↔ _
  cases hf : find? req separator (addSize (firstStart req separator) separator.length) with
  | none =>
    rw [if_pos (find_of_none hf),error_bind]
    exact iff_of_false (not_returns_error _) (by simp)
  | some finish =>
    simp only [hf] at hstart
    rw [if_neg (by rw [find_eq_npos_iff hs,hf]; simp),find_of_some hf,
      returns_photoPart_iff reading hs (hstart _ List.mem_cons_self) finish]
    simp only [List.head?_cons,Option.some.injEq,exists_eq_left',hfound,true_and]

/-- A message behind a bearer returns exactly with the bearer and its rest. -/
theorem returns_bearer_iff {β : Type} (hs : req.length ≤ maxSize) {rest : Bytes → Except Failure β}
    {defined : Prop} (hrest : ∀ token,Returns (rest token) ↔ defined) :
    Returns (getValueWithSpace req bearerPrefix 0>>=rest) ↔ bearerPrefix<:+:req ∧ defined := by
  rw [returns_bind,←returns_getValueWithSpace_iff hs (by decide)]
  constructor
  · rintro ⟨token,htoken,h⟩
    exact ⟨⟨token,htoken⟩,(hrest token).mp h⟩
  · rintro ⟨⟨token,htoken⟩,h⟩
    exact ⟨token,htoken,(hrest token).mpr h⟩

/-- A guarded GET message returns exactly with a bearer and a ready query. -/
theorem returns_guarded_iff (hs : req.length ≤ maxSize) (properties : PropertyMap)
    (fill : Bytes → PropertyMap → GetTInfo) :
    Returns (do
      let accessToken ← getValueWithSpace req bearerPrefix 0
      let properties ← URLParser req properties 4
      return fill accessToken properties) ↔
      bearerPrefix<:+:req ∧ QueryReady False False (queryRegion (req.drop 4)) := by
  by_cases hbearer : bearerPrefix<:+:req
  · have hne : req≠[] := by
      rintro rfl
      exact absurd hbearer.length_le (by decide)
    exact returns_bearer_iff hs fun token =>
      (returns_map_iff _ (fill token)).trans (returns_scanQuery_iff properties hne (by decide))
  · refine iff_of_false (fun h => hbearer ?_) fun h => hbearer h.1
    obtain ⟨token,htoken,_⟩ := (returns_bind _ _).mp h
    exact (returns_getValueWithSpace_iff hs (by decide)).mp ⟨token,htoken⟩

/-- The fields of a GET message are parsed exactly when they are well formed. -/
theorem returns_parseGetFields_iff (hs : req.length ≤ maxSize) (info : GetTInfo) :
    Returns (parseGetFields req info) ↔ GetFieldsDefined req info.msg := by
  obtain ⟨origin,msg,refreshToken,accessToken,properties⟩ := info
  have hguarded := returns_guarded_iff hs properties fun accessToken properties =>
    ⟨origin,msg,refreshToken,accessToken,properties⟩
  cases msg with
  | getNewToken =>
    exact (returns_map_iff _ _).trans (returns_getValueWithSpace_iff hs (by decide))
  | getProfileByNickname => exact hguarded
  | getProfilePhoto => exact hguarded
  | getUsersList => exact hguarded
  | getPhotoById => exact hguarded
  | makeFriend => exact hguarded
  | deleteFriend => exact hguarded
  | getStatus => exact hguarded
  | getIdFsByAccess => exact hguarded

/-- A form message returns exactly when its form and its file do. -/
theorem returns_formMessage_iff {first : Except Failure FormState}
    (fill : FormState → Bytes → PostTInfo) :
    Returns (do
      let form ← first
      let file ← firstFile req form.filesCoordinates
      return fill form file) ↔
      Returns (first>>=fun form => firstFile req form.filesCoordinates) := by
  rw [returns_bind,returns_bind]
  constructor
  · rintro ⟨form,hform,hrest⟩
    obtain ⟨file,hfile,_⟩ := (returns_bind _ _).mp hrest
    exact ⟨form,hform,file,hfile⟩
  · rintro ⟨form,hform,file,hfile⟩
    exact ⟨form,hform,(returns_bind _ _).mpr ⟨file,hfile,returns_ok _⟩⟩

/-- A message that only fills in its JSON body returns exactly with the body. -/
theorem returns_jsonMessage_iff (setting : ParserSetting) (hs : req.length ≤ maxSize)
    (h : blankLine<:+:req) (fill : JsonValue.Json → PostTInfo) :
    Returns (do
      let jsonBody ← getBody setting req
      return fill jsonBody) ↔ BodyDefined setting req :=
  (returns_map_iff _ _).trans (returns_getBody_iff setting hs h)

/-- The fields of a fresh POST message are parsed exactly when they are well formed. -/
theorem returns_parsePostFields_iff (setting : ParserSetting) (hs : req.length ≤ maxSize)
    (h : blankLine<:+:req) (origin : Bytes) (msg : EPostMsg) :
    Returns (parsePostFields setting req {emptyPostInfo with origin := origin,msg := msg}) ↔
      PostFieldsDefined setting req msg := by
  cases msg with
  | login => exact returns_jsonMessage_iff setting hs h _
  | registration =>
    exact (returns_formMessage_iff _).trans (returns_registration_iff setting.reading hs)
  | updateProfilePhoto =>
    exact returns_bearer_iff hs fun token =>
      (returns_formMessage_iff _).trans (returns_photoOnly_iff setting.reading hs)
  | updateProfileData =>
    exact returns_bearer_iff hs fun token => returns_jsonMessage_iff setting hs h _
  | updateProfilePassword =>
    exact returns_bearer_iff hs fun token => returns_jsonMessage_iff setting hs h _

/-- The frame around a message returns exactly when the message is well formed. -/
theorem returns_parseMessage_iff {μ : Type} (names : List (Bytes×μ)) (hs : req.length ≤ maxSize)
    {fields : μ → Prop} (missing : HttpTypesInfo) (unknown : Bytes → HttpTypesInfo)
    {known : Bytes → μ → Except Failure HttpTypesInfo}
    (hknown : ∀ origin msg,Returns (known origin msg) ↔ fields msg) :
    Returns (parseMessage (getMsg names) missing unknown known req) ↔
      MessageDefined names fields req := by
  unfold MessageDefined parseMessage
  by_cases horigin : originHeader<:+:req
  swap
  · rw [getValueSomeHeader_none (find?_zero_eq_none_iff.mpr horigin),ok_bind]
    exact iff_of_true (returns_ok _) (fun h => absurd h horigin)
  obtain ⟨p,hf⟩ := Option.isSome_iff_exists.mp (find?_zero_isSome_iff.mpr horigin)
  rw [getValueSomeHeader_some hs (by decide) (by decide) hf,ok_bind,returns_bind,
    ←returns_getMsg_iff names hs]
  constructor
  · rintro ⟨msgO,hmsg,hrest⟩ _
    refine ⟨⟨msgO,hmsg⟩,?_⟩
    intro msg hsome
    rw [hmsg] at hsome
    cases hsome
    obtain ⟨info,hinfo,_⟩ := (returns_bind _ _).mp hrest
    exact (hknown _ msg).mp ⟨info,hinfo⟩
  · intro h
    obtain ⟨⟨msgO,hmsg⟩,hfields⟩ := h horigin
    refine ⟨msgO,hmsg,?_⟩
    cases msgO with
    | none => exact returns_ok _
    | some msg =>
      obtain ⟨info,hinfo⟩ := (hknown _ msg).mpr (hfields msg hmsg)
      exact (returns_bind _ _).mpr ⟨info,hinfo,returns_ok _⟩

/-- Parsing a GET request returns exactly when its message is well formed. -/
theorem returns_parseGetT_iff (hs : req.length ≤ maxSize) :
    Returns (parseGetT req) ↔ MessageDefined getMsgNames (GetFieldsDefined req) req :=
  returns_parseMessage_iff getMsgNames hs _ _ fun origin msg =>
    (returns_map_iff _ _).trans
      (returns_parseGetFields_iff hs {emptyGetInfo with origin := origin,msg := msg})

/-- Parsing a POST request returns exactly when its message is well formed. -/
theorem returns_parsePostT_iff (setting : ParserSetting) (hs : req.length ≤ maxSize)
    (h : blankLine<:+:req) : Returns (parsePostT setting req) ↔
      MessageDefined postMsgNames (PostFieldsDefined setting req) req :=
  returns_parseMessage_iff postMsgNames hs _ _ fun origin msg =>
    (returns_map_iff _ _).trans (returns_parsePostFields_iff setting hs h origin msg)

/-- Parsing an OPTIONS request always returns. -/
theorem returns_parseOptionsT (hs : req.length ≤ maxSize) : Returns (parseOptionsT req) := by
  have hreturns : Returns (getValueSomeHeader req originHeader 0) :=
    returns_getValueSomeHeader hs (by decide) (by decide)
  obtain ⟨originO,ho⟩ := hreturns
  rw [parseOptionsT,ho,ok_bind]
  cases originO <;> exact returns_ok _

/-- The completeness check of a POST with a blank line returns exactly when
its length is defined. -/
theorem returns_checkIsFullRequest_iff (hs : req.length ≤ maxSize) (h : blankLine<:+:req) :
    Returns (checkIsFullRequest req .post) ↔ LengthDefined req := by
  unfold checkIsFullRequest LengthDefined
  dsimp only
  rw [if_neg (by rw [find_zero_eq_npos_iff hs,not_not]; exact h),if_neg (by simp)]
  cases hf : find? req contentLengthHeader 0 with
  | none =>
    rw [getValueSomeHeader_none hf,ok_bind,optionalValue,error_bind]
    exact iff_of_false (not_returns_error _) (by simp)
  | some p =>
    have hl : contentLengthHeader.length=16 := rfl
    rw [getValueSomeHeader_some hs (by decide) (by decide) hf,ok_bind,optionalValue,ok_bind,hl,
      returns_bind]
    constructor
    · rintro ⟨value,hvalue,_⟩
      exact ⟨p,rfl,value,hvalue⟩
    · rintro ⟨_,⟨⟩,value,hvalue⟩
      refine ⟨value,hvalue,?_⟩
      split
      · exact returns_ok _
      · split <;> exact returns_ok _

end lookups

/-- The parser returns a status exactly on the requests on which it stays
defined; on every other one an exception escapes it or an undefined
operation is reached. -/
theorem returns_parse_iff (setting : ParserSetting) (request : CxxText) :
    Returns (AuthHttpParser.parse setting request.bytes) ↔ ParseDefined setting request.bytes := by
  obtain ⟨req,hs⟩ := request
  dsimp only
  unfold ParseDefined
  cases htype : getReqT req with
  | none =>
    rw [parse_unrecognized setting htype]
    exact iff_of_true (returns_ok _) (by simp)
  | some type =>
    simp only [Option.some.injEq,forall_eq']
    have hdrop : (req.drop type.size).length ≤ maxSize := by rw [List.length_drop]; omega
    by_cases hblank : blankLine<:+:req
    swap
    · rw [parse_incomplete setting htype (checkIsFullRequest_noBlank hs hblank _) (by simp)]
      exact iff_of_true (returns_ok _) (fun h => absurd h hblank)
    simp only [hblank,true_implies]
    by_cases hkind : type.type=.post
    · have hbehind := blankLine_behind_method htype (by rw [hkind]; rfl) hblank
      rw [hkind]
      dsimp only
      rw [←returns_checkIsFullRequest_iff hs hblank,←returns_parsePostT_iff setting hdrop hbehind]
      cases hcheck : checkIsFullRequest req .post with
      | error failure =>
        have hfail : AuthHttpParser.parse setting req=.error failure := by
          rw [AuthHttpParser.parse,htype]
          dsimp only
          rw [hkind,hcheck,error_bind]
        rw [hfail]
        exact iff_of_false (not_returns_error _) (fun h => not_returns_error _ h.1)
      | ok status =>
        by_cases hsuccess : status=.success
        · subst hsuccess
          rw [parse_complete setting hs htype (by rw [hkind]; exact hcheck),hkind]
          refine (returns_map_iff _ _).trans ?_
          simp
        · rw [parse_incomplete setting htype (by rw [hkind]; exact hcheck) hsuccess]
          simp [hsuccess]
    · rw [parse_complete setting hs htype (checkIsFullRequest_blank hs hblank hkind)]
      cases htoken : type.type with
      | get => exact (returns_map_iff _ _).trans (returns_parseGetT_iff hdrop)
      | post => exact absurd htoken hkind
      | options =>
        exact iff_of_true ((returns_map_iff _ _).mpr (returns_parseOptionsT hdrop)) trivial
      | head => exact iff_of_true (returns_ok _) trivial
      | put => exact iff_of_true (returns_ok _) trivial
      | deleteM => exact iff_of_true (returns_ok _) trivial
      | connect => exact iff_of_true (returns_ok _) trivial
      | trace => exact iff_of_true (returns_ok _) trivial
      | patch => exact iff_of_true (returns_ok _) trivial
      | notSupport => exact iff_of_true (returns_ok _) trivial

/-- A POST without a length literal dereferences an empty optional. -/
theorem parse_without_length :
    ¬∀ (setting : ParserSetting) (request : CxxText),Returns (AuthHttpParser.parse setting request.bytes) := by
  intro h
  have hp := h ⟨fun _ => none,.lenient⟩ ⟨ascii "POST /login HTTP/1.1\r\n\r\n",by decide⟩
  have hu : AuthHttpParser.parse ⟨fun _ => none,.lenient⟩ (ascii "POST /login HTTP/1.1\r\n\r\n")=
      .error (.undefined .emptyOptional) := rfl
  rw [hu] at hp
  exact not_returns_error _ hp

end Photogram.AuthParserSafety
