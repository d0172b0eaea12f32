import Photogram.AuthFormEncoding
import Photogram.AuthParserSafety
import Photogram.AuthReceive

/-!
# Upload of a profile photo

A form with one photo part behind a header block. The boundary is read back
from the header block, the first delimiter is the one the form begins with
and the second the one behind the photo: no part of a photo is as short as a
delimiter of legal length. The photo and its type are therefore recovered
whatever its bytes are.
-/

namespace Photogram.AuthPhotoForm

open CxxString QueryString AuthRequest AuthFormData AuthFormParts FormDataRoundTrip
open AuthFormEncoding AuthHttpParser AuthParserSafety AuthReceive
open FormDataParser (FormPart delimiter encodeForm lineEnd headersEnd quoted)

/-- Literal the boundary is searched by. -/
def boundaryLiteral : Bytes := ascii "boundary=-"

/-- Header text that shows a boundary. -/
def boundaryLine (boundary : Bytes) : Bytes := ascii "boundary="++boundary

section boundaries

variable {request head boundary : Bytes}

/-- A boundary shown by the first literal gives its delimiter as separator. -/
theorem getSeparator_begins (hs : request.length ≤ maxSize) (hreturn : (13 : UInt8) ∉ boundary)
    (h : FirstBegins request boundaryLiteral (boundaryLine boundary++crlf)) :
    getSeparator request=.ok (delimiter boundary) := by
  obtain ⟨p,hfirst,hbegin⟩ := h
  have hinside := (find?_bounds hfirst).2
  have hline : (13 : UInt8) ∉ boundaryLine boundary := by
    unfold boundaryLine
    rw [List.mem_append,not_or]
    exact ⟨by decide,hreturn⟩
  have hvalue : lineFrom request p (p+9)=boundary := by
    have hlen : (ascii "boundary=").length=9 := by decide
    rw [lineFrom_begins hbegin (by omega) (not_crlf_isInfix hline) (by
      unfold boundaryLine
      rw [List.length_append]
      omega)]
    exact List.drop_left' hlen
  exact (getSeparator_eq_iff hs _).mpr ⟨p,hfirst,congrArg (ascii "--"++·) hvalue.symm⟩

/-- A header block that ends with its first blank line, cut in front of it. -/
theorem endsAtBlankLine_split (h : EndsAtBlankLine head) : ∃ before,head=before++blankLine := by
  obtain ⟨p,hfirst,hlen⟩ := h
  obtain ⟨after,hafter⟩ := (find?_eq_some_iff.mp hfirst).2.1.2
  have hnil : after=[] := by
    have hlength := congrArg List.length hafter
    rw [List.length_append,List.length_drop] at hlength
    have hfour : blankLine.length=4 := by decide
    exact List.eq_nil_of_length_eq_zero (by omega)
  refine ⟨head.take p,?_⟩
  rw [←List.append_nil blankLine,←hnil,hafter,List.take_append_drop]

/-- The first delimiter stands behind a header block that has none. -/
theorem find?_firstDelimiter (hhead : EndsAtBlankLine head) (hfree : ¬delimiter boundary<:+:head)
    (hfeed : (10 : UInt8) ∉ boundary) (closing : Bytes) (parts : List FormPart) :
    find? (head++encodeForm boundary closing parts) (delimiter boundary) 0=some head.length := by
  obtain ⟨start,hstart⟩ := endsAtBlankLine_split hhead
  obtain ⟨before,rfl⟩ : ∃ before,head=before++[10] :=
    ⟨start++ascii "\r\n\r",by rw [hstart,List.append_assoc]; rfl⟩
  obtain ⟨rest,hrest⟩ := encodeForm_delimiter boundary closing parts
  have hlf : (10 : UInt8) ∉ delimiter boundary := not_mem_delimiter (by decide) hfeed
  have hbefore : ¬delimiter boundary<:+:before := fun hin =>
    hfree (hin.trans (List.prefix_append _ _).isInfix)
  have hfound : find? (delimiter boundary++rest) (delimiter boundary) 0=some 0 :=
    find?_of_occurs ⟨Nat.zero_le _,List.prefix_append _ _⟩
  rw [hrest,List.append_assoc,List.singleton_append,
    find?_around hlf (delimiter_ne_nil boundary) hbefore,hfound,List.length_append]
  rfl

/-- A photo part is longer than every delimiter of legal length. -/
theorem photo_encode_length (photo : Photo) : 74 ≤ photo.part.encode.length := by
  have hdisposition : 52 ≤ photo.part.disposition.length := by
    have hsplit : photo.part.disposition=
        ascii "Content-Disposition: form-data; name="++(ascii "\""++(photo.name++(ascii "\""++
          (ascii "; filename="++(ascii "\""++(photo.filename++ascii "\"")))))) := by
      simp [FormPart.disposition,Photo.part,quoted]
    rw [hsplit]
    simp only [List.length_append]
    change 52 ≤ 37+(1+(_+(1+(11+(1+(_+1))))))
    omega
  rw [encode_length,photo_headers]
  simp only [List.length_append]
  change 74 ≤ _+(2+(14+_))+4+_+2
  omega

/-- A form taken apart behind its first delimiter line. -/
theorem encodeForm_split (head boundary closing : Bytes) (part : FormPart) (parts : List FormPart) :
    head++encodeForm boundary closing (part::parts)=
      (head++(delimiter boundary++lineEnd))++([]++(part.encode++
        encodeForm boundary closing parts)) := by
  conv_lhs => unfold encodeForm
  simp only [List.append_assoc,List.nil_append]

/-- Length of a text and a delimiter line behind it. -/
theorem delimiterLine_length (head boundary : Bytes) :
    (head++(delimiter boundary++lineEnd)).length=head.length+(delimiter boundary).length+2 := by
  simp only [List.length_append]
  change _+(_+2)=_
  omega

end boundaries

/-- A form with one photo behind a header block that shows its boundary. -/
structure PhotoForm (head boundary : Bytes) (photo : Photo) : Prop where
  /-- The header block ends with its first blank line. -/
  blank : EndsAtBlankLine head
  /-- The first boundary that starts with a dash is the form's, and ends its line. -/
  shows : FirstBegins head boundaryLiteral (boundaryLine boundary++crlf)
  /-- The boundary has a legal length. -/
  short : boundary.length ≤ 70
  /-- It has no carriage return. -/
  noReturn : (13 : UInt8) ∉ boundary
  /-- It has no line feed. -/
  noFeed : (10 : UInt8) ∉ boundary
  /-- The header block does not hold the delimiter. -/
  headFree : ¬delimiter boundary<:+:head
  /-- Nor do the header lines of the photo. -/
  headersFree : ¬delimiter boundary<:+:photo.part.headers
  /-- Nor do its bytes. -/
  bytesFree : ¬delimiter boundary<:+:photo.bytes
  /-- The header lines of the photo are well formed. -/
  oneLine : photo.OneLine
  /-- Its names do not show a content type. -/
  plain : photo.Plain

/-- Position of the first byte of the photo of a form. -/
def photoPosition (head boundary : Bytes) (photo : Photo) : ℕ :=
  head.length+(delimiter boundary).length+2+photo.part.headers.length+4

section forms

variable {head boundary closing : Bytes} {photo : Photo}

/-- Parsing the form records the type of the photo and where its bytes are. -/
theorem parsePhotoOnly_form (h : PhotoForm head boundary photo)
    (hs : (head++encodeForm boundary closing [photo.part]).length ≤ maxSize) (state : FormState) :
    ∃ name,parsePhotoOnly .lenient (head++encodeForm boundary closing [photo.part]) state=
      .ok ⟨state.userProperties.insert photoTypeKey photo.type,
        state.filesCoordinates.insert name
          (photoPosition head boundary photo,photo.bytes.length)⟩ := by
  have hm := maxSize_lt_npos
  have hhalf : 2*maxSize+2=sizeModulus := by decide
  have hdelimiter := delimiter_length boundary
  have hlong := photo_encode_length photo
  have hshort := h.short
  have hsplit := encodeForm_split head boundary closing photo.part []
  have hbefore := delimiterLine_length head boundary
  have hfirst := find?_firstDelimiter h.blank h.headFree h.noFeed closing [photo.part]
  have hnext := find?_nextDelimiter closing h.headersFree h.bytesFree h.noReturn h.noFeed head []
  have hend := (find?_bounds hnext).2
  have hlast : find? (head++encodeForm boundary closing [photo.part]) (delimiter boundary)
      (head.length+(delimiter boundary).length+2+(delimiter boundary).length)=
        some (head.length+(delimiter boundary).length+2+photo.part.encode.length) :=
    find?_from hnext (by omega) (by omega)
  have hrecord := addPhoto_photo h.oneLine (Or.inl rfl) ((plain_iff photo).mpr h.plain)
    (head++(delimiter boundary++lineEnd)) (encodeForm boundary closing [])
    (by rw [←hsplit]; exact hs) state
  rw [←hsplit,hbefore,List.length_nil,Nat.add_zero] at hrecord
  refine ⟨fileName (head++encodeForm boundary closing [photo.part])
    (head.length+(delimiter boundary).length+2),?_⟩
  unfold parsePhotoOnly
  rw [getSeparator_begins hs h.noReturn (h.shows.append _),ok_bind]
  dsimp only
  rw [find_of_some hfirst,if_neg (by omega)]
  have hstart : addSize head.length ((delimiter boundary).length+2)=
      head.length+(delimiter boundary).length+2 := by
    rw [addSize_eq (by omega)]
    omega
  rw [hstart,addSize_eq (by omega),find_of_some hlast,if_neg (by omega)]
  exact hrecord

/-- The bytes of the photo are the ones at its position. -/
theorem substr_photoPosition (head boundary closing : Bytes) (photo : Photo) :
    substr (head++encodeForm boundary closing [photo.part]) (photoPosition head boundary photo)
      photo.bytes.length=.ok photo.bytes := by
  have hsplit := encodeForm_split head boundary closing photo.part []
  have hbefore := delimiterLine_length head boundary
  have hcut := substr_photo photo (head++(delimiter boundary++lineEnd)) []
    (encodeForm boundary closing [])
  rw [←hsplit,hbefore,List.length_nil,Nat.add_zero] at hcut
  exact hcut

/-- The first file of the parsed form is the photo. -/
theorem firstFile_form (name head boundary closing : Bytes) (photo : Photo) :
    firstFile (head++encodeForm boundary closing [photo.part])
        ((∅ : FileMap).insert name (photoPosition head boundary photo,photo.bytes.length))=
      .ok photo.bytes := by
  unfold firstFile
  rw [mapBegin_insert,ok_bind]
  exact substr_photoPosition head boundary closing photo

end forms

/-- Method token of an upload. -/
def uploadMethod : Bytes := ascii "POST"

/-- Path of an upload, behind the method token. -/
def uploadPath : Bytes := ascii " /updateProfilePhoto"

/-- A complete upload of a photo: the header block in front of a body that is
a form with the photo. -/
structure PhotoUpload (head boundary closing : Bytes) (photo : Photo) : Prop where
  /-- The request line asks for the upload; its path is ended by a blank or a question mark. -/
  line : ∃ c rest,(c=32 ∨ c=63) ∧ head=uploadMethod++(uploadPath++c::rest)
  /-- There is an origin. -/
  origin : originHeader<:+:head
  /-- There is an access token. -/
  bearer : bearerPrefix<:+:head
  /-- The first Content-Length is the length of the body, a number below 2^31. -/
  length : ∃ digits : Bytes,digits≠[] ∧ digits.all isDigit=true ∧
    decimalValue digits=(encodeForm boundary closing [photo.part]).length ∧
    decimalValue digits<2^31 ∧ FirstBegins head contentLengthHeader (contentLengthHeader++digits++crlf)
  /-- The header block shows the boundary of the form. -/
  form : PhotoForm head boundary photo

section uploads

variable {head boundary closing tail : Bytes} {photo : Photo}

/-- A method token without the first character of a needle is skipped. -/
theorem isInfix_uploadPath {needle rest : Bytes} (hn : needle≠[]) (hslash : (47 : UInt8) ∉ needle)
    (hfree : ¬needle<:+:ascii "POST ") (h : needle<:+:uploadMethod++(uploadPath++rest)) :
    needle<:+:uploadPath++rest := by
  have hsplit : uploadMethod++(uploadPath++rest)=
      ascii "POST "++47::(ascii "updateProfilePhoto"++rest) := by
    have hline : uploadMethod++uploadPath=ascii "POST "++47::ascii "updateProfilePhoto" := by decide
    rw [←List.append_assoc,hline,List.append_assoc,List.cons_append]
  rw [hsplit,isInfix_around hslash hn] at h
  have hpath : uploadPath++rest=ascii " /"++(ascii "updateProfilePhoto"++rest) := by
    have hline : uploadPath=ascii " /"++ascii "updateProfilePhoto" := by decide
    rw [hline,List.append_assoc]
  rw [hpath]
  exact (h.resolve_left hfree).trans (List.suffix_append _ _).isInfix

/-- Behind the method token the form is the same. -/
theorem PhotoForm.behind_method (h : PhotoForm (uploadMethod++tail) boundary photo) :
    PhotoForm tail boundary photo where
  blank := by
    obtain ⟨p,hfirst,hend⟩ := h.blank
    have hskip : find? (uploadMethod++tail) blankLine 0=(find? tail blankLine 0).map (4+·) :=
      find?_skip rfl (by decide) tail
    rw [hskip] at hfirst
    obtain ⟨q,hq,rfl⟩ := Option.map_eq_some_iff.mp hfirst
    have hlen : (uploadMethod++tail).length=4+tail.length := List.length_append
    exact ⟨q,hq,by omega⟩
  shows := by
    refine h.shows.behind fun p hp hocc => ?_
    have hhead : (uploadMethod++tail)[p]?=some 98 := hocc.head
    rw [List.getElem?_append_left hp] at hhead
    exact absurd (List.mem_of_getElem? hhead) (by decide)
  short := h.short
  noReturn := h.noReturn
  noFeed := h.noFeed
  headFree := fun hin => h.headFree (hin.trans (List.suffix_append _ _).isInfix)
  headersFree := h.headersFree
  bytesFree := h.bytesFree
  oneLine := h.oneLine
  plain := h.plain

/-- An upload is recognized as a POST request. -/
theorem getReqT_upload (rest : Bytes) :
    getReqT (uploadMethod++(uploadPath++rest))=some ⟨.post,4⟩ := by
  have hsplit : uploadMethod++(uploadPath++rest)=
      ascii "POST /updateProfilePhoto"++rest := by
    have hline : uploadMethod++uploadPath=ascii "POST /updateProfilePhoto" := by decide
    rw [←List.append_assoc,hline]
  have hblank : find? (ascii "POST /updateProfilePhoto") (ascii " ") 0=some 4 := by decide +kernel
  rw [hsplit,getReqT_append (by decide) hblank]
  decide +kernel

/-- Behind the method token an upload asks for the update of the photo. -/
theorem getPostMsg_upload {c : UInt8} (hc : c=32 ∨ c=63) (rest : Bytes)
    (hs : (uploadPath++c::rest).length ≤ maxSize) :
    getPostMsg (uploadPath++c::rest)=.ok (some .updateProfilePhoto) := by
  have hsplit : uploadPath++c::rest=(uploadPath++[c])++rest := by
    rw [List.append_assoc,List.singleton_append]
  rw [hsplit] at hs ⊢
  rcases hc with rfl|rfl
  · exact getMsg_append hs (by decide +kernel : find? _ _ 0=some 1)
      (by decide +kernel : _=some 19) (by decide) (by decide +kernel) (by decide)
  · exact getMsg_append hs (by decide +kernel : find? _ _ 0=some 1)
      (by decide +kernel : _=some 19) (by decide) (by decide +kernel) (by decide)

/-- An upload is a complete request. -/
theorem checkIsFullRequest_upload (h : PhotoUpload head boundary closing photo)
    (hs : (head++encodeForm boundary closing [photo.part]).length ≤ maxSize) :
    checkIsFullRequest (head++encodeForm boundary closing [photo.part]) .post=.ok .success := by
  obtain ⟨digits,hne,hdigits,hvalue,hrange,hlength⟩ := h.length
  rw [checkIsFullRequest_length hs h.form.blank hne hdigits hlength,if_pos hrange,hvalue]
  exact congrArg Except.ok (if_pos rfl)

/-- The fields of an upload: the access token, the type of the photo and its bytes. -/
theorem parsePostFields_upload {setting : ParserSetting} (hreading : setting.reading=.lenient)
    (hbearer : bearerPrefix<:+:tail) (hform : PhotoForm tail boundary photo)
    (hs : (tail++encodeForm boundary closing [photo.part]).length ≤ maxSize) (origin : Bytes) :
    ∃ postInfo,
      parsePostFields setting (tail++encodeForm boundary closing [photo.part])
        {emptyPostInfo with origin := origin,msg := .updateProfilePhoto}=.ok postInfo ∧
      postInfo.binaryData=photo.bytes ∧ postInfo.userProperties[photoTypeKey]?=some photo.type := by
  obtain ⟨accessToken,htoken⟩ := (returns_getValueWithSpace_iff hs (by decide)).mpr
    (hbearer.trans (List.prefix_append tail (encodeForm boundary closing [photo.part])).isInfix)
  obtain ⟨name,hparse⟩ := parsePhotoOnly_form hform hs emptyForm
  have hfile := firstFile_form name tail boundary closing photo
  refine ⟨⟨origin,.updateProfilePhoto,.null,accessToken,(∅ : PropertyMap).insert photoTypeKey photo.type,
    (∅ : FileMap).insert name (photoPosition tail boundary photo,photo.bytes.length),photo.bytes⟩,
    ?_,rfl,Std.ExtTreeMap.getElem?_insert_self⟩
  unfold parsePostFields
  dsimp only
  rw [htoken,ok_bind,hreading]
  change (parsePhotoOnly .lenient _ emptyForm>>=_)=_
  rw [hparse,ok_bind]
  change (firstFile _ ((∅ : FileMap).insert _ _)>>=_)=_
  rw [hfile]
  rfl

/-- Parsing an upload behind its method token. -/
theorem parsePostT_upload {setting : ParserSetting} (hreading : setting.reading=.lenient)
    {c : UInt8} {rest : Bytes} (hc : c=32 ∨ c=63) (htail : tail=uploadPath++c::rest)
    (horigin : originHeader<:+:tail) (hbearer : bearerPrefix<:+:tail)
    (hform : PhotoForm tail boundary photo)
    (hs : (tail++encodeForm boundary closing [photo.part]).length ≤ maxSize) :
    ∃ postInfo,parsePostT setting (tail++encodeForm boundary closing [photo.part])=
        .ok (true,.post postInfo) ∧ postInfo.binaryData=photo.bytes ∧
      postInfo.userProperties[photoTypeKey]?=some photo.type := by
  obtain ⟨p,hp⟩ := Option.isSome_iff_exists.mp (find?_zero_isSome_iff.mpr
    (horigin.trans (List.prefix_append tail (encodeForm boundary closing [photo.part])).isInfix))
  have horiginO := getValueSomeHeader_some hs (by decide) (by decide) hp
  have hmsg : getPostMsg (tail++encodeForm boundary closing [photo.part])=
      .ok (some .updateProfilePhoto) := by
    rw [htail,List.append_assoc,List.cons_append] at hs ⊢
    exact getPostMsg_upload hc _ hs
  obtain ⟨postInfo,hfields,hresult⟩ := parsePostFields_upload hreading hbearer hform hs
    (lineFrom (tail++encodeForm boundary closing [photo.part]) p (p+originHeader.length-1))
  refine ⟨postInfo,?_,hresult⟩
  unfold parsePostT parseMessage
  rw [horiginO,ok_bind]
  dsimp only
  rw [hmsg,ok_bind]
  dsimp only
  rw [hfields]
  rfl

/-- An upload is parsed with success, and the photo and its type are
recovered byte for byte. -/
theorem parse_upload (jsonParse : Bytes → Option JsonValue.Json)
    (h : PhotoUpload head boundary closing photo) (request : CxxText)
    (hrequest : request.bytes=head++encodeForm boundary closing [photo.part]) :
    ∃ postInfo,parse ⟨jsonParse,.lenient⟩ request.bytes=.ok (.success,.post postInfo) ∧
      postInfo.binaryData=photo.bytes ∧ postInfo.userProperties[photoTypeKey]?=some photo.type := by
  have hs := request.size_le
  rw [hrequest] at hs ⊢
  have hfull := checkIsFullRequest_upload h hs
  obtain ⟨c,rest,hc,rfl⟩ := h.line
  have hrecognized : getReqT (uploadMethod++(uploadPath++c::rest)++
      encodeForm boundary closing [photo.part])=some ⟨.post,4⟩ := by
    rw [List.append_assoc,List.append_assoc]
    exact getReqT_upload _
  have hdrop : (uploadMethod++(uploadPath++c::rest)++encodeForm boundary closing [photo.part]).drop 4=
      uploadPath++c::rest++encodeForm boundary closing [photo.part] := by
    rw [List.append_assoc]
    rfl
  have hrest : (uploadPath++c::rest++encodeForm boundary closing [photo.part]).length ≤ maxSize := by
    rw [←hdrop,List.length_drop]
    omega
  have hreading : (⟨jsonParse,.lenient⟩ : ParserSetting).reading=.lenient := rfl
  obtain ⟨postInfo,hparse,hresult⟩ := parsePostT_upload hreading hc rfl
    (isInfix_uploadPath (by decide) (by decide) (by decide) h.origin)
    (isInfix_uploadPath (by decide) (by decide) (by decide) h.bearer) h.form.behind_method hrest
  refine ⟨postInfo,?_,hresult⟩
  rw [parse_complete _ hs hrecognized hfull,hdrop]
  change (parsePostT _ _>>=_)=_
  rw [hparse]
  rfl

/-- A photo whose bytes look like the end of a header block. -/
def samplePhoto : Photo :=
  ⟨ascii "photo",ascii "f.png",ascii "image/png",ascii "\r\n\r\n--\r\n"⟩

/-- Its names and its type stay on their lines. -/
theorem samplePhoto_oneLine : samplePhoto.OneLine :=
  ⟨⟨by decide,by decide,by decide⟩,⟨by decide,by decide,by decide⟩,by decide,by decide⟩

/-- Header block of its upload. -/
def sampleHead : Bytes :=
  ascii "POST /updateProfilePhoto HTTP/1.1\r\n"++ascii "Origin: o\r\n"++
    ascii "Authorization: Bearer t\r\n"++ascii "Content-Type: multipart/form-data; "++
      ascii "boundary=--7\r\n"++ascii "Content-Length: 117\r\n\r\n"

/-- The sample is an upload. -/
theorem sampleUpload : PhotoUpload sampleHead (ascii "--7") lineEnd samplePhoto where
  line := ⟨32,sampleHead.drop 25,Or.inl rfl,by decide +kernel⟩
  origin := by decide +kernel
  bearer := by decide +kernel
  length := ⟨ascii "117",by decide,by decide,by decide +kernel,by decide,
    120,by decide +kernel,by decide +kernel⟩
  form := {
    blank := ⟨139,by decide +kernel,by decide +kernel⟩
    shows := ⟨106,by decide +kernel,by decide +kernel⟩
    short := by decide
    noReturn := by decide
    noFeed := by decide
    headFree := by decide +kernel
    headersFree := by decide +kernel
    bytesFree := by decide +kernel
    oneLine := samplePhoto_oneLine
    plain := ⟨by decide,by decide⟩ }

/-- The sample is parsed back. -/
theorem parse_sampleUpload :
    ∃ postInfo,
      parse ⟨fun _ => none,.lenient⟩ (sampleHead++encodeForm (ascii "--7") lineEnd [samplePhoto.part])=
        .ok (.success,.post postInfo) ∧
      postInfo.binaryData=samplePhoto.bytes ∧
      postInfo.userProperties[photoTypeKey]?=some samplePhoto.type :=
  parse_upload (fun _ => none) sampleUpload
    ⟨sampleHead++encodeForm (ascii "--7") lineEnd [samplePhoto.part],by decide +kernel⟩ rfl

end uploads

end Photogram.AuthPhotoForm
