import Photogram.AuthReplies
import Photogram.AuthFormParts
import Photogram.HttpReader

/-!
# What a client reads of a reply

The senders splice the origin, the refresh token and the photo type into
their header blocks as they are. Each of these values was cut from a request
at its first line end, or made by the token library, so none of them holds a
line end, and a reader finds the lines the sender meant and the whole body
behind them.
-/

namespace Photogram.AuthResponseWire

open CxxString EffectLog JsonValue QueryString JwtToken AuthResponse AuthRequest AuthFormData
open AuthFormParts AuthHttpParser AuthConnection AuthReceive AuthDispatch AuthGuard
open AuthReplies HttpReader

section messages

/-- The line that allows an origin. -/
def allowOrigin (origin : Bytes) : Bytes := ascii "Access-Control-Allow-Origin: "++origin

/-- The line that names the length of a body. -/
def lengthLine (body : Bytes) : Bytes := lengthField++numeral body.length

/-- The line that sets the refresh token. -/
def cookieLine (refreshToken : Bytes) : Bytes :=
  ascii "Set-Cookie: refreshToken="++refreshToken++
    ascii "; HttpOnly; Path=/; Max-Age=604800; SameSite=Strict"

/-- The line that allows credentials. -/
def allowCredentials : Bytes := ascii "Access-Control-Allow-Credentials: true"

/-- The line of a JSON body. -/
def jsonLine : Bytes := ascii "Content-Type: application/json"

/-- The line of the protocol version. -/
def versionLine : Bytes := ascii "Version: HTTP/1.1"

/-- The status line of an answer. -/
def statusOk : Bytes := ascii "HTTP/1.1 200 OK"

/-- The message a reply is meant to carry. -/
def message (dump : Json → Except Failure Bytes) : Reply → Except Failure Message
  | .answerJson origin jsonBody => do
    let body ← dump jsonBody
    return ⟨statusOk,[versionLine,allowOrigin origin,jsonLine,lengthLine body],body⟩
  | .answerEmpty origin => return ⟨statusOk,[versionLine,allowOrigin origin,lengthLine []],[]⟩
  | .answerTokens origin refreshToken accessToken nickname => do
    let body ← dump (tokensBody accessToken nickname)
    return ⟨statusOk,[cookieLine refreshToken,allowOrigin origin,allowCredentials,jsonLine,
      lengthLine body],body⟩
  | .answerBinData origin type binData =>
    return ⟨statusOk,[versionLine,allowOrigin origin,ascii "Access-Control-Allow-Methods: GET",
      ascii "Content-Type: "++type,lengthLine binData],binData⟩
  | .answerOptions origin =>
    return ⟨ascii "HTTP/1.1 204 No Content",[allowOrigin origin,
      ascii "Access-Control-Allow-Methods: POST, GET, OPTIONS",
      ascii "Access-Control-Allow-Headers: Content-Type, Authorization",allowCredentials],[]⟩
  | .sendError origin errorCode textError => do
    let body ← dump (errorBody textError)
    return ⟨ascii "HTTP/1.1 "++errorCode++ascii " Unauthorized",[allowOrigin origin,
      allowCredentials,jsonLine,lengthLine body],body⟩

/-- The value holds no line end. -/
def Whole (value : Bytes) : Prop := ¬lineEnd<:+:value

/-- The values spliced into the header block hold no line end. -/
def Harmless : Reply → Prop
  | .answerJson origin _ | .answerEmpty origin | .answerOptions origin => Whole origin
  | .answerTokens origin refreshToken _ _ => Whole origin ∧ Whole refreshToken
  | .answerBinData origin type _ => Whole origin ∧ Whole type
  | .sendError origin errorCode _ => Whole origin ∧ isErrorCode errorCode

/-- The line end as a literal. -/
theorem lineEnd_ascii : lineEnd=ascii "\r\n" := by decide

/-- The head of an answer with a version line, up to its origin. -/
theorem head_version :
    ascii "HTTP/1.1 200 OK\r\nVersion: HTTP/1.1\r\nAccess-Control-Allow-Origin: "=
      statusOk++(lineEnd++(versionLine++(lineEnd++ascii "Access-Control-Allow-Origin: "))) := by
  simp only [statusOk,versionLine,lineEnd_ascii,←ascii_append,String.reduceAppend]

/-- Two line ends. -/
theorem blank_lineEnd : ascii "\r\n\r\n"=lineEnd++lineEnd := by decide +kernel

/-- The lines behind an origin, up to the length. -/
theorem credentials_json :
    ascii "\r\nAccess-Control-Allow-Credentials: true\r\nContent-Type: application/json\r\n"=
      lineEnd++(allowCredentials++(lineEnd++(jsonLine++lineEnd))) := by
  simp only [allowCredentials,jsonLine,lineEnd_ascii,←ascii_append,String.reduceAppend]

/-- The bytes of a JSON answer are those of its message. -/
theorem write_answerJson (origin body : Bytes) :
    ascii "HTTP/1.1 200 OK\r\nVersion: HTTP/1.1\r\nAccess-Control-Allow-Origin: "++origin++
      ascii "\r\nContent-Type: application/json\r\nContent-Length: "++sizeText body.length++
      ascii "\r\n\r\n"++body=
    Message.write ⟨statusOk,[versionLine,allowOrigin origin,jsonLine,lengthLine body],body⟩ := by
  have hmiddle : ascii "\r\nContent-Type: application/json\r\nContent-Length: "=
      lineEnd++(jsonLine++(lineEnd++lengthField)) := by
    simp only [jsonLine,lengthField,lineEnd_ascii,←ascii_append,String.reduceAppend]
  rw [head_version,hmiddle,blank_lineEnd]
  simp only [Message.write,List.flatMap_cons,List.flatMap_nil,List.append_nil,List.append_assoc,
    allowOrigin,lengthLine,numeral,sizeText]

/-- The bytes of an empty answer are those of its message. -/
theorem write_answerEmpty (origin : Bytes) :
    ascii "HTTP/1.1 200 OK\r\nVersion: HTTP/1.1\r\nAccess-Control-Allow-Origin: "++origin++
      ascii "\r\nContent-Length: 0\r\n\r\n"=
    Message.write ⟨statusOk,[versionLine,allowOrigin origin,lengthLine []],[]⟩ := by
  have hend : ascii "\r\nContent-Length: 0\r\n\r\n"=
      lineEnd++(lengthLine []++(lineEnd++lineEnd)) := by decide +kernel
  rw [head_version,hend]
  simp only [Message.write,List.flatMap_cons,List.flatMap_nil,List.append_nil,List.append_assoc,
    allowOrigin]

/-- The bytes of a token answer are those of its message. -/
theorem write_answerTokens (origin refreshToken body : Bytes) :
    ascii "HTTP/1.1 200 OK\r\nSet-Cookie: refreshToken="++refreshToken++
      ascii "; HttpOnly; Path=/; Max-Age=604800; SameSite=Strict\r\nAccess-Control-Allow-Origin: "++
      origin++
      ascii "\r\nAccess-Control-Allow-Credentials: true\r\nContent-Type: application/json\r\n"++
      ascii "Content-Length: "++sizeText body.length++ascii "\r\n\r\n"++body=
    Message.write ⟨statusOk,[cookieLine refreshToken,allowOrigin origin,allowCredentials,jsonLine,
      lengthLine body],body⟩ := by
  have hhead : ascii "HTTP/1.1 200 OK\r\nSet-Cookie: refreshToken="=
      statusOk++(lineEnd++ascii "Set-Cookie: refreshToken=") := by
    simp only [statusOk,lineEnd_ascii,←ascii_append,String.reduceAppend]
  have hcookie :
      ascii "; HttpOnly; Path=/; Max-Age=604800; SameSite=Strict\r\nAccess-Control-Allow-Origin: "=
        ascii "; HttpOnly; Path=/; Max-Age=604800; SameSite=Strict"++
          (lineEnd++ascii "Access-Control-Allow-Origin: ") := by
    simp only [lineEnd_ascii,←ascii_append,String.reduceAppend]
  rw [hhead,hcookie,credentials_json,blank_lineEnd]
  simp only [Message.write,List.flatMap_cons,List.flatMap_nil,List.append_nil,List.append_assoc,
    cookieLine,allowOrigin,lengthLine,lengthField,numeral,sizeText]

/-- The bytes of a photo answer are those of its message. -/
theorem write_answerBinData (origin type binData : Bytes) :
    ascii "HTTP/1.1 200 OK\r\nVersion: HTTP/1.1\r\nAccess-Control-Allow-Origin: "++origin++
      ascii "\r\nAccess-Control-Allow-Methods: GET\r\nContent-Type: "++type++
      ascii "\r\nContent-Length: "++sizeText binData.length++ascii "\r\n\r\n"++binData=
    Message.write ⟨statusOk,[versionLine,allowOrigin origin,
      ascii "Access-Control-Allow-Methods: GET",ascii "Content-Type: "++type,lengthLine binData],
      binData⟩ := by
  have htype : ascii "\r\nAccess-Control-Allow-Methods: GET\r\nContent-Type: "=
      lineEnd++(ascii "Access-Control-Allow-Methods: GET"++(lineEnd++ascii "Content-Type: ")) := by
    simp only [lineEnd_ascii,←ascii_append,String.reduceAppend]
  have hlength : ascii "\r\nContent-Length: "=lineEnd++lengthField := by decide +kernel
  rw [head_version,htype,hlength,blank_lineEnd]
  simp only [Message.write,List.flatMap_cons,List.flatMap_nil,List.append_nil,List.append_assoc,
    allowOrigin,lengthLine,numeral,sizeText]

/-- The bytes of the answer to OPTIONS are those of its message. -/
theorem write_answerOptions (origin : Bytes) :
    ascii "HTTP/1.1 204 No Content\r\nAccess-Control-Allow-Origin: "++origin++
      ascii "\r\nAccess-Control-Allow-Methods: POST, GET, OPTIONS\r\n"++
      ascii "Access-Control-Allow-Headers: Content-Type, Authorization\r\n"++
      ascii "Access-Control-Allow-Credentials: true\r\n\r\n"=
    Message.write ⟨ascii "HTTP/1.1 204 No Content",[allowOrigin origin,
      ascii "Access-Control-Allow-Methods: POST, GET, OPTIONS",
      ascii "Access-Control-Allow-Headers: Content-Type, Authorization",allowCredentials],[]⟩ := by
  have hhead : ascii "HTTP/1.1 204 No Content\r\nAccess-Control-Allow-Origin: "=
      ascii "HTTP/1.1 204 No Content"++(lineEnd++ascii "Access-Control-Allow-Origin: ") := by
    simp only [lineEnd_ascii,←ascii_append,String.reduceAppend]
  have hmethods : ascii "\r\nAccess-Control-Allow-Methods: POST, GET, OPTIONS\r\n"=
      lineEnd++(ascii "Access-Control-Allow-Methods: POST, GET, OPTIONS"++lineEnd) := by
    simp only [lineEnd_ascii,←ascii_append,String.reduceAppend]
  have hheaders : ascii "Access-Control-Allow-Headers: Content-Type, Authorization\r\n"=
      ascii "Access-Control-Allow-Headers: Content-Type, Authorization"++lineEnd := by
    simp only [lineEnd_ascii,←ascii_append,String.reduceAppend]
  have hend : ascii "Access-Control-Allow-Credentials: true\r\n\r\n"=
      allowCredentials++(lineEnd++lineEnd) := by
    simp only [allowCredentials,lineEnd_ascii,←ascii_append,String.reduceAppend]
  rw [hhead,hmethods,hheaders,hend]
  simp only [Message.write,List.flatMap_cons,List.flatMap_nil,List.append_nil,List.append_assoc,
    allowOrigin]

/-- The bytes of an error are those of its message. -/
theorem write_sendError (origin errorCode body : Bytes) :
    ascii "HTTP/1.1 "++errorCode++
      ascii " Unauthorized\r\nAccess-Control-Allow-Origin: "++origin++
      ascii "\r\nAccess-Control-Allow-Credentials: true\r\nContent-Type: application/json\r\n"++
      ascii "Content-Length: "++sizeText body.length++ascii "\r\n\r\n"++body=
    Message.write ⟨ascii "HTTP/1.1 "++errorCode++ascii " Unauthorized",[allowOrigin origin,
      allowCredentials,jsonLine,lengthLine body],body⟩ := by
  have hstatus : ascii " Unauthorized\r\nAccess-Control-Allow-Origin: "=
      ascii " Unauthorized"++(lineEnd++ascii "Access-Control-Allow-Origin: ") := by
    simp only [lineEnd_ascii,←ascii_append,String.reduceAppend]
  rw [hstatus,credentials_json,blank_lineEnd]
  simp only [Message.write,List.flatMap_cons,List.flatMap_nil,List.append_nil,List.append_assoc,
    allowOrigin,lengthLine,lengthField,numeral,sizeText]

/-- The bytes of a reply are those of its message. -/
theorem render_write {dump : Json → Except Failure Bytes} {reply : Reply} {sends : List Bytes}
    (h : reply.render dump=.ok sends) :
    ∃ sent,message dump reply=.ok sent ∧ sends.flatten=sent.write := by
  have hone : ∀ bytes : Bytes,[bytes].flatten=bytes := fun _ => List.append_nil _
  cases reply with
  | answerEmpty origin =>
    cases h
    exact ⟨_,rfl,(hone _).trans (write_answerEmpty origin)⟩
  | answerOptions origin =>
    cases h
    exact ⟨_,rfl,(hone _).trans (write_answerOptions origin)⟩
  | answerBinData origin type binData =>
    cases h
    refine ⟨_,rfl,Eq.trans ?_ (write_answerBinData origin type binData)⟩
    rw [List.flatten_cons,hone]
  | answerJson origin jsonBody =>
    obtain ⟨body,hbody,h⟩ := bind_eq_ok h
    cases h
    exact ⟨_,congrArg (·>>=_) hbody,(hone _).trans (write_answerJson origin body)⟩
  | answerTokens origin refreshToken accessToken nickname =>
    obtain ⟨body,hbody,h⟩ := bind_eq_ok h
    cases h
    exact ⟨_,congrArg (·>>=_) hbody,(hone _).trans (write_answerTokens origin refreshToken body)⟩
  | sendError origin errorCode textError =>
    obtain ⟨body,hbody,h⟩ := bind_eq_ok h
    cases h
    exact ⟨_,congrArg (·>>=_) hbody,(hone _).trans (write_sendError origin errorCode body)⟩

/-- A field with a whole value is a line. -/
theorem isLine_field {name value : Bytes} (hne : name≠[]) (hname : (13 : UInt8) ∉ name)
    (h : Whole value) : IsLine (name++value) :=
  ⟨List.append_ne_nil_of_left_ne_nil hne value,whole_behind hname h⟩

/-- A text without CR is a line. -/
theorem isLine_plain {text : Bytes} (hne : text≠[]) (htext : (13 : UInt8) ∉ text) : IsLine text :=
  ⟨hne,whole_of_noCr htext⟩

/-- The length line is a line. -/
theorem isLine_lengthLine (body : Bytes) : IsLine (lengthLine body) :=
  isLine_field (by decide) (by decide) (whole_of_noCr (numeral_whole _))

/-- The origin line of a whole origin is a line. -/
theorem isLine_allowOrigin {origin : Bytes} (h : Whole origin) : IsLine (allowOrigin origin) :=
  isLine_field (by decide) (by decide) h

/-- The cookie line of a whole token is a line. -/
theorem isLine_cookieLine {refreshToken : Bytes} (h : Whole refreshToken) :
    IsLine (cookieLine refreshToken) := by
  unfold cookieLine
  rw [List.append_assoc]
  exact isLine_field (by decide) (by decide) (whole_before (by decide) h)

/-- The only length line of a header block gives the length of the body. -/
theorem bodyLength_last {status : Bytes} (before : List Bytes) (body : Bytes)
    (hstatus : statusCode status≠ascii "204")
    (h : ∀ header ∈ before,lengthField.isPrefixOf header=false) :
    bodyLength status (before++[lengthLine body])=some body.length := by
  have hlast : lengthField.isPrefixOf (lengthLine body)=true :=
    List.isPrefixOf_iff_prefix.mpr (List.prefix_append _ _)
  have hbefore : before.filter (fun header => lengthField.isPrefixOf header)=[] :=
    List.filter_eq_nil_iff.mpr fun header hmem => by simp [h header hmem]
  unfold bodyLength
  rw [if_neg hstatus,List.filter_append,hbefore,List.nil_append,
    List.filter_cons_of_pos hlast,List.filter_nil]
  dsimp only
  unfold lengthLine
  rw [List.drop_left]
  exact readNumeral_numeral _

/-- A line that does not name the length. -/
def IsField (header : Bytes) : Prop := IsLine header ∧ lengthField.isPrefixOf header=false

/-- A message with fields in front of its length line is framed. -/
theorem framed_last {status body : Bytes} (before : List Bytes) (hstatus : IsLine status)
    (hcode : statusCode status≠ascii "204") (h : ∀ header ∈ before,IsField header) :
    Message.Framed ⟨status,before++[lengthLine body],body⟩ := by
  refine ⟨fun line hmem => ?_,bodyLength_last before body hcode fun header hmem => (h header hmem).2⟩
  rcases List.mem_cons.mp hmem with rfl|hmem
  · exact hstatus
  · rcases List.mem_append.mp hmem with hbefore|hlast
    · exact (h line hbefore).1
    · rw [List.mem_singleton.mp hlast]
      exact isLine_lengthLine body

/-- The status line of an error is a line with its code. -/
theorem status_error {errorCode : Bytes} (h : isErrorCode errorCode) :
    IsLine (ascii "HTTP/1.1 "++errorCode++ascii " Unauthorized") ∧
      statusCode (ascii "HTTP/1.1 "++errorCode++ascii " Unauthorized")≠ascii "204" := by
  have hcodes : errorCode=ascii "400" ∨ errorCode=ascii "401" ∨ errorCode=ascii "404" ∨
      errorCode=ascii "500" := by
    unfold isErrorCode at h
    rw [List.contains_iff_mem] at h
    simpa using h
  rcases hcodes with rfl|rfl|rfl|rfl <;>
    exact ⟨isLine_plain (by decide) (by decide),by decide⟩

/-- The message of a harmless reply is framed. -/
theorem framed_message {dump : Json → Except Failure Bytes} {reply : Reply} {sent : Message}
    (h : Harmless reply) (hsent : message dump reply=.ok sent) : sent.Framed := by
  have hok : IsLine statusOk := isLine_plain (by decide) (by decide)
  have hcode : statusCode statusOk≠ascii "204" := by decide
  have hversion : IsField versionLine := ⟨isLine_plain (by decide) (by decide),rfl⟩
  have hjson : IsField jsonLine := ⟨isLine_plain (by decide) (by decide),rfl⟩
  have hcredentials : IsField allowCredentials := ⟨isLine_plain (by decide) (by decide),rfl⟩
  have horigin : ∀ origin,Whole origin → IsField (allowOrigin origin) := fun origin hwhole =>
    ⟨isLine_allowOrigin hwhole,rfl⟩
  cases reply with
  | answerEmpty origin =>
    cases hsent
    refine framed_last [versionLine,allowOrigin origin] hok hcode ?_
    simp only [List.forall_mem_cons]
    exact ⟨hversion,horigin origin h,nofun⟩
  | answerJson origin jsonBody =>
    obtain ⟨body,hbody,hsent⟩ := bind_eq_ok hsent
    cases hsent
    refine framed_last [versionLine,allowOrigin origin,jsonLine] hok hcode ?_
    simp only [List.forall_mem_cons]
    exact ⟨hversion,horigin origin h,hjson,nofun⟩
  | answerTokens origin refreshToken accessToken nickname =>
    obtain ⟨body,hbody,hsent⟩ := bind_eq_ok hsent
    cases hsent
    refine framed_last [cookieLine refreshToken,allowOrigin origin,allowCredentials,jsonLine] hok
      hcode ?_
    simp only [List.forall_mem_cons]
    exact ⟨⟨isLine_cookieLine h.2,rfl⟩,horigin origin h.1,hcredentials,hjson,nofun⟩
  | answerBinData origin type binData =>
    cases hsent
    have hmethods : IsField (ascii "Access-Control-Allow-Methods: GET") :=
      ⟨isLine_plain (by decide) (by decide),rfl⟩
    have htype : IsField (ascii "Content-Type: "++type) :=
      ⟨isLine_field (by decide) (by decide) h.2,rfl⟩
    refine framed_last [versionLine,allowOrigin origin,ascii "Access-Control-Allow-Methods: GET",
      ascii "Content-Type: "++type] hok hcode ?_
    simp only [List.forall_mem_cons]
    exact ⟨hversion,horigin origin h.1,hmethods,htype,nofun⟩
  | sendError origin errorCode textError =>
    obtain ⟨body,hbody,hsent⟩ := bind_eq_ok hsent
    cases hsent
    obtain ⟨hstatus,herror⟩ := status_error h.2
    refine framed_last [allowOrigin origin,allowCredentials,jsonLine] hstatus herror ?_
    simp only [List.forall_mem_cons]
    exact ⟨horigin origin h.1,hcredentials,hjson,nofun⟩
  | answerOptions origin =>
    cases hsent
    refine ⟨?_,rfl⟩
    simp only [List.forall_mem_cons]
    exact ⟨isLine_plain (by decide) (by decide),isLine_allowOrigin h,
      isLine_plain (by decide) (by decide),isLine_plain (by decide) (by decide),
      hcredentials.1,nofun⟩

/-- What is sent for a harmless reply is read as its message, to the last byte. -/
theorem read_harmless {dump : Json → Except Failure Bytes} {reply : Reply} {sends : List Bytes}
    (h : Harmless reply) (hsends : reply.render dump=.ok sends) :
    ∃ sent,message dump reply=.ok sent ∧ read sends.flatten=some (sent,[]) := by
  obtain ⟨sent,hsent,hwrite⟩ := render_write hsends
  refine ⟨sent,hsent,?_⟩
  rw [hwrite,←List.append_nil sent.write]
  exact read_write (framed_message h hsent) []

end messages

section values

variable {request value : Bytes}

/-- What the optional lookup cuts holds no line end. -/
theorem whole_getValueSomeHeader {header : Bytes} (hs : request.length ≤ maxSize) (hn : header≠[])
    (hcr : (13 : UInt8) ∉ header) (h : getValueSomeHeader request header 0=.ok (some value)) :
    Whole value := by
  have hlen : 0<header.length := List.length_pos_iff.mpr hn
  cases hf : find? request header 0 with
  | none =>
    rw [getValueSomeHeader_none hf] at h
    cases h
  | some p =>
    rw [getValueSomeHeader_some hs hn hcr hf] at h
    cases h
    exact cutAt_free (by decide) (by omega)

/-- What the raising lookup cuts holds no line end. -/
theorem whole_getValueWithSpace {header : Bytes} (hs : request.length ≤ maxSize)
    (hcr : (13 : UInt8) ∉ header) (h : getValueWithSpace request header 0=.ok value) :
    Whole value := by
  cases hf : find? request header 0 with
  | none =>
    rw [getValueWithSpace_none hf] at h
    cases h
  | some p =>
    rw [getValueWithSpace_some hs hcr hf] at h
    cases h
    exact cutAt_free (by decide) (by omega)

/-- The type was stored by addPhoto, for some request and part of it, as the
string cut from the part's header block. -/
def Stored (type : Bytes) : Prop :=
  ∃ request start finish state form,request.length ≤ maxSize ∧
    addPhoto .lenient request start finish state=.ok form ∧
    property form.userProperties photoTypeKey=type

/-- A stored type holds no line end. -/
theorem Stored.whole {type : Bytes} (h : Stored type) : Whole type := by
  obtain ⟨request,start,finish,state,form,hs,hform,htype⟩ := h
  have hstart : start ≤ request.length := by
    obtain ⟨headers,hheaders,_⟩ := bind_eq_ok hform
    exact (returns_substr_iff _ _ _).mp ⟨headers,hheaders⟩
  by_cases hcontent : contentType<:+:partHeaders request start
  · rw [addPhoto_lenient hs hstart finish state hcontent] at hform
    cases hform
    rw [←htype,property_insert]
    unfold photoType
    dsimp only
    split
    · exact fun hsplit => absurd (List.eq_nil_of_infix_nil hsplit) (by decide)
    · exact cutAt_free (by decide) (by omega)
  · rw [addPhoto_none .lenient hs hstart finish state hcontent] at hform
    cases hform

/-- A byte of a token: a letter, a digit, a dash, an underscore or a dot. -/
def isTokenByte (c : UInt8) : Bool :=
  isDigit c || (65 ≤ c && c ≤ 90) || (97 ≤ c && c ≤ 122) || c=45 || c=95 || c=46

/-- The token library writes its tokens in the alphabet of tokens. -/
def PlainTokens (jwt : JwtLibrary) : Prop :=
  ∀ claims key token,jwt.sign claims key=.ok token → token.all isTokenByte

/-- A token of the library holds no line end. -/
theorem PlainTokens.whole {jwt : JwtLibrary} (h : PlainTokens jwt) {claims : JwtClaims}
    {key token : Bytes} (hsign : jwt.sign claims key=.ok token) : Whole token :=
  whole_of_noCr fun hmem => absurd (List.all_eq_true.mp (h claims key token hsign) 13 hmem) (by decide)

end values

section replies

variable {σ : Type} (services : Services σ)

/-- Photos are read from the database with a type that was stored. -/
def StoredTypes : Prop := ∀ world photo,
  (∀ nickname,(services.call (.getProfilePhoto nickname) world).1=.ok photo → Stored photo.1) ∧
    ∀ id,(services.call (.getPhotoById id) world).1=.ok photo → Stored photo.1

/-- A reply that is sent is harmless and was rendered. -/
def SendsHarmless : Event → Prop
  | .sent reply => Harmless reply ∧ Returns (reply.render (dumpText services.dump))
  | _ => True

variable {services}

/-- A harmless reply is sent once it is rendered. -/
theorem triple_harmless {pre : σ → Prop} {reply : Reply} (h : ∀ world,pre world → Harmless reply) :
    Triple pre (sendReply services reply) (fun _ _ => True) (SendsHarmless services) := by
  refine triple_bind (triple_compute _) fun sends world hrendered => ?_
  have hallowed : SendsHarmless services (.sent reply) := ⟨h world hrendered.2,sends,hrendered.1⟩
  exact emits_record hallowed world trivial

/-- A harmless reply is sent from any world. -/
theorem harmless_sendReply {reply : Reply} (h : Harmless reply) :
    Emits (sendReply services reply) (SendsHarmless services) := triple_harmless fun _ _ => h

/-- A case with a whole origin and plain errors sends harmless replies when
its body does. -/
theorem harmless_answering {origin : Bytes} {errors : CxxException → ErrorAnswer}
    {body : Handler σ Unit} (horigin : Whole origin) (herrors : PlainErrors errors)
    (h : Emits body (SendsHarmless services)) :
    Emits (answering services origin errors body) (SendsHarmless services) :=
  emits_attempt h fun e => harmless_sendReply ⟨horigin,(herrors e).1⟩

/-- A call whose answer is sent in a harmless reply. -/
theorem harmless_callAndReply {call : DbCall} {reply : call.Answer → Reply}
    (h : ∀ world answer,(services.call call world).1=.ok answer → Harmless (reply answer)) :
    Emits (callDb services call>>=fun answer => sendReply services (reply answer))
      (SendsHarmless services) := by
  refine triple_bind (triple_callDb services trivial) fun answer => ?_
  refine triple_harmless fun world hcalled => ?_
  obtain ⟨before,_,hcall⟩ := hcalled
  exact h before answer (congrArg Prod.fst hcall)

/-- The token check answers a rejected token with a harmless reply. -/
theorem harmless_checkAccesstoken {origin : Bytes} (horigin : Whole origin) (token : Bytes) :
    Emits (checkAccesstoken services origin token) (SendsHarmless services) := by
  have hsubject : Emits (acceptedSubject services token) (SendsHarmless services) := by
    refine emits_bind (emits_readWorld _ _) fun now => ?_
    refine emits_bind (emits_compute _ _) fun id => ?_
    exact emits_bind (emits_record trivial) fun _ => emits_pure _ _
  have herror : ∀ code text,isErrorCode code → Emits (sendReply services
      (.sendError origin code text)) (SendsHarmless services) := fun code text hcode =>
    harmless_sendReply ⟨horigin,hcode⟩
  refine emits_attempt hsubject fun e => ?_
  by_cases hhttp : e=.runtimeError "bad http"
  · rw [hhttp]
    refine emits_bind (herror _ _ rfl) fun _ => ?_
    exact emits_bind (herror _ _ rfl) fun _ => emits_compute _ _
  · rw [if_neg hhttp]
    by_cases htoken : e=.runtimeError "invalid access token"
    · rw [if_pos htoken]
      exact emits_bind (herror _ _ rfl) fun _ => emits_compute _ _
    · rw [if_neg htoken]
      exact emits_bind (herror _ _ rfl) fun _ => emits_compute _ _

/-- A guarded case sends harmless replies when its body does. -/
theorem harmless_guarded {origin token : Bytes} {body : Bytes → Handler σ Unit}
    (horigin : Whole origin) (h : ∀ id,Emits (body id) (SendsHarmless services)) :
    Emits (guarded services origin token body) (SendsHarmless services) := by
  refine emits_bind (emits_attempt (emits_bind (harmless_checkAccesstoken horigin token)
    fun _ => emits_pure _ _) fun _ => emits_pure _ _) fun checked => ?_
  cases checked with
  | none => exact emits_pure _ _
  | some id => exact emits_bind (h id) fun _ => emits_pure _ _

/-- The case of a GET message sends harmless replies. -/
theorem harmless_getCase (hstored : StoredTypes services) {info : GetTInfo}
    (horigin : Whole info.origin) (hrefresh : info.msg=.getNewToken → Whole info.refreshToken)
    (id : Bytes) : Emits (getCase services info id) (SendsHarmless services) := by
  unfold getCase
  cases hmsg : info.msg with
  | getNewToken =>
    refine harmless_answering horigin plain_renewalError ?_
    refine emits_bind (emits_readWorld _ _) fun now => ?_
    refine emits_bind (emits_compute _ _) fun id => ?_
    refine emits_bind (emits_newToken services _ _ _) fun accessToken => ?_
    exact harmless_callAndReply fun _ _ _ => ⟨horigin,hrefresh hmsg⟩
  | getProfileByNickname =>
    refine harmless_answering horigin plain_lookupError ?_
    exact harmless_callAndReply fun _ _ _ => horigin
  | getProfilePhoto =>
    refine harmless_answering horigin plain_lookupError ?_
    exact harmless_callAndReply fun world photo hcall =>
      ⟨horigin,((hstored world photo).1 _ hcall).whole⟩
  | getUsersList =>
    refine harmless_answering horigin plain_queryError ?_
    exact harmless_callAndReply fun _ _ _ => horigin
  | getPhotoById =>
    refine harmless_answering horigin plain_queryError ?_
    refine emits_bind (emits_compute _ _) fun photoId => ?_
    exact harmless_callAndReply fun world photo hcall =>
      ⟨horigin,((hstored world photo).2 photoId hcall).whole⟩
  | makeFriend =>
    refine harmless_answering horigin plain_friendError ?_
    exact harmless_callAndReply fun _ _ _ => horigin
  | deleteFriend =>
    refine harmless_answering horigin plain_friendError ?_
    exact harmless_callAndReply fun _ _ _ => horigin
  | getStatus =>
    refine harmless_answering horigin plain_friendError ?_
    refine emits_bind (emits_compute _ _) fun friendId => ?_
    exact harmless_callAndReply fun _ _ _ => horigin
  | getIdFsByAccess =>
    refine harmless_answering horigin (fun _ => ?_) (harmless_sendReply horigin)
    unfold internalError
    decide

/-- A GET message is answered with harmless replies. -/
theorem harmless_dispatchGet (hstored : StoredTypes services) {info : GetTInfo}
    (horigin : Whole info.origin) (hrefresh : info.msg=.getNewToken → Whole info.refreshToken) :
    Emits (dispatchGet services info) (SendsHarmless services) := by
  have hcase := harmless_getCase hstored horigin hrefresh
  by_cases hmsg : info.msg=.getNewToken
  · unfold dispatchGet
    rw [hmsg]
    exact emits_bind (hcase []) fun _ => emits_pure _ _
  · rw [dispatchGet_guarded services hmsg]
    exact harmless_guarded horigin hcase

/-- A POST message is answered with harmless replies. -/
theorem harmless_dispatchPost (htokens : PlainTokens services.jwt) {info : PostTInfo}
    (horigin : Whole info.origin) :
    Emits (dispatchPost services info) (SendsHarmless services) := by
  unfold dispatchPost
  cases hmsg : info.msg with
  | login =>
    refine emits_bind (harmless_answering horigin plain_loginError ?_) fun _ => emits_pure _ _
    refine emits_bind (emits_compute _ _) fun login => ?_
    refine emits_bind (emits_compute _ _) fun password => ?_
    refine emits_bind (emits_callDb services _ trivial) fun id => ?_
    refine triple_bind (triple_newToken services) fun refreshToken => ?_
    refine triple_bind (triple_newToken services) fun accessToken => ?_
    refine triple_bind (triple_callDb services trivial) fun nickname => ?_
    refine triple_harmless fun world hmade => ?_
    obtain ⟨_,⟨_,hsign,_⟩,_⟩ := hmade
    exact ⟨horigin,htokens.whole hsign⟩
  | registration =>
    refine emits_bind (harmless_answering horigin plain_registrationError ?_) fun _ =>
      emits_pure _ _
    exact harmless_callAndReply fun _ _ _ => horigin
  | updateProfilePhoto =>
    refine harmless_guarded horigin fun id => harmless_answering horigin plain_updatePhotoError ?_
    exact harmless_callAndReply fun _ _ _ => horigin
  | updateProfileData =>
    refine harmless_guarded horigin fun id => harmless_answering horigin plain_updateError ?_
    exact harmless_callAndReply fun _ _ _ => horigin
  | updateProfilePassword =>
    refine emits_bind (emits_compute _ _) fun text => ?_
    refine harmless_guarded horigin fun id => harmless_answering horigin plain_updateError ?_
    exact harmless_callAndReply fun _ _ _ => horigin

/-- An accepted request is answered with harmless replies. -/
theorem harmless_dispatch (htokens : PlainTokens services.jwt) (hstored : StoredTypes services)
    {setting : ParserSetting} {req : Bytes} (hs : req.length ≤ maxSize) {info : HttpTypesInfo}
    (h : Carries setting req info) : Emits (dispatch services info) (SendsHarmless services) := by
  have hwhole : ∀ origin,getValueSomeHeader req originHeader 0=.ok (some origin) → Whole origin :=
    fun origin horigin => whole_getValueSomeHeader hs (by decide) (by decide) horigin
  cases info with
  | monostate => exact h.elim
  | options info => exact emits_bind (harmless_sendReply (hwhole _ h)) fun _ => emits_pure _ _
  | post info =>
    obtain ⟨origin,msg,horigin,hfields⟩ := h
    obtain ⟨_,hkept,_⟩ := parsePostFields_ok hs hfields
    exact harmless_dispatchPost htokens (hkept ▸ hwhole origin horigin)
  | get info =>
    obtain ⟨origin,msg,horigin,hfields⟩ := h
    obtain ⟨_,hkept,_,hrefresh⟩ := parseGetFields_ok hs hfields
    exact harmless_dispatchGet hstored (hkept ▸ hwhole origin horigin)
      fun hmsg => whole_getValueWithSpace hs (by decide) (hrefresh hmsg)

/-- Every reply to an accepted request is read as the message it is meant to
carry: its status, its header lines with their values and its body, with no
byte left. -/
theorem replies_read (htokens : PlainTokens services.jwt) (hstored : StoredTypes services)
    (request : CxxText) {info : HttpTypesInfo}
    (hparse : parse services.setting request.bytes=.ok (.success,info)) (world : σ) {reply : Reply}
    (hsent : .sent reply ∈ (dispatch services info world).events) :
    ∃ sends sent,reply.render (dumpText services.dump)=.ok sends ∧
      message (dumpText services.dump) reply=.ok sent ∧ read sends.flatten=some (sent,[]) := by
  obtain ⟨size,hcarries⟩ := parse_carries request.size_le hparse
  have hsize : (request.bytes.drop size).length ≤ maxSize := by
    have hle := request.size_le
    rw [List.length_drop]
    omega
  obtain ⟨hharmless,sends,hsends⟩ :=
    (harmless_dispatch htokens hstored hsize hcarries).events world _ hsent
  obtain ⟨sent,hmessage,hread⟩ := read_harmless hharmless hsends
  exact ⟨sends,sent,hsends,hmessage,hread⟩

end replies

section photo

/-- A header block with a content type. -/
def typedPart : Bytes := ascii "Content-Type: image/png\r\n\r\n"

/-- Its type is stored. -/
theorem stored_typedPart : Stored (ascii "image/png") := by
  have hs : typedPart.length ≤ maxSize := by decide +kernel
  have htype : photoType typedPart 0=ascii "image/png" := by decide +kernel
  have hcontent : contentType<:+:partHeaders typedPart 0 := by decide +kernel
  exact ⟨typedPart,0,27,emptyForm,_,hs,addPhoto_lenient hs (Nat.zero_le _) 27 emptyForm hcontent,
    (property_insert _ _ _).trans htype⟩

/-- A server that accepts one token and has one photo for every nickname. -/
def withPhoto : Services Unit where
  setting := refusing.setting
  jwt := ⟨fun _ _ => .error (.runtimeError "no key"),fun _ _ _ token =>
    if token=ascii "t" then .ok ⟨tokenType,tokenIssuer,ascii "1",0,900⟩
    else .error (.runtimeError "not verified")⟩
  now := fun _ => 0
  dump := refusing.dump
  call := fun call world =>
    match call with
    | .getProfilePhoto _ => (.ok (ascii "image/png",ascii "bytes"),world)
    | other => refusing.call other world

/-- A request for a photo. -/
def photoRequest : Bytes :=
  ascii "GET /getProfilePhoto?nickname=ann HTTP/1.1\r\n"++ascii "Origin: o\r\n"++
    ascii "Authorization: Bearer t\r\n\r\n"

/-- The photo is read with its type, to the last byte. -/
theorem replies_read_photo :
    ∃ sends sent,Reply.render (dumpText withPhoto.dump)
        (.answerBinData (ascii " o") (ascii "image/png") (ascii "bytes"))=.ok sends ∧
      message (dumpText withPhoto.dump)
        (.answerBinData (ascii " o") (ascii "image/png") (ascii "bytes"))=.ok sent ∧
      read sends.flatten=some (sent,[]) := by
  obtain ⟨info,hparse,hsent⟩ : ∃ info,parse withPhoto.setting photoRequest=.ok (.success,info) ∧
      .sent (.answerBinData (ascii " o") (ascii "image/png") (ascii "bytes")) ∈
        (dispatch withPhoto info ()).events :=
    ⟨_,rfl,List.mem_cons_of_mem _ (List.mem_cons_of_mem _ List.mem_cons_self)⟩
  have htokens : PlainTokens withPhoto.jwt := by
    intro claims key token hsign
    cases hsign
  have hstored : StoredTypes withPhoto := by
    intro world photo
    refine ⟨fun nickname hcall => ?_,fun id hcall => ?_⟩
    · cases hcall
      exact stored_typedPart
    · cases hcall
  exact replies_read htokens hstored ⟨photoRequest,by decide +kernel⟩ hparse () hsent

end photo

end Photogram.AuthResponseWire
