import Photogram.AuthFormData
import Photogram.JsonValue

/-!
# Request parser of the authentication server

HttpParser.cpp over the message tables of HttpDef.hpp. The method token is
read first, then completeness is decided by the first blank line and, for a
POST, by the first Content-Length literal anywhere in the request, and only
then are the fields of the message parsed, from the end of the method token
on. The result carries the filled information block next to the status.
-/

namespace Photogram.AuthHttpParser

open CxxString QueryString AuthRequest AuthFormData JsonValue

/-- Verdicts of the parser. -/
inductive EStatus where
  | success
  | badHttp
  | notSupportType
  | notFullReq
  deriving DecidableEq

/-- Request methods. -/
inductive EHttpReq where
  | get
  | head
  | post
  | put
  | deleteM
  | connect
  | options
  | trace
  | patch
  | notSupport
  deriving DecidableEq

/-- POST messages. -/
inductive EPostMsg where
  | login
  | registration
  | updateProfilePhoto
  | updateProfileData
  | updateProfilePassword
  deriving DecidableEq

/-- GET messages. -/
inductive EGetMsg where
  | getNewToken
  | getProfileByNickname
  | getProfilePhoto
  | getUsersList
  | getPhotoById
  | makeFriend
  | deleteFriend
  | getStatus
  | getIdFsByAccess
  deriving DecidableEq

/-- Table of POST paths. -/
def postMsgNames : List (Bytes×EPostMsg) :=
  [(ascii "login",.login),(ascii "registration",.registration),
    (ascii "updateProfilePhoto",.updateProfilePhoto),
    (ascii "updateProfileData",.updateProfileData),
    (ascii "updateProfilePassword",.updateProfilePassword)]

/-- Table of GET paths. -/
def getMsgNames : List (Bytes×EGetMsg) :=
  [(ascii "getNewToken",.getNewToken),(ascii "getProfileByNickname",.getProfileByNickname),
    (ascii "getProfilePhoto",.getProfilePhoto),(ascii "getUsersList",.getUsersList),
    (ascii "getPhotoById",.getPhotoById),(ascii "makeFriend",.makeFriend),
    (ascii "deleteFriend",.deleteFriend),(ascii "getStatus",.getStatus),
    (ascii "getIdForServerByAccess",.getIdFsByAccess)]

/-- Method of a request and the length of its token. -/
structure HttpReqT where
  /-- Recognized method. -/
  type : EHttpReq
  /-- Length of the method token, the position of the first blank. -/
  size : ℕ
  deriving DecidableEq

/-- Fields of an OPTIONS request. -/
structure OptionsTInfo where
  /-- Value of the Origin header. -/
  origin : Bytes

/-- Fields of a POST request. -/
structure PostTInfo where
  /-- Value of the Origin header. -/
  origin : Bytes
  /-- Requested operation. -/
  msg : EPostMsg
  /-- Parsed body of the messages that carry JSON. -/
  jsonBody : Json
  /-- Text behind Bearer in the guarded messages. -/
  accessToken : Bytes
  /-- Text fields of a form. -/
  userProperties : PropertyMap
  /-- Files of a form. -/
  filesCoordinates : FileMap
  /-- Bytes of the first file. -/
  binaryData : Bytes

/-- Fields of a GET request. -/
structure GetTInfo where
  /-- Value of the Origin header. -/
  origin : Bytes
  /-- Requested operation. -/
  msg : EGetMsg
  /-- Refresh token of a renewal. -/
  refreshToken : Bytes
  /-- Text behind Bearer in the guarded messages. -/
  accessToken : Bytes
  /-- Pairs of the query. -/
  properties : PropertyMap

/-- The information block a parse fills. -/
inductive HttpTypesInfo where
  | monostate
  | options (info : OptionsTInfo)
  | post (info : PostTInfo)
  | get (info : GetTInfo)

/-- A POST block as it is created. -/
def emptyPostInfo : PostTInfo := ⟨[],.login,.null,[],∅,∅,[]⟩

/-- A GET block as it is created. -/
def emptyGetInfo : GetTInfo := ⟨[],.getNewToken,[],[],∅⟩

/-- What the parser takes from outside: the JSON library and the reading
of storage that is no longer live. -/
structure ParserSetting where
  /-- Value of a JSON text, when the library accepts it. -/
  jsonParse : Bytes → Option Json
  /-- How reads outside live storage are taken. -/
  reading : StorageReading

/-- Header literal of the origin. -/
def originHeader : Bytes := ascii "Origin: "

/-- Header literal of the body length. -/
def contentLengthHeader : Bytes := ascii "Content-Length: "

/-- Literal in front of an access token. -/
def bearerPrefix : Bytes := ascii "Bearer "

/-- Literal in front of a refresh token. -/
def refreshTokenPrefix : Bytes := ascii "refreshToken="

/-- Method token of a request of at least seven bytes, delimited by a blank
among its first eight. -/
def getReqT (req : Bytes) : Option HttpReqT :=
  if req.length<7 then none
  else
    let shift := find req (ascii " ") 0
    if shift=npos ∨ 7<shift then none
    else
      let typeStr := req.take shift
      if typeStr=ascii "OPTIONS" then some ⟨.options,shift⟩
      else if typeStr=ascii "POST" then some ⟨.post,shift⟩
      else if typeStr=ascii "GET" then some ⟨.get,shift⟩
      else some ⟨.notSupport,shift⟩

/-- Parsed JSON text behind the first blank line. -/
def getBody (setting : ParserSetting) (req : Bytes) : Except Failure Json := do
  let headersEnd := find req blankLine 0
  let body ← substr req (addSize headersEnd 4) npos
  match setting.jsonParse body with
  | some value => return value
  | none => .error (.thrown .jsonParse)

/-- Look the path up in a message table: the text from behind the first
slash, whose length is the offset of the first blank or question mark
counted from the slash, less the position of the slash. -/
def getMsg {μ : Type} (names : List (Bytes×μ)) (req : Bytes) : Except Failure (Option μ) := do
  let shiftStart := find req (ascii "/") 0
  let path ← substr req shiftStart npos
  let shiftEnd := findFirstOf path (ascii " ?")
  if shiftEnd=npos ∨ shiftStart=npos then return none
  else
    let msgTStr ← substr req (addSize shiftStart 1) (subSize shiftEnd shiftStart)
    return names.lookup msgTStr

/-- Message of a POST request. -/
def getPostMsg (req : Bytes) : Except Failure (Option EPostMsg) := getMsg postMsgNames req

/-- Message of a GET request. -/
def getGetMsg (req : Bytes) : Except Failure (Option EGetMsg) := getMsg getMsgNames req

/-- Frame of the GET and POST parsers: an origin, a known path, then the
fields of its message. False answers keep the block as far as it is filled. -/
def parseMessage {μ : Type} (msgO : Bytes → Except Failure (Option μ)) (missing : HttpTypesInfo)
    (unknown : Bytes → HttpTypesInfo) (known : Bytes → μ → Except Failure HttpTypesInfo) (req : Bytes) :
    Except Failure (Bool×HttpTypesInfo) := do
  let originO ← getValueSomeHeader req originHeader 0
  match originO with
  | none => return (false,missing)
  | some origin =>
    let msgO ← msgO req
    match msgO with
    | none => return (false,unknown origin)
    | some msg =>
      let info ← known origin msg
      return (true,info)

/-- Fill the fields of a GET message: the refresh token of a renewal, else
the access token and the query. -/
def parseGetFields (req : Bytes) (info : GetTInfo) : Except Failure GetTInfo :=
  match info.msg with
  | .getNewToken => do
    let refreshToken ← getValueWithSpace req refreshTokenPrefix 0
    return {info with refreshToken := refreshToken}
  | _ => do
    let accessToken ← getValueWithSpace req bearerPrefix 0
    let properties ← URLParser req info.properties 4
    return {info with accessToken := accessToken,properties := properties}

/-- Parse a GET request behind its method token. -/
def parseGetT (req : Bytes) : Except Failure (Bool×HttpTypesInfo) :=
  parseMessage getGetMsg (.get emptyGetInfo) (fun origin => .get {emptyGetInfo with origin := origin})
    (fun origin msg => do
      let getInfo ← parseGetFields req {emptyGetInfo with origin := origin,msg := msg}
      return .get getInfo) req

/-- Copy the file begin() refers to out of the request. -/
def firstFile (req : Bytes) (filesCoordinates : FileMap) : Except Failure Bytes := do
  let element ← mapBegin filesCoordinates
  substr req element.2.1 element.2.2

/-- Fill the fields of a POST message. -/
def parsePostFields (setting : ParserSetting) (req : Bytes) (info : PostTInfo) :
    Except Failure PostTInfo :=
  match info.msg with
  | .login => do
    let jsonBody ← getBody setting req
    return {info with jsonBody := jsonBody}
  | .registration => do
    let form ← AuthFormData.parse setting.reading req ⟨info.userProperties,info.filesCoordinates⟩
    let file ← firstFile req form.filesCoordinates
    return {info with
      userProperties := form.userProperties,
      filesCoordinates := form.filesCoordinates,
      binaryData := file}
  | .updateProfilePhoto => do
    let accessToken ← getValueWithSpace req bearerPrefix 0
    let form ← parsePhotoOnly setting.reading req ⟨info.userProperties,info.filesCoordinates⟩
    let file ← firstFile req form.filesCoordinates
    return {info with
      accessToken := accessToken,
      userProperties := form.userProperties,
      filesCoordinates := form.filesCoordinates,
      binaryData := file}
  | .updateProfileData | .updateProfilePassword => do
    let accessToken ← getValueWithSpace req bearerPrefix 0
    let jsonBody ← getBody setting req
    return {info with accessToken := accessToken,jsonBody := jsonBody}

/-- Parse a POST request behind its method token. -/
def parsePostT (setting : ParserSetting) (req : Bytes) : Except Failure (Bool×HttpTypesInfo) :=
  parseMessage getPostMsg (.post emptyPostInfo)
    (fun origin => .post {emptyPostInfo with origin := origin})
    (fun origin msg => do
      let postInfo ← parsePostFields setting req {emptyPostInfo with origin := origin,msg := msg}
      return .post postInfo) req

/-- Parse an OPTIONS request behind its method token. -/
def parseOptionsT (req : Bytes) : Except Failure (Bool×HttpTypesInfo) := do
  let originO ← getValueSomeHeader req originHeader 0
  match originO with
  | none => return (false,.options ⟨[]⟩)
  | some origin => return (true,.options ⟨origin⟩)

/-- Completeness of a request: a blank line, and for a POST as many bytes
behind it as its Content-Length says. -/
def checkIsFullRequest (requ : Bytes) (type : EHttpReq) : Except Failure EStatus :=
  let headersEnd := find requ blankLine 0
  if headersEnd=npos then .ok .notFullReq
  else if type≠.post then .ok .success
  else do
    let bodySize := subSize (subSize requ.length headersEnd) 4
    let header ← getValueSomeHeader requ contentLengthHeader 0
    let value ← optionalValue header
    let length ← stoi value
    let headerValue := sizeOfInt length
    if bodySize=headerValue then return .success
    else if bodySize<headerValue then return .notFullReq
    else return .badHttp

/-- Status of a field parser's answer. -/
def fieldStatus (answer : Bool×HttpTypesInfo) : EStatus×HttpTypesInfo :=
  (if answer.1 then .success else .badHttp,answer.2)

/-- Parse one request. -/
def parse (setting : ParserSetting) (request : Bytes) : Except Failure (EStatus×HttpTypesInfo) :=
  match getReqT request with
  | none => .ok (.badHttp,.monostate)
  | some type => do
    let checkStatus ← checkIsFullRequest request type.type
    if checkStatus≠.success then return (checkStatus,.monostate)
    else match type.type with
      | .get => do
        let req ← substr request type.size npos
        return fieldStatus (←parseGetT req)
      | .post => do
        let req ← substr request type.size npos
        return fieldStatus (←parsePostT setting req)
      | .options => do
        let req ← substr request type.size npos
        return fieldStatus (←parseOptionsT req)
      | _ => return (.notSupportType,.monostate)

/-- A lookup of a path that ends inside the first part of a request is not
moved by what follows. -/
theorem getMsg_append {μ : Type} {names : List (Bytes×μ)} {p t : Bytes} {slash stop : ℕ} {msg : μ}
    (hs : (p++t).length ≤ maxSize) (hslash : find? p (ascii "/") 0=some slash)
    (hstop : (p.drop slash).findIdx? (· ∈ ascii " ?")=some stop) (hle : slash ≤ stop)
    (hname : names.lookup ((p.drop (slash+1)).take (stop-slash))=some msg)
    (hlen : stop+1 ≤ p.length) : getMsg names (p++t)=.ok (some msg) := by
  have hm := maxSize_lt_npos
  have hnm := npos_lt_sizeModulus
  have hplen : p.length ≤ (p++t).length := by
    rw [List.length_append]
    omega
  have hpath : (p++t).drop slash=p.drop slash++t := List.drop_append_of_le_length (by omega)
  have hname' : ((p++t).drop (slash+1)).take (stop-slash)=(p.drop (slash+1)).take (stop-slash) := by
    rw [List.drop_append_of_le_length (by omega),
      List.take_append_of_le_length (by rw [List.length_drop]; omega)]
  have hend : findFirstOf (p.drop slash++t) (ascii " ?")=stop := by
    unfold findFirstOf
    rw [List.findIdx?_append,hstop]
    rfl
  unfold getMsg
  dsimp only
  rw [find_of_some (find?_append hslash),substr_npos hs (by omega),ok_bind,hpath,hend,
    if_neg (by omega),addSize_eq (by omega),subSize_eq hle (by omega),substr_of_le _ (by omega),
    ok_bind,hname',hname]
  rfl

/-- Method token of a recognized request. -/
def methodToken : EHttpReq → Option Bytes
  | .get => some (ascii "GET")
  | .post => some (ascii "POST")
  | .options => some (ascii "OPTIONS")
  | _ => none

/-- A recognized method stands in front of the first blank of a request of
at least seven bytes. -/
theorem getReqT_spec {req : Bytes} {type : HttpReqT} (h : getReqT req=some type) :
    7 ≤ req.length ∧ find? req (ascii " ") 0=some type.size ∧ type.size ≤ 7 ∧
      ∀ token,methodToken type.type=some token → req.take type.size=token := by
  unfold getReqT at h
  dsimp only at h
  split at h
  · cases h
  · split at h
    · cases h
    · next hlen hshift =>
      obtain ⟨hne,hle⟩ := not_or.mp hshift
      have hfind : find? req (ascii " ") 0=some (find req (ascii " ") 0) := by
        cases hf : find? req (ascii " ") 0 with
        | none => exact absurd (find_of_none hf) hne
        | some p => rw [find_of_some hf]
      have hseven : 7 ≤ req.length := by omega
      have hsize : find req (ascii " ") 0 ≤ 7 := by omega
      split at h
      · next ht =>
        cases h
        exact ⟨hseven,hfind,hsize,by rintro token ⟨⟩; exact ht⟩
      split at h
      · next ht =>
        cases h
        exact ⟨hseven,hfind,hsize,by rintro token ⟨⟩; exact ht⟩
      split at h
      · next ht =>
        cases h
        exact ⟨hseven,hfind,hsize,by rintro token ⟨⟩; exact ht⟩
      · cases h
        exact ⟨hseven,hfind,hsize,by rintro token ⟨⟩⟩

/-- A blank line of a recognized request stands behind its method token. -/
theorem blankLine_behind_method {req token : Bytes} {type : HttpReqT} (h : getReqT req=some type)
    (htoken : methodToken type.type=some token) (hb : blankLine<:+:req) :
    blankLine<:+:req.drop type.size := by
  obtain ⟨_,_,_,hmethod⟩ := getReqT_spec h
  have hcr : (13 : UInt8) ∉ token := by
    cases htype : type.type <;> rw [htype] at htoken <;> cases htoken <;> decide
  obtain ⟨p,hp⟩ := exists_occurs_of_isInfix hb
  have hsplit : req=token++req.drop type.size := by
    rw [←hmethod token htoken,List.take_append_drop]
  rw [hsplit] at hp
  by_cases hle : p<token.length
  · have hhead : (token++req.drop type.size)[p]?=some 13 := hp.head
    rw [List.getElem?_append_left hle] at hhead
    exact absurd (List.mem_of_getElem? hhead) hcr
  · obtain ⟨d,rfl⟩ := Nat.exists_eq_add_of_le (Nat.le_of_not_lt hle)
    exact (occurs_append_right.mp hp).isInfix

/-- Field parsing of a complete request behind its method token. -/
def parseByMethod (setting : ParserSetting) (kind : EHttpReq) (req : Bytes) :
    Except Failure (EStatus×HttpTypesInfo) :=
  match kind with
  | .get => parseGetT req>>=fun answer => pure (fieldStatus answer)
  | .post => parsePostT setting req>>=fun answer => pure (fieldStatus answer)
  | .options => parseOptionsT req>>=fun answer => pure (fieldStatus answer)
  | _ => .ok (.notSupportType,.monostate)

/-- A complete request is parsed by its method. -/
theorem parse_complete (setting : ParserSetting) {req : Bytes} {type : HttpReqT}
    (hs : req.length ≤ maxSize) (h : getReqT req=some type)
    (hfull : checkIsFullRequest req type.type=.ok .success) :
    parse setting req=parseByMethod setting type.type (req.drop type.size) := by
  have hsize : type.size ≤ req.length := by
    have hb := (find?_bounds (getReqT_spec h).2.1).2
    omega
  have hrest := substr_npos hs hsize
  simp only [parse,h,hfull,ok_bind]
  rw [if_neg (by simp)]
  cases hkind : type.type <;> simp only [hrest,ok_bind] <;> rfl

/-- An incomplete or oversized request is answered by the completeness check. -/
theorem parse_incomplete (setting : ParserSetting) {req : Bytes} {type : HttpReqT}
    {status : EStatus} (h : getReqT req=some type)
    (hfull : checkIsFullRequest req type.type=.ok status) (hstatus : status≠.success) :
    parse setting req=.ok (status,.monostate) := by
  simp only [parse,h,hfull,ok_bind]
  exact if_pos hstatus

/-- A request without a method token is refused. -/
theorem parse_unrecognized (setting : ParserSetting) {req : Bytes} (h : getReqT req=none) :
    parse setting req=.ok (.badHttp,.monostate) := by
  simp only [parse,h]

/-- Without a blank line every request is incomplete. -/
theorem checkIsFullRequest_noBlank {req : Bytes} (hs : req.length ≤ maxSize)
    (h : ¬blankLine<:+:req) (kind : EHttpReq) :
    checkIsFullRequest req kind=.ok .notFullReq := if_pos ((find_zero_eq_npos_iff hs).mpr h)

/-- With a blank line every request but a POST is complete. -/
theorem checkIsFullRequest_blank {req : Bytes} (hs : req.length ≤ maxSize)
    (h : blankLine<:+:req) {kind : EHttpReq} (hkind : kind≠.post) :
    checkIsFullRequest req kind=.ok .success := by
  unfold checkIsFullRequest
  dsimp only
  rw [if_neg (by rw [find_zero_eq_npos_iff hs,not_not]; exact h),if_pos hkind]

end Photogram.AuthHttpParser
