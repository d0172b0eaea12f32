import Photogram.AnotherServerConnection
import Photogram.EffectLog
import Photogram.FormDataRounds
import Photogram.QueryString

/-!
# Client connection of the content server

TcpConnection.cpp and FormRequest.cpp. A GET or POST request is answered by
the callback of the inquiry it starts: an error word is answered with its
status, any other text is taken for the id of the client, for whom the target
is served. The client library delivers the request in parts; the database
client is a parameter over a world.
-/

namespace Photogram.ContentConnection

open CxxString EffectLog JsonValue QueryString FormDataParser FormDataRounds AnotherServerConnection

/-- Value of a header field, which stays on its line. -/
structure FieldValue where
  /-- The value. -/
  bytes : Bytes
  /-- It holds no carriage return. -/
  noReturn : (13 : UInt8) ∉ bytes
  /-- It holds no line feed. -/
  noFeed : (10 : UInt8) ∉ bytes

/-- Methods the connection tells apart. -/
inductive Verb where
  | options
  | get
  | post
  /-- Any other method. -/
  | other
  deriving DecidableEq

/-- The parts of a client's request; an absent field is empty. -/
structure ClientRequest where
  /-- Method. -/
  method : Verb
  /-- Target. -/
  target : Bytes
  /-- Origin field. -/
  origin : Bytes
  /-- Authorization field. -/
  authorization : FieldValue
  /-- Content-Type field. -/
  contentType : CxxText
  /-- Body. -/
  body : CxxText

/-- Operations of the database client. -/
inductive DbOperation where
  | getPostsList (id limit offset : Bytes)
  | getPostsListById (authorId userId limit offset : Bytes)
  | getPostPhotoById (photoId : Bytes)
  | addNewPost (userId : Bytes) (propertyMap : FieldMap)
  | delPostById (postId id : Bytes)
  | likeClicked (postId userId : Bytes)

/-- What an operation answers; a photo is its type and its bytes. -/
abbrev DbOperation.Answer : DbOperation → Type
  | .getPostsList _ _ _ | .getPostsListById _ _ _ _ => Json
  | .getPostPhotoById _ => Bytes×Bytes
  | .addNewPost _ _ | .delPostById _ _ | .likeClicked _ _ => Unit

/-- User an operation acts for; a photo is anybody's. -/
def DbOperation.actingUser : DbOperation → Option Bytes
  | .getPostsList id _ _ | .getPostsListById _ id _ _ => some id
  | .getPostPhotoById _ => none
  | .addNewPost id _ | .delPostById _ id | .likeClicked _ id => some id

/-- Answers of the connection, by the functions that form them. -/
inductive Response where
  /-- A bare status. -/
  | bare (status : ℕ)
  /-- The status of an error word. -/
  | wordError (status : ℕ) (clientAddres : Bytes)
  | formResponseOptions (clientAddres : Bytes)
  | formResponseText (clientAddres message : Bytes)
  | formResponseJson (clientAddres json : Bytes)
  | formResponseOk (clientAddres : Bytes)
  | formResponseError (clientAddres : Bytes) (error : ℕ)
  | formResponseWithBinData (clientAddres photoType binData : Bytes)

/-- What the connection shows. -/
inductive ContentEvent where
  /-- An operation of the database client was called. -/
  | operation (op : DbOperation)
  /-- An answer was sent. -/
  | responded (response : Response)

/-- What the connection takes from outside, over a world. -/
structure ContentServices (τ : Type) where
  /-- Value of a JSON text from the authentication server. -/
  jsonParse : Bytes → Option Json
  /-- Text of a JSON value, when all its strings are UTF-8. -/
  dump : Json → Option Bytes
  /-- Effect of opening a database client. -/
  connect : τ → Except CxxException Unit×τ
  /-- Effect of an operation. -/
  operate : (op : DbOperation) → τ → Except CxxException op.Answer×τ

/-- The inquiry for the id of an access token. -/
def formRequestGetIdByAccess (userAgent : FieldValue) (accesstoken host target : Bytes) : Bytes :=
  ascii "GET "++target++ascii " HTTP/1.1\r\nHost: "++host++ascii "\r\nAuthorization: "++accesstoken++
    ascii "\r\nOrigin: localhost:8081\r\nUser-Agent: "++userAgent.bytes++ascii "\r\n\r\n"

/-- The inquiry of a client's request, with the default host and target. -/
def ClientRequest.inquiry (userAgent : FieldValue) (request : ClientRequest) : Bytes :=
  formRequestGetIdByAccess userAgent request.authorization.bytes (ascii "127.0.0.1")
    (ascii "/getIdForServerByAccess")

/-- Query parser of the content server. -/
def URLParser (target : Bytes) : Except Failure PropertyMap := scanQuery target ∅ 0

/-- A target mentions a path. -/
def Mentions (target path : Bytes) : Prop := find target path 0≠npos

instance (target path : Bytes) : Decidable (Mentions target path) := inferInstanceAs (Decidable (_≠_))

/-- Fields of the form in a request. -/
def ClientRequest.form (request : ClientRequest) : Except Failure FieldMap :=
  (getContent request.contentType.bytes request.body.bytes ∅).get
    (getContent_isSome request.contentType.size_le request.body.size_le ∅)

section handlers

variable {τ : Type} (services : ContentServices τ)

/-- Send an answer. -/
def respond (response : Response) : Call τ ContentEvent Unit := record (.responded response)

/-- Call an operation of the database client. -/
def operate (op : DbOperation) : Call τ ContentEvent op.Answer := do
  record (.operation op)
  act (services.operate op)

/-- Serve the target of a GET request for a user. -/
def getTarget (request : ClientRequest) (id : Bytes) : Call τ ContentEvent Response :=
  if request.target=ascii "/getId" then
    return .formResponseText request.origin (ascii "Hello World! Your id = "++id)
  else if Mentions request.target (ascii "/getPostsList") then do
    let urlStrArg ← compute (URLParser request.target)
    let json ← operate services
      (.getPostsList id (property urlStrArg (ascii "LIMIT")) (property urlStrArg (ascii "OFFSET")))
    let body ← compute (dumpText services.dump json)
    return .formResponseJson request.origin body
  else if Mentions request.target (ascii "/getByIdPostsList") then do
    let urlStrArg ← compute (URLParser request.target)
    let json ← operate services
      (.getPostsListById (property urlStrArg (ascii "id")) id (property urlStrArg (ascii "LIMIT"))
        (property urlStrArg (ascii "OFFSET")))
    let body ← compute (dumpText services.dump json)
    return .formResponseJson request.origin body
  else if Mentions request.target (ascii "/getPostPhoto") then do
    let urlStrArg ← compute (URLParser request.target)
    let photo ← operate services (.getPostPhotoById (property urlStrArg (ascii "photo_id")))
    return .formResponseWithBinData request.origin photo.1 photo.2
  else return .bare 400

/-- Serve the target of a POST request for a user. -/
def postTarget (request : ClientRequest) (id : Bytes) : Call τ ContentEvent Unit :=
  if request.target=ascii "/addNewPost" then do
    let data ← compute request.form
    operate services (.addNewPost id data)
  else if Mentions request.target (ascii "/deletePost") then do
    let urlStrArg ← compute (URLParser request.target)
    operate services (.delPostById (property urlStrArg (ascii "post_id")) id)
  else if Mentions request.target (ascii "/likeClicked") then do
    let urlStrArg ← compute (URLParser request.target)
    operate services (.likeClicked (property urlStrArg (ascii "post_id")) id)
  else return ()

/-- Every error of a target ends as an internal server error; the answer 400
of a POST is overwritten at once. -/
def targetError (request : ClientRequest) (_ : CxxException) : Call τ ContentEvent Response :=
  return .formResponseError request.origin 500

/-- Serve a request for a user. -/
def serveTarget (request : ClientRequest) (id : Bytes) : Call τ ContentEvent Unit :=
  match request.method with
  | .get => do
    -- A database client that cannot be opened raises out of the callback.
    act services.connect
    let response ← attempt (getTarget services request id) (targetError request)
    respond response
  | .post => do
    let response ← attempt (do
      act services.connect
      postTarget services request id
      return .formResponseOk request.origin) (targetError request)
    respond response
  | _ => return ()

/-- The callback of the inquiry. -/
def onGetId (request : ClientRequest) (id : Bytes) : Call τ ContentEvent Unit :=
  if id=unauthorized then respond (.wordError 401 request.origin)
  else if id=badRequest then respond (.wordError 400 request.origin)
  else if id=internalServerError then respond (.wordError 500 request.origin)
  else serveTarget services request id

/-- Handle a delivered request; true when it starts an inquiry. -/
def handleRequest (request : ClientRequest) : Call τ ContentEvent Bool :=
  match request.method with
  | .options => do
    respond (.formResponseOptions request.origin)
    return false
  | .get => do
    act services.connect
    return true
  | .post => return true
  | .other => return false

/-- An operation acts for a user, or for nobody. -/
def ServesUser (id : Bytes) : ContentEvent → Prop
  | .operation op => op.actingUser=none ∨ op.actingUser=some id
  | .responded _ => True

/-- No operation is called. -/
def IsResponse : ContentEvent → Prop
  | .operation _ => False
  | .responded _ => True

/-- Handling a request calls no operation. -/
theorem handleRequest_emits (request : ClientRequest) :
    Emits (handleRequest services request) IsResponse := by
  unfold handleRequest
  cases request.method with
  | options => exact emits_bind (emits_record trivial) fun _ => emits_pure _ _
  | get => exact emits_bind (emits_act _ _) fun _ => emits_pure _ _
  | post => exact emits_pure _ _
  | other => exact emits_pure _ _

/-- Calling an operation shows it. -/
theorem emits_operate {op : DbOperation} {allowed : ContentEvent → Prop}
    (h : allowed (.operation op)) : Emits (operate services op) allowed :=
  emits_bind (emits_record h) fun _ => emits_act _ _

/-- The target of a GET request is served for the user alone. -/
theorem getTarget_emits (request : ClientRequest) (id : Bytes) :
    Emits (getTarget services request id) (ServesUser id) := by
  unfold getTarget
  split
  · exact emits_pure _ _
  split
  · refine emits_bind (emits_compute _ _) fun urlStrArg => ?_
    refine emits_bind (emits_operate services (Or.inr rfl)) fun json => ?_
    exact emits_bind (emits_compute _ _) fun body => emits_pure _ _
  split
  · refine emits_bind (emits_compute _ _) fun urlStrArg => ?_
    refine emits_bind (emits_operate services (Or.inr rfl)) fun json => ?_
    exact emits_bind (emits_compute _ _) fun body => emits_pure _ _
  split
  · refine emits_bind (emits_compute _ _) fun urlStrArg => ?_
    exact emits_bind (emits_operate services (Or.inl rfl)) fun photo => emits_pure _ _
  · exact emits_pure _ _

/-- So is the target of a POST request. -/
theorem postTarget_emits (request : ClientRequest) (id : Bytes) :
    Emits (postTarget services request id) (ServesUser id) := by
  unfold postTarget
  split
  · exact emits_bind (emits_compute _ _) fun data => emits_operate services (Or.inr rfl)
  split
  · exact emits_bind (emits_compute _ _) fun urlStrArg => emits_operate services (Or.inr rfl)
  split
  · exact emits_bind (emits_compute _ _) fun urlStrArg => emits_operate services (Or.inr rfl)
  · exact emits_pure _ _

/-- A request is served for the user alone. -/
theorem serveTarget_emits (request : ClientRequest) (id : Bytes) :
    Emits (serveTarget services request id) (ServesUser id) := by
  unfold serveTarget
  cases request.method with
  | get =>
    refine emits_bind (emits_act _ _) fun _ => ?_
    refine emits_bind ?_ fun response => emits_record trivial
    exact emits_attempt (getTarget_emits services request id) fun _ => emits_pure _ _
  | post =>
    refine emits_bind ?_ fun response => emits_record trivial
    refine emits_attempt ?_ fun _ => emits_pure _ _
    refine emits_bind (emits_act _ _) fun _ => ?_
    exact emits_bind (postTarget_emits services request id) fun _ => emits_pure _ _
  | options => exact emits_pure _ _
  | other => exact emits_pure _ _

/-- The callback acts for the text it is given alone. -/
theorem onGetId_emits (request : ClientRequest) (id : Bytes) :
    Emits (onGetId services request id) (ServesUser id) := by
  unfold onGetId
  split
  · exact emits_record trivial
  split
  · exact emits_record trivial
  split
  · exact emits_record trivial
  · exact serveTarget_emits services request id

/-- For an error word it calls no operation. -/
theorem onGetId_word (request : ClientRequest) {id : Bytes}
    (h : id=unauthorized ∨ id=badRequest ∨ id=internalServerError) :
    Emits (onGetId services request id) IsResponse := by
  unfold onGetId
  split
  · exact emits_record trivial
  split
  · exact emits_record trivial
  split
  · exact emits_record trivial
  · next hunauthorized hbadRequest hinternal =>
    rcases h with h|h|h
    · exact absurd h hunauthorized
    · exact absurd h hbadRequest
    · exact absurd h hinternal

end handlers

end Photogram.ContentConnection
