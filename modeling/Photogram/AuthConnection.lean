import Photogram.EffectLog
import Photogram.JwtToken
import Photogram.AuthResponse
import Photogram.AuthHttpParser

/-!
# Client connection of the authentication server

WorkWithClient.cpp: the receive loop and its dispatcher. The database, the
clock and the libraries are parameters over a world; every recv finds the
world in whatever state the other connections left it. Events show how each
received chunk was judged, which tokens were accepted, which database calls
were made and which replies were sent.
-/

namespace Photogram.AuthConnection

open CxxString EffectLog JsonValue QueryString JwtToken AuthResponse AuthHttpParser

/-- Database calls of the dispatcher. -/
inductive DbCall where
  | checkPassword (login password : Bytes)
  | getNicknameById (id : Bytes)
  | addNewUser (postInfo : PostTInfo)
  | updateProfilePhoto (postInfo : PostTInfo) (id : Bytes)
  | updateProfileData (jsonBody : Json) (id : Bytes)
  | updateProfilePassword (password id : Bytes)
  | getProfileInformation (nickname : Bytes)
  | getProfilePhoto (nickname : Bytes)
  | getUsers (properties : PropertyMap) (id : Bytes)
  | getPhotoById (id : Bytes)
  | makeFriend (userId friendId : Bytes)
  | deleteFriend (userId friendId : Bytes)
  | getStatus (userId friendId : Bytes)

/-- What a database call answers; a photo is its type and its bytes. -/
abbrev DbCall.Answer : DbCall → Type
  | .checkPassword _ _ | .getNicknameById _ | .addNewUser _ => Bytes
  | .updateProfilePhoto _ _ | .updateProfileData _ _ | .updateProfilePassword _ _ => Unit
  | .makeFriend _ _ | .deleteFriend _ _ => Unit
  | .getProfileInformation _ | .getUsers _ _ | .getStatus _ _ => Json
  | .getProfilePhoto _ | .getPhotoById _ => Bytes×Bytes

/-- What a connection shows. -/
inductive Event where
  /-- The buffered request is incomplete. -/
  | waited
  /-- The buffered request was refused and cleared. -/
  | discarded
  /-- The buffered request is handed to the dispatcher. -/
  | dispatched (info : HttpTypesInfo)
  /-- An access token was accepted with a subject. -/
  | tokenAccepted (accessToken id : Bytes)
  /-- A database call was made. -/
  | dbCall (call : DbCall)
  /-- A reply was sent. -/
  | sent (reply : Reply)
  /-- The socket was closed. -/
  | socketClosed

/-- What the connection takes from outside, over a world. -/
structure Services (σ : Type) where
  /-- Library and reading of the request parser. -/
  setting : ParserSetting
  /-- Token library. -/
  jwt : JwtLibrary
  /-- Clock reading. -/
  now : σ → ℕ
  /-- Text of a JSON value, when all its strings are UTF-8. -/
  dump : Json → Option Bytes
  /-- Effect of a database call. -/
  call : (call : DbCall) → σ → Except CxxException call.Answer×σ

/-- A call of the connection. -/
abbrev Handler (σ α : Type) := Call σ Event α

/-- Key of every token. -/
def secret : Bytes := ascii "It's a GitHub, so it's not a secret anymore"

/-- Code and text of an error answer. -/
abbrev ErrorAnswer := Bytes×Bytes

/-- The answer to anything unexpected. -/
def internalError : ErrorAnswer := (ascii "500",ascii "Internal Server Error")

/-- The texts of an occupied email or nickname. -/
def occupied (e : CxxException) : Option Bytes :=
  if e=.runtimeError "This email is already occupied" then
    some (ascii "This email is already occupied")
  else if e=.runtimeError "The nickname is already occupied" then
    some (ascii "The nickname is already occupied")
  else none

/-- Errors of a login. -/
def loginError (e : CxxException) : ErrorAnswer :=
  if e=.runtimeError "Invalid login or password" then (ascii "401",ascii "Invalid login or password")
  else internalError

/-- Errors of a registration. -/
def registrationError (e : CxxException) : ErrorAnswer :=
  match occupied e with
  | some text => (ascii "401",text)
  | none => internalError

/-- Errors of a profile update. -/
def updateError (e : CxxException) : ErrorAnswer :=
  match occupied e with
  | some text => (ascii "400",text)
  | none => internalError

/-- Errors of a photo update, which knows one more text. -/
def updatePhotoError (e : CxxException) : ErrorAnswer :=
  match occupied e with
  | some text => (ascii "400",text)
  | none => if e=.runtimeError "400" then (ascii "400",ascii "Bad request") else internalError

/-- Errors of a lookup by nickname. -/
def lookupError (e : CxxException) : ErrorAnswer :=
  if e=.runtimeError "404" then (ascii "404",ascii "Not found") else internalError

/-- Errors of a query. -/
def queryError (e : CxxException) : ErrorAnswer :=
  if e=.runtimeError "bad http" then (ascii "400",ascii "bad http") else internalError

/-- Errors of the friend messages. -/
def friendError (e : CxxException) : ErrorAnswer :=
  if e=.runtimeError "bad http" then (ascii "400",ascii "bad http") else lookupError e

/-- Every error of a token renewal. -/
def renewalError (_ : CxxException) : ErrorAnswer := (ascii "401",ascii "Invalid refresh token")

/-- How the dispatcher leaves the loop body. -/
inductive Exit where
  /-- At its end, where the request is cleared. -/
  | bottom
  /-- Through continue. -/
  | continued
  deriving DecidableEq

variable {σ : Type}

/-- Send a reply. -/
def sendReply (services : Services σ) (reply : Reply) : Handler σ Unit := do
  let _ ← compute (reply.render (dumpText services.dump))
  record (.sent reply)

/-- Make a database call. -/
def callDb (services : Services σ) (call : DbCall) : Handler σ call.Answer := do
  record (.dbCall call)
  act (services.call call)

/-- Make a token at the clock reading of the world. -/
def newToken (services : Services σ) (create : JwtLibrary → Bytes → Bytes → ℕ → Except CxxException Bytes)
    (id : Bytes) : Handler σ Bytes := do
  let now ← readWorld services.now
  raising (create services.jwt id secret now)

/-- Subject of an accepted access token. -/
def acceptedSubject (services : Services σ) (accessToken : Bytes) : Handler σ Bytes := do
  let now ← readWorld services.now
  let id ← raising (checkAccessToken services.jwt accessToken secret now)
  record (.tokenAccepted accessToken id)
  return id

/-- Subject of the access token, or an error reply and the exception again. -/
def checkAccesstoken (services : Services σ) (origin accessToken : Bytes) : Handler σ Bytes :=
  attempt (acceptedSubject services accessToken) fun e => do
    if e=.runtimeError "bad http" then
      sendReply services (.sendError origin (ascii "400") (ascii "bad http"))
    if e=.runtimeError "invalid access token" then
      sendReply services (.sendError origin (ascii "401") (ascii "invalid access token"))
    else sendReply services (.sendError origin internalError.1 internalError.2)
    compute (.error (.thrown e))

/-- A case that answers errors by its table. -/
def answering (services : Services σ) (origin : Bytes) (errors : CxxException → ErrorAnswer)
    (body : Handler σ Unit) : Handler σ Unit :=
  attempt body fun e => sendReply services (.sendError origin (errors e).1 (errors e).2)

/-- A case behind the token check, which continues the loop when it fails. -/
def guarded (services : Services σ) (origin accessToken : Bytes) (body : Bytes → Handler σ Unit) :
    Handler σ Exit := do
  let checked ← attempt (do
    let id ← checkAccesstoken services origin accessToken
    return some id) fun _ => return none
  match checked with
  | none => return .continued
  | some id => do
    body id
    return .bottom

/-- Dispatch a POST message. -/
def dispatchPost (services : Services σ) (postInfo : PostTInfo) : Handler σ Exit :=
  match postInfo.msg with
  | .login => do
    answering services postInfo.origin loginError do
      let login ← compute (textMember postInfo.jsonBody (ascii "login"))
      let password ← compute (textMember postInfo.jsonBody (ascii "password"))
      let id ← callDb services (.checkPassword login password)
      let refreshToken ← newToken services createRefreshToken id
      let accessToken ← newToken services createAccessToken id
      let nickname ← callDb services (.getNicknameById id)
      sendReply services (.answerTokens postInfo.origin refreshToken accessToken nickname)
    return .bottom
  | .registration => do
    answering services postInfo.origin registrationError do
      let _ ← callDb services (.addNewUser postInfo)
      sendReply services (.answerEmpty postInfo.origin)
    return .bottom
  | .updateProfilePhoto =>
    guarded services postInfo.origin postInfo.accessToken fun id =>
      answering services postInfo.origin updatePhotoError do
        let _ ← callDb services (.updateProfilePhoto postInfo id)
        sendReply services (.answerEmpty postInfo.origin)
  | .updateProfileData =>
    guarded services postInfo.origin postInfo.accessToken fun id =>
      answering services postInfo.origin updateError do
        let _ ← callDb services (.updateProfileData postInfo.jsonBody id)
        sendReply services (.answerEmpty postInfo.origin)
  | .updateProfilePassword => do
    -- The conversion of the body stands outside every try block.
    let hashedPassword ← compute postInfo.jsonBody.getString
    guarded services postInfo.origin postInfo.accessToken fun id =>
      answering services postInfo.origin updateError do
        let _ ← callDb services (.updateProfilePassword hashedPassword id)
        sendReply services (.answerEmpty postInfo.origin)

/-- Value of the first query pair. -/
def firstProperty (properties : PropertyMap) : Except Failure Bytes := do
  let element ← mapBegin properties
  return element.2

/-- Renew an access token. -/
def renewToken (services : Services σ) (getInfo : GetTInfo) : Handler σ Unit :=
  answering services getInfo.origin renewalError do
    let now ← readWorld services.now
    let id ← raising (checkRefreshToken services.jwt getInfo.refreshToken secret now)
    let accessToken ← newToken services createAccessToken id
    let nickname ← callDb services (.getNicknameById id)
    sendReply services (.answerTokens getInfo.origin getInfo.refreshToken accessToken nickname)

/-- Case of a GET message, for the subject of its token. -/
def getCase (services : Services σ) (getInfo : GetTInfo) (id : Bytes) : Handler σ Unit :=
  match getInfo.msg with
  | .getNewToken => renewToken services getInfo
  | .getProfileByNickname =>
    answering services getInfo.origin lookupError do
      let body ← callDb services (.getProfileInformation (property getInfo.properties (ascii "nickname")))
      sendReply services (.answerJson getInfo.origin body)
  | .getProfilePhoto =>
    answering services getInfo.origin lookupError do
      let photo ← callDb services (.getProfilePhoto (property getInfo.properties (ascii "nickname")))
      sendReply services (.answerBinData getInfo.origin photo.1 photo.2)
  | .getUsersList =>
    answering services getInfo.origin queryError do
      let json ← callDb services (.getUsers getInfo.properties id)
      sendReply services (.answerJson getInfo.origin json)
  | .getPhotoById =>
    answering services getInfo.origin queryError do
      let photoId ← compute (firstProperty getInfo.properties)
      let photo ← callDb services (.getPhotoById photoId)
      sendReply services (.answerBinData getInfo.origin photo.1 photo.2)
  | .makeFriend =>
    answering services getInfo.origin friendError do
      let _ ← callDb services (.makeFriend id (property getInfo.properties (ascii "friend_id")))
      sendReply services (.answerEmpty getInfo.origin)
  | .deleteFriend =>
    answering services getInfo.origin friendError do
      let _ ← callDb services (.deleteFriend id (property getInfo.properties (ascii "friend_id")))
      sendReply services (.answerEmpty getInfo.origin)
  | .getStatus =>
    answering services getInfo.origin friendError do
      let friendId ← compute (firstProperty getInfo.properties)
      let json ← callDb services (.getStatus id friendId)
      sendReply services (.answerJson getInfo.origin json)
  | .getIdFsByAccess =>
    answering services getInfo.origin (fun _ => internalError)
      (sendReply services (.answerJson getInfo.origin (.object [(ascii "id",.string id)])))

/-- Dispatch a GET message; only a renewal is not guarded. -/
def dispatchGet (services : Services σ) (getInfo : GetTInfo) : Handler σ Exit :=
  match getInfo.msg with
  | .getNewToken => do
    getCase services getInfo []
    return .bottom
  | _ => guarded services getInfo.origin getInfo.accessToken (getCase services getInfo)

/-- Dispatch a parsed request. -/
def dispatch (services : Services σ) (info : HttpTypesInfo) : Handler σ Exit :=
  match info with
  | .options optionsInfo => do
    sendReply services (.answerOptions optionsInfo.origin)
    return .bottom
  | .post postInfo => dispatchPost services postInfo
  | .get getInfo => dispatchGet services getInfo
  | .monostate => return .bottom

/-- Append received bytes; a string beyond its greatest length raises. -/
def append (request received : Bytes) : Except Failure Bytes :=
  if (request++received).length ≤ maxSize then .ok (request++received)
  else .error (.thrown .lengthError)

/-- The request as the next turn of the loop finds it. -/
def nextRequest (request : Bytes) : Exit → Bytes
  | .bottom => []
  | .continued => request

/-- Parse the buffered request and act on the verdict, answering the buffer
the loop goes on with. -/
def serveBuffer (services : Services σ) (request : Bytes) : Handler σ Bytes := do
  let answer ← compute (parse services.setting request)
  match answer.1 with
  | .notFullReq => do
    record .waited
    return request
  | .badHttp | .notSupportType => do
    record .discarded
    return []
  | .success => do
    record (.dispatched answer.2)
    let exit ← dispatch services answer.2
    return nextRequest request exit

/-- One turn of the loop behind a recv that returned bytes. -/
def turn (services : Services σ) (request received : Bytes) : Handler σ Bytes := do
  let request ← compute (append request received)
  serveBuffer services request

/-- What a recv returned. -/
inductive RecvResult where
  /-- At least one byte. -/
  | data (received : Bytes)
  /-- Zero: the peer closed the connection. -/
  | closed
  /-- SOCKET_ERROR. -/
  | socketError
  deriving DecidableEq

/-- The receive loop over the results of its recv calls, each with the world
it finds; the answer is the buffer the loop ends with. Minus one read as a
size word is the largest word, which is not zero and which no string can
grow by. -/
def runLoop (services : Services σ) : Bytes → List (σ×RecvResult) → Handler σ Bytes
  | request,[] => return request
  | request,(_,.closed)::_ => do
    record .socketClosed
    return request
  | _,(world,.socketError)::_ => inWorld world (compute (.error (.thrown .lengthError)))
  | request,(world,.data received)::rest => do
    let request ← inWorld world (turn services request received)
    runLoop services request rest

end Photogram.AuthConnection
