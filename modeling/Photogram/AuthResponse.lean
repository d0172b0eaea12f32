import Photogram.JsonValue

/-!
# Replies of the authentication server

ResponseSender.cpp. A reply is the call of a sender with its arguments; its
rendering is the list of byte strings handed to the socket, one for each
send. JSON texts come from the library, which raises on a string that is
not UTF-8.
-/

namespace Photogram.AuthResponse

open CxxString JsonValue

/-- Calls of the senders. -/
inductive Reply where
  /-- An answer with a JSON body. -/
  | answerJson (origin : Bytes) (body : Json)
  /-- An answer without a body. -/
  | answerEmpty (origin : Bytes)
  /-- The tokens of a session. -/
  | answerTokens (origin refreshToken accessToken nickname : Bytes)
  /-- A photo. -/
  | answerBinData (origin type binData : Bytes)
  /-- The answer to OPTIONS. -/
  | answerOptions (origin : Bytes)
  /-- An error with its code and text. -/
  | sendError (origin errorCode textError : Bytes)

/-- Decimal numeral of a size. -/
def sizeText (size : ℕ) : Bytes := ascii (toString size)

/-- Body of a token answer. -/
def tokensBody (accessToken nickname : Bytes) : Json :=
  .object [(ascii "accessToken",.string accessToken),(ascii "nickname",.string nickname)]

/-- Body of an error. -/
def errorBody (textError : Bytes) : Json := .object [(ascii "error",.string textError)]

/-- Byte strings a sender hands to the socket. -/
def Reply.render (dump : Json → Except Failure Bytes) : Reply → Except Failure (List Bytes)
  | .answerJson origin jsonBody => do
    let body ← dump jsonBody
    return [ascii "HTTP/1.1 200 OK\r\nVersion: HTTP/1.1\r\nAccess-Control-Allow-Origin: "++origin++
      ascii "\r\nContent-Type: application/json\r\nContent-Length: "++sizeText body.length++
      ascii "\r\n\r\n"++body]
  | .answerEmpty origin =>
    return [ascii "HTTP/1.1 200 OK\r\nVersion: HTTP/1.1\r\nAccess-Control-Allow-Origin: "++origin++
      ascii "\r\nContent-Length: 0\r\n\r\n"]
  | .answerTokens origin refreshToken accessToken nickname => do
    let body ← dump (tokensBody accessToken nickname)
    return [ascii "HTTP/1.1 200 OK\r\nSet-Cookie: refreshToken="++refreshToken++
      ascii "; HttpOnly; Path=/; Max-Age=604800; SameSite=Strict\r\nAccess-Control-Allow-Origin: "++
      origin++
      ascii "\r\nAccess-Control-Allow-Credentials: true\r\nContent-Type: application/json\r\n"++
      ascii "Content-Length: "++sizeText body.length++ascii "\r\n\r\n"++body]
  | .answerBinData origin type binData =>
    return [ascii "HTTP/1.1 200 OK\r\nVersion: HTTP/1.1\r\nAccess-Control-Allow-Origin: "++origin++
      ascii "\r\nAccess-Control-Allow-Methods: GET\r\nContent-Type: "++type++
      ascii "\r\nContent-Length: "++sizeText binData.length++ascii "\r\n\r\n",binData]
  | .answerOptions origin =>
    return [ascii "HTTP/1.1 204 No Content\r\nAccess-Control-Allow-Origin: "++origin++
      ascii "\r\nAccess-Control-Allow-Methods: POST, GET, OPTIONS\r\n"++
      ascii "Access-Control-Allow-Headers: Content-Type, Authorization\r\n"++
      ascii "Access-Control-Allow-Credentials: true\r\n\r\n"]
  | .sendError origin errorCode textError => do
    let body ← dump (errorBody textError)
    return [ascii "HTTP/1.1 "++errorCode++
      ascii " Unauthorized\r\nAccess-Control-Allow-Origin: "++origin++
      ascii "\r\nAccess-Control-Allow-Credentials: true\r\nContent-Type: application/json\r\n"++
      ascii "Content-Length: "++sizeText body.length++ascii "\r\n\r\n"++body]

end Photogram.AuthResponse
