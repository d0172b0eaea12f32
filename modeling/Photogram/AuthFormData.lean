import Photogram.AuthRequest

/-!
# Multipart forms of the authentication server

The separator is rebuilt from the request's own text and its matches cut
the body into parts. Text parts are stored until the part named password;
every later part is a photo, of which only the coordinates are kept. The
loop's cursor is the start of the first part before the first search and
the start of a separator afterwards. Two reads leave live storage: a search
whose count exceeds its literal and a view of a destroyed string. Both are
taken either strictly or with the value a reader expects.
-/

namespace Photogram.AuthFormData

open CxxString QueryString AuthRequest

/-- How reads outside live storage are taken. -/
inductive StorageReading where
  /-- Such a read is undefined. -/
  | strict
  /-- An overlong literal is found nowhere; a view still shows its string. -/
  | lenient
  deriving DecidableEq

/-- Coordinates of uploaded files: first position and number of bytes. -/
abbrev FileMap := ByteMap (ℕ×ℕ)

/-- The two maps a form is parsed into. -/
structure FormState where
  /-- Text fields by name, with the type of the photo. -/
  userProperties : PropertyMap
  /-- Files by file name. -/
  filesCoordinates : FileMap

/-- Both maps empty. -/
def emptyForm : FormState := ⟨∅,∅⟩

/-- Key under which the type of the photo is stored. -/
def photoTypeKey : Bytes := ascii "photo_type"

/-- Name of the text field behind which photos are expected. -/
def passwordName : Bytes := ascii "password"

/-- Header literal of a part's type. -/
def contentType : Bytes := ascii "Content-Type: "

/-- Separator of the parts: two dashes and the boundary with its first dash. -/
def getSeparator (request : Bytes) : Except Failure Bytes := do
  let value ← getValueSomeHeader request (ascii "boundary=-") 0
  let boundary ← optionalValue value
  return ascii "--"++boundary

/-- Text shown by a view whose string is already destroyed. -/
def readExpired (reading : StorageReading) (text : Bytes) : Except Failure Bytes :=
  match reading with
  | .strict => .error (.undefined .expiredView)
  | .lenient => .ok text

/-- Search for the first count characters stored at a literal, whose
storage ends with one zero character. -/
def findLiteral (reading : StorageReading) (s literal : Bytes) (pos count : ℕ) :
    Except Failure ℕ :=
  if count ≤ literal.length+1 then .ok (find s ((literal++[0]).take count) pos)
  else match reading with
    | .strict => .error (.undefined .literalOverrun)
    | .lenient => .ok npos

/-- Record the type of a photo part and the coordinates of its content. -/
def addPhoto (reading : StorageReading) (request : Bytes) (startPositon finishPositon : ℕ)
    (state : FormState) : Except Failure FormState := do
  let endPhotoHeaders := find request blankLine startPositon
  let photoHeaders ← substr request startPositon (subSize endPhotoHeaders startPositon)
  let typeText ← getType photoHeaders contentType 0
  let photoType ← readExpired reading typeText
  let argPostion := find photoHeaders contentType 0
  let startPhoto := addSize (subSize (addSize (addSize (addSize startPositon argPostion) 15)
    photoType.length) 1) 4
  let sizePhoto := subSize (subSize finishPositon startPhoto) 2
  let name ← getPropertisName request startPositon (ascii "filename")
  return ⟨state.userProperties.insert photoTypeKey photoType,
    state.filesCoordinates.insert name (startPhoto,sizePhoto)⟩

/-- Body of the loop over the parts: a photo once the flag is set, else a
text field unless the part shows a content type. -/
def visitPart (reading : StorageReading) (request : Bytes) (startPositon finishPositon : ℕ)
    (isNextPhoto : Bool) (state : FormState) : Except Failure (Bool×FormState) :=
  if isNextPhoto then do
    let state ← addPhoto reading request startPositon finishPositon state
    return (true,state)
  else do
    let found ← findLiteral reading request (ascii "Content-Type:") startPositon
      (subSize finishPositon startPositon)
    if found=npos then
      let name ← getPropertisName request startPositon (ascii "name")
      let startValue := addSize (find request blankLine startPositon) 4
      let endValue := find request crlf startValue
      let value ← substr request startValue (subSize endValue startValue)
      return (name=passwordName,{state with userProperties := state.userProperties.insert name value})
    else return (false,state)

/-- The loop over the separators. Each round searches behind the cursor;
the fuel bounds the rounds and is never the reason to stop. -/
def separatorLoop (reading : StorageReading) (request separator : Bytes) :
    ℕ → ℕ → ℕ → Bool → FormState → Except Failure FormState
  | 0,_,_,_,state => .ok state
  | fuel+1,startPositon,finishPositon,isNextPhoto,state =>
    let finishPositon := find request separator (addSize finishPositon separator.length)
    if finishPositon=npos then .ok state
    else do
      let visited ← visitPart reading request startPositon finishPositon isNextPhoto state
      let startPositon := addSize (subSize (addSize finishPositon separator.length) 1) 2
      separatorLoop reading request separator fuel startPositon finishPositon visited.1 visited.2

/-- Visit the parts from the first separator on; raises when there is none. -/
def separatorToPropertis (reading : StorageReading) (request separator : Bytes)
    (state : FormState) : Except Failure FormState :=
  let startPositon := find request separator 0
  if startPositon=npos then .error (.thrown (.runtimeError "400"))
  else
    let startPositon := addSize startPositon (separator.length+2)
    separatorLoop reading request separator (request.length+1) startPositon startPositon false state

/-- Parse a registration form. -/
def parse (reading : StorageReading) (request : Bytes) (state : FormState) :
    Except Failure FormState := do
  let separator ← getSeparator request
  separatorToPropertis reading request separator state

/-- Parse a form with a single photo part. -/
def parsePhotoOnly (reading : StorageReading) (request : Bytes) (state : FormState) :
    Except Failure FormState := do
  let separator ← getSeparator request
  let startPositon := find request separator 0
  if startPositon=npos then .error (.thrown (.runtimeError "400"))
  else
    let startPositon := addSize startPositon (separator.length+2)
    let finishPositon := find request separator (addSize startPositon separator.length)
    if finishPositon=npos then .error (.thrown (.runtimeError "400"))
    else addPhoto reading request startPositon finishPositon state

end Photogram.AuthFormData
