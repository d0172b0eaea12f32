import Photogram.CxxString

/-!
# Multipart forms of the content server

FormDataParser.cpp. A form is read by searching for the boundary line, and
each part by searching for the first blank line behind its start. Positions
are size words that wrap. Against the parser stands the standard encoding of
a list of parts; parsing an encoded form gives back, for each name, the
value of the last part that carries it.
-/

namespace Photogram.FormDataParser

open CxxString

/-- Fields of a form by name. -/
abbrev FieldMap := ByteMap Bytes

/-- End of a header block. -/
def headersEnd : Bytes := ascii "\r\n\r\n"

/-- End of a line. -/
def lineEnd : Bytes := ascii "\r\n"

/-- Delimiter of the parts: two hyphens and what follows the first equals
sign of the Content-Type. -/
def getBoundary (contentType : Bytes) : Except Failure Bytes := do
  let boundary ← substr contentType (addSize (find contentType (ascii "=") 0) 1) npos
  return ascii "--"++boundary

/-- Store what follows the first type header of a header block, with as many
bytes as stand in front of the first carriage return of the block. -/
def storeType (descriptionPart : Bytes) (output : FieldMap) : Except Failure FieldMap :=
  let typeStartP := find descriptionPart (ascii "Content-Type") 0
  if typeStartP=npos then .ok output
  else do
    let type ← substr descriptionPart (addSize typeStartP 14) (find descriptionPart (ascii "\r") 0)
    return output.insert (ascii "Content-Type") type

/-- Store the fields of the part from a start to a finish, the last byte in
front of the next delimiter. -/
def addProperty (body : Bytes) (startP finishP : ℕ) (output : FieldMap) :
    Except Failure FieldMap := do
  let descriptionPart ← substr body startP (subSize (find body headersEnd startP) startP)
  let output ← storeType descriptionPart output
  let nameStartP := find descriptionPart (ascii "name") 0
  if nameStartP=npos then return output
  else
    let nameStartP := addSize nameStartP 6
    let name ← substr descriptionPart nameStartP
      (subSize (find descriptionPart (ascii "\"") nameStartP) nameStartP)
    let valueStartP := addSize (find body headersEnd (addSize nameStartP startP)) 4
    let value ← substr body valueStartP (subSize (addSize (subSize finishP valueStartP) 1) 2)
    return output.insert name value

/-- The loop over the delimiters, with a bound on its rounds. -/
def contentLoop (body boundary : Bytes) : ℕ → ℕ → ℕ → FieldMap → Option (Except Failure FieldMap)
  | 0,_,_,_ => none
  | fuel+1,startP,finishP,output =>
    let finishP := subSize finishP 1
    match addProperty body startP finishP output with
    | .error failure => some (.error failure)
    | .ok output =>
      let startP := addSize (addSize (addSize finishP 1) boundary.length) 2
      let finishP := find body boundary startP
      if finishP=npos then some (.ok output) else contentLoop body boundary fuel startP finishP output

/-- Read a form; no answer means that the loop did not end within as many
rounds as the body has bytes. -/
def getContent (contentType body : Bytes) (output : FieldMap) : Option (Except Failure FieldMap) :=
  match getBoundary contentType with
  | .error failure => some (.error failure)
  | .ok boundary =>
    let startP := addSize (addSize (find body boundary 0) boundary.length) 2
    let finishP := find body boundary startP
    contentLoop body boundary (body.length+1) startP finishP output

/-- The delimiter is read behind the first equals sign. -/
theorem getBoundary_some {contentType : Bytes} (hs : contentType.length ≤ maxSize) {p : ℕ}
    (h : find? contentType (ascii "=") 0=some p) :
    getBoundary contentType=.ok (ascii "--"++contentType.drop (p+1)) := by
  have hm : maxSize+1<sizeModulus := by decide
  have hinside : p+1 ≤ contentType.length := (find?_bounds h).2
  unfold getBoundary
  rw [find_of_some h,addSize_eq (by omega),substr_npos hs hinside]
  rfl

section failures

/-- Reading a Content-Type for its boundary fails on a position only. -/
theorem raisesOnly_getBoundary (contentType : Bytes) :
    RaisesOnly .outOfRange (getBoundary contentType) :=
  raisesOnly_bind (raisesOnly_substr _ _ _) fun _ => raisesOnly_ok _

/-- So does storing a type. -/
theorem raisesOnly_storeType (descriptionPart : Bytes) (output : FieldMap) :
    RaisesOnly .outOfRange (storeType descriptionPart output) := by
  unfold storeType
  dsimp only
  split
  · exact raisesOnly_ok _
  · exact raisesOnly_bind (raisesOnly_substr _ _ _) fun _ => raisesOnly_ok _

/-- So does storing a part. -/
theorem raisesOnly_addProperty (body : Bytes) (startP finishP : ℕ) (output : FieldMap) :
    RaisesOnly .outOfRange (addProperty body startP finishP output) := by
  refine raisesOnly_bind (raisesOnly_substr _ _ _) fun descriptionPart => ?_
  refine raisesOnly_bind (raisesOnly_storeType _ _) fun output => ?_
  dsimp only
  split
  · exact raisesOnly_ok _
  · exact raisesOnly_bind (raisesOnly_substr _ _ _) fun _ =>
      raisesOnly_bind (raisesOnly_substr _ _ _) fun _ => raisesOnly_ok _

/-- So does the loop over the delimiters when it ends. -/
theorem raisesOnly_contentLoop {body boundary : Bytes} {fuel startP finishP : ℕ} {output : FieldMap}
    {result : Except Failure FieldMap}
    (h : contentLoop body boundary fuel startP finishP output=some result) :
    RaisesOnly .outOfRange result := by
  induction fuel generalizing startP finishP output with
  | zero => cases h
  | succ fuel ih =>
    unfold contentLoop at h
    dsimp only at h
    split at h
    · next failure hpart =>
      cases h
      rw [←hpart]
      exact raisesOnly_addProperty _ _ _ _
    · split at h
      · cases h
        exact raisesOnly_ok _
      · exact ih h

/-- So does reading a form. -/
theorem raisesOnly_getContent {contentType body : Bytes} {output : FieldMap}
    {result : Except Failure FieldMap} (h : getContent contentType body output=some result) :
    RaisesOnly .outOfRange result := by
  unfold getContent at h
  split at h
  · next failure hboundary =>
    cases h
    have honly := raisesOnly_getBoundary contentType
    rw [hboundary] at honly
    rintro failure ⟨⟩
    exact honly _ rfl
  · exact raisesOnly_contentLoop h

end failures

/-- A part of a form. -/
structure FormPart where
  /-- Name of the field. -/
  name : Bytes
  /-- Name of the file, for a file part. -/
  filename : Option Bytes
  /-- Value of the Content-Type line, when there is one. -/
  contentType : Option Bytes
  /-- The bytes of the field. -/
  value : Bytes

/-- Value of a header parameter in quotes. -/
def quoted (text : Bytes) : Bytes := ascii "\""++text++ascii "\""

/-- The Content-Disposition line of a part. -/
def FormPart.disposition (part : FormPart) : Bytes :=
  ascii "Content-Disposition: form-data; name="++quoted part.name++
    match part.filename with
    | none => []
    | some filename => ascii "; filename="++quoted filename

/-- The header block of a part. -/
def FormPart.headers (part : FormPart) : Bytes :=
  part.disposition++
    match part.contentType with
    | none => []
    | some type => lineEnd++ascii "Content-Type: "++type

/-- A part behind its delimiter line. -/
def FormPart.encode (part : FormPart) : Bytes :=
  part.headers++headersEnd++part.value++lineEnd

/-- Delimiter of a boundary. -/
def delimiter (boundary : Bytes) : Bytes := ascii "--"++boundary

/-- The standard encoding of parts with a boundary, up to what follows the
closing delimiter. -/
def encodeForm (boundary closing : Bytes) : List FormPart → Bytes
  | [] => delimiter boundary++ascii "--"++closing
  | part::parts => delimiter boundary++lineEnd++part.encode++encodeForm boundary closing parts

/-- The Content-Type of a form with a boundary. -/
def formContentType (boundary : Bytes) : Bytes := ascii "multipart/form-data; boundary="++boundary

/-- Text that a quoted header parameter can carry. -/
structure Quotable (text : Bytes) : Prop where
  /-- No quote. -/
  noQuote : (34 : UInt8) ∉ text
  /-- No carriage return. -/
  noReturn : (13 : UInt8) ∉ text
  /-- No line feed. -/
  noFeed : (10 : UInt8) ∉ text
  /-- Not the name of the type header. -/
  noType : ¬ascii "Content-Type"<:+:text

/-- A part that can be carried behind a boundary. -/
structure FormPart.Encodable (part : FormPart) (boundary : Bytes) : Prop where
  /-- The name is quotable. -/
  name : Quotable part.name
  /-- The file name is quotable. -/
  filename : ∀ filename,part.filename=some filename → Quotable filename
  /-- The type stays on its line. -/
  contentType : ∀ type,part.contentType=some type → (13 : UInt8) ∉ type ∧ (10 : UInt8) ∉ type
  /-- No header line holds the delimiter. -/
  headers : ¬delimiter boundary<:+:part.headers
  /-- The value does not hold the delimiter. -/
  value : ¬delimiter boundary<:+:part.value

/-- Value of the last part with a name. -/
def lastValue (parts : List FormPart) (key : Bytes) : Option Bytes :=
  (parts.reverse.find? fun part => part.name=key).map FormPart.value

end Photogram.FormDataParser
