import Photogram.AuthParserSafety
import Photogram.FormDataParser

/-!
# The boundary of a multipart request

A Content-Type line with parameters, read by both servers. The authentication
server searches the request for a boundary that begins with a dash and takes
everything up to the end of the line; the content server takes everything
behind the first equals sign. So the one needs the boundary to be the last
parameter, the other to be the only one.
-/

namespace Photogram.MultipartBoundary

open CxxString QueryString AuthRequest AuthFormData AuthParserSafety
open FormDataParser (delimiter getBoundary getBoundary_some)

/-- Name of the parameter. -/
def boundaryName : Bytes := ascii "boundary"

/-- A parameter, its name and its value joined by an equals sign. -/
def parameterText (parameter : Bytes×Bytes) : Bytes := parameter.1++61::parameter.2

/-- Parameters behind a media type. -/
def parameterList (parameters : List (Bytes×Bytes)) : Bytes :=
  parameters.flatMap fun parameter => ascii "; "++parameterText parameter

/-- The media type of a form, with parameters. -/
def multipartType (parameters : List (Bytes×Bytes)) : Bytes :=
  ascii "multipart/form-data"++parameterList parameters

/-- Letters, digits, hyphens, underscores and full stops. -/
def isBoundaryChar (c : UInt8) : Bool :=
  isDigit c || (65 ≤ c && c ≤ 90) || (97 ≤ c && c ≤ 122) || c=45 || c=95 || c=46

/-- A boundary of 1 to 70 such characters. -/
structure LegalBoundary (boundary : Bytes) : Prop where
  /-- It is not empty. -/
  ne : boundary≠[]
  /-- It is not too long. -/
  short : boundary.length ≤ 70
  /-- Its characters. -/
  chars : ∀ c ∈ boundary,isBoundaryChar c

/-- A request with a Content-Type line of a form, in which one of the
parameters is the boundary, and with no other boundary. -/
structure MultipartRequest (request : Bytes) (earlier later : List (Bytes×Bytes))
    (boundary : Bytes) : Prop where
  /-- The boundary. -/
  legal : LegalBoundary boundary
  /-- The line. -/
  line : ∃ before after,request=before++(ascii "Content-Type: "++
    (multipartType (earlier++(boundaryName,boundary)::later)++(crlf++after)))
  /-- Parameters do not end the line. -/
  oneLine : ∀ parameter ∈ earlier++later,(13 : UInt8) ∉ parameter.1 ∧ (13 : UInt8) ∉ parameter.2
  /-- Nowhere else in the request the name of the parameter and an equals sign stand. -/
  only : ∀ p q,Occurs (ascii "boundary=") request p → Occurs (ascii "boundary=") request q → p=q

section parameters

variable {request boundary : Bytes} {earlier later : List (Bytes×Bytes)}

/-- Parameters in front of others. -/
theorem parameterList_append (earlier later : List (Bytes×Bytes)) :
    parameterList (earlier++later)=parameterList earlier++parameterList later :=
  List.flatMap_append

/-- A first parameter. -/
theorem parameterList_cons (parameter : Bytes×Bytes) (later : List (Bytes×Bytes)) :
    parameterList (parameter::later)=ascii "; "++(parameterText parameter++parameterList later) := by
  unfold parameterList
  rw [List.flatMap_cons,List.append_assoc]

/-- Only no parameters leave no text. -/
theorem parameterList_eq_nil_iff : parameterList later=[] ↔ later=[] := by
  cases later with
  | nil => exact iff_of_true rfl rfl
  | cons parameter later =>
    rw [parameterList_cons]
    exact iff_of_false (List.cons_ne_nil _ _) (List.cons_ne_nil _ _)

/-- The boundary, between other parameters. -/
theorem parameterList_boundary (earlier later : List (Bytes×Bytes)) (boundary : Bytes) :
    parameterList (earlier++(boundaryName,boundary)::later)=
      parameterList earlier++(ascii "; "++(ascii "boundary="++(boundary++parameterList later))) := by
  have hname : ascii "boundary="=boundaryName++[61] := by decide
  rw [parameterList_append,parameterList_cons,hname]
  unfold parameterText
  simp only [List.append_assoc,List.cons_append,List.nil_append]

/-- Parameters that do not end the line do not do so together. -/
theorem parameterList_noReturn
    (h : ∀ parameter ∈ later,(13 : UInt8) ∉ parameter.1 ∧ (13 : UInt8) ∉ parameter.2) :
    (13 : UInt8) ∉ parameterList later := by
  intro hmem
  obtain ⟨parameter,hparameter,hreturn⟩ := List.mem_flatMap.mp hmem
  obtain ⟨hname,hvalue⟩ := h parameter hparameter
  rcases List.mem_append.mp hreturn with hseparator|htext
  · exact absurd hseparator (by decide)
  · rcases List.mem_append.mp htext with hfirst|hrest
    · exact hname hfirst
    · rcases List.mem_cons.mp hrest with hequals|hsecond
      · exact absurd hequals (by decide)
      · exact hvalue hsecond

/-- A legal boundary does not end the line. -/
theorem LegalBoundary.noReturn (h : LegalBoundary boundary) : (13 : UInt8) ∉ boundary := fun hmem =>
  absurd (h.chars 13 hmem) (by decide)

end parameters

section servers

variable {request boundary : Bytes} {earlier later : List (Bytes×Bytes)}

/-- Without parameters in front, the content server reads the boundary and the
parameters behind it. -/
theorem getBoundary_first
    (hs : (multipartType ((boundaryName,boundary)::later)).length ≤ maxSize) :
    getBoundary (multipartType ((boundaryName,boundary)::later))=
      .ok (delimiter (boundary++parameterList later)) := by
  have hsplit : multipartType ((boundaryName,boundary)::later)=
      ascii "multipart/form-data; boundary"++61::(boundary++parameterList later) := by
    have hstart : ascii "multipart/form-data; boundary"=
        ascii "multipart/form-data"++(ascii "; "++boundaryName) := by decide
    unfold multipartType
    rw [parameterList_cons,hstart]
    unfold parameterText
    simp only [List.append_assoc,List.cons_append]
  have hfind : find? (multipartType ((boundaryName,boundary)::later)) (ascii "=") 0=some 29 := by
    rw [hsplit]
    exact find?_behind_head (by decide)
  have hbehind : (multipartType ((boundaryName,boundary)::later)).drop 30=
      boundary++parameterList later := by
    rw [hsplit]
    rfl
  rw [getBoundary_some hs hfind,hbehind]
  rfl

/-- With a parameter in front it reads a text that is longer than the boundary. -/
theorem getBoundary_behind {parameter : Bytes×Bytes} {between : List (Bytes×Bytes)}
    (hs : (multipartType (parameter::between++(boundaryName,boundary)::later)).length ≤ maxSize) :
    getBoundary (multipartType (parameter::between++(boundaryName,boundary)::later))≠
      .ok (delimiter boundary) := by
  have hsplit : multipartType (parameter::between++(boundaryName,boundary)::later)=
      (ascii "multipart/form-data; "++parameter.1)++61::(parameter.2++
        parameterList (between++(boundaryName,boundary)::later)) := by
    have hstart : ascii "multipart/form-data; "=ascii "multipart/form-data"++ascii "; " := by decide
    unfold multipartType
    rw [List.cons_append,parameterList_cons,hstart]
    unfold parameterText
    simp only [List.append_assoc,List.cons_append]
  have hlong : boundary.length<(parameterList (between++(boundaryName,boundary)::later)).length := by
    rw [parameterList_boundary]
    simp only [List.length_append]
    change _<_+(2+_)
    omega
  have hequals : Occurs (ascii "=") (multipartType (parameter::between++(boundaryName,boundary)::later))
      (ascii "multipart/form-data; "++parameter.1).length := by
    rw [hsplit]
    exact occurs_behind _ (ascii "=") _
  obtain ⟨p,hfind,hle⟩ := exists_find?_le hequals (Nat.zero_le _)
  have hlength := congrArg List.length hsplit
  simp only [List.length_append,List.length_cons] at hlength hle
  rw [getBoundary_some hs hfind]
  intro heq
  have hcount := congrArg List.length (List.append_cancel_left (Except.ok.inj heq))
  rw [List.length_drop] at hcount
  omega

/-- The content server reads the boundary exactly when it is the only parameter. -/
theorem getBoundary_multipart_iff
    (hs : (multipartType (earlier++(boundaryName,boundary)::later)).length ≤ maxSize) :
    getBoundary (multipartType (earlier++(boundaryName,boundary)::later))=.ok (delimiter boundary) ↔
      earlier=[] ∧ later=[] := by
  cases earlier with
  | nil =>
    rw [List.nil_append] at hs ⊢
    rw [getBoundary_first hs,Except.ok.injEq]
    unfold delimiter
    rw [List.append_cancel_left_eq,List.append_right_eq_self,parameterList_eq_nil_iff]
    exact (and_iff_right rfl).symm
  | cons parameter between =>
    exact iff_of_false (getBoundary_behind hs) fun h => absurd h.1 (List.cons_ne_nil _ _)

/-- The request around the boundary. -/
theorem MultipartRequest.split (h : MultipartRequest request earlier later boundary) :
    ∃ left after,request=left++(ascii "boundary="++(boundary++parameterList later++(crlf++after))) := by
  obtain ⟨before,after,hline⟩ := h.line
  refine ⟨before++(ascii "Content-Type: "++(ascii "multipart/form-data"++
    (parameterList earlier++ascii "; "))),after,?_⟩
  rw [hline]
  unfold multipartType
  rw [parameterList_boundary]
  simp only [List.append_assoc]

/-- The literal stands at the boundary exactly when it begins with a dash. -/
theorem occurs_dash_iff (left rest : Bytes) (hne : boundary≠[]) :
    Occurs (ascii "boundary=-") (left++(ascii "boundary="++(boundary++rest))) left.length ↔
      boundary.head?=some 45 := by
  obtain ⟨c,others,rfl⟩ := List.exists_cons_of_ne_nil hne
  have hliteral : ascii "boundary=-"=ascii "boundary="++[45] := by decide
  have hinside : left.length ≤ (left++(ascii "boundary="++(c::others++rest))).length := by
    rw [List.length_append]
    exact Nat.le_add_right _ _
  unfold Occurs
  rw [and_iff_right hinside,List.drop_left,hliteral,List.prefix_append_right_inj,
    List.cons_append,List.cons_prefix_cons,and_iff_left List.nil_prefix]
  exact ⟨fun heq => congrArg some heq.symm,fun heq => (Option.some.inj heq).symm⟩

/-- The authentication server reads the boundary exactly when it begins with a
dash and is the last parameter. -/
theorem getSeparator_multipart_iff (h : MultipartRequest request earlier later boundary)
    (hs : request.length ≤ maxSize) :
    getSeparator request=.ok (delimiter boundary) ↔ boundary.head?=some 45 ∧ later=[] := by
  obtain ⟨left,after,hsplit⟩ := h.split
  have hhere : Occurs (ascii "boundary=") request left.length := by
    rw [hsplit]
    exact occurs_behind _ _ _
  have hbegins : ascii "boundary="++(boundary++parameterList later)++crlf<+:request.drop left.length := by
    rw [hsplit,List.drop_left]
    exact ⟨after,by simp only [List.append_assoc]⟩
  have hreturn : (13 : UInt8) ∉ ascii "boundary="++(boundary++parameterList later) := by
    rw [List.mem_append,List.mem_append,not_or,not_or]
    exact ⟨by decide,h.legal.noReturn,parameterList_noReturn fun parameter hparameter =>
      h.oneLine parameter (List.mem_append_right _ hparameter)⟩
  -- the literal stands at the boundary or nowhere
  have hplace : ∀ p,Occurs (ascii "boundary=-") request p → p=left.length := fun p hocc =>
    h.only p left.length ⟨hocc.1,(by decide : ascii "boundary="<+:ascii "boundary=-").trans hocc.2⟩
      hhere
  have hdash : Occurs (ascii "boundary=-") request left.length ↔ boundary.head?=some 45 := by
    rw [hsplit,List.append_assoc boundary]
    exact occurs_dash_iff left _ h.legal.ne
  have hvalue : lineFrom request left.length (left.length+9)=boundary++parameterList later :=
    lineFrom_begins hbegins hhere.1 (not_crlf_isInfix hreturn) (by
      rw [List.length_append]
      exact Nat.le_add_right _ _)
  rw [getSeparator_eq_iff hs,←hdash]
  constructor
  · rintro ⟨p,hfind,hseparator⟩
    have hocc := (find?_eq_some_iff.mp hfind).2.1
    have hp := hplace p hocc
    rw [hp] at hocc hseparator
    rw [hvalue] at hseparator
    exact ⟨hocc,parameterList_eq_nil_iff.mp
      (List.append_right_eq_self.mp (List.append_cancel_left hseparator).symm)⟩
  · rintro ⟨hocc,rfl⟩
    obtain ⟨p,hfind,_⟩ := exists_find?_le hocc (Nat.zero_le _)
    have hp := hplace p (find?_eq_some_iff.mp hfind).2.1
    refine ⟨left.length,by rw [hfind,hp],?_⟩
    rw [hvalue]
    exact congrArg (ascii "--"++·) (List.append_nil boundary).symm

end servers

/-- Both servers read the delimiter of a request exactly when its boundary
begins with a dash and is the only parameter; either server alone exactly when
its own part of that holds. -/
theorem delimiter_found_iff {earlier later : List (Bytes×Bytes)} {boundary : Bytes}
    (request : CxxText) (h : MultipartRequest request.bytes earlier later boundary) :
    (getSeparator request.bytes=.ok (delimiter boundary) ∧
        getBoundary (multipartType (earlier++(boundaryName,boundary)::later))=
          .ok (delimiter boundary) ↔
      boundary.head?=some 45 ∧ earlier=[] ∧ later=[]) ∧
    (getSeparator request.bytes=.ok (delimiter boundary) ↔ boundary.head?=some 45 ∧ later=[]) ∧
    (getBoundary (multipartType (earlier++(boundaryName,boundary)::later))=
        .ok (delimiter boundary) ↔ earlier=[] ∧ later=[]) := by
  have hs := request.size_le
  have htype : (multipartType (earlier++(boundaryName,boundary)::later)).length ≤ maxSize := by
    obtain ⟨before,after,hline⟩ := h.line
    rw [hline] at hs
    simp only [List.length_append] at hs
    omega
  have hseparator := getSeparator_multipart_iff h hs
  have hboundary := getBoundary_multipart_iff htype
  refine ⟨?_,hseparator,hboundary⟩
  rw [hseparator,hboundary]
  constructor
  · rintro ⟨⟨hdash,_⟩,hearlier,hlater⟩
    exact ⟨hdash,hearlier,hlater⟩
  · rintro ⟨hdash,hearlier,hlater⟩
    exact ⟨⟨hdash,hlater⟩,hearlier,hlater⟩

section samples

/-- A request line, the line of a form with its boundary alone, and a blank line. -/
def boundaryRequest (boundary : Bytes) : Bytes :=
  ascii "POST /registration HTTP/1.1\r\n"++(ascii "Content-Type: "++
    (multipartType [(boundaryName,boundary)]++(crlf++crlf)))

/-- It is a request of a form when the boundary does not hold the name of the parameter. -/
theorem multipart_boundaryRequest {boundary : Bytes} (hlegal : LegalBoundary boundary)
    (hfirst : find? (boundaryRequest boundary) (ascii "boundary=") 0=some 64)
    (hnext : find? (boundaryRequest boundary) (ascii "boundary=") 65=none) :
    MultipartRequest (boundaryRequest boundary) [] [] boundary where
  legal := hlegal
  line := ⟨_,_,rfl⟩
  oneLine := nofun
  only := fun _ _ hp hq => (eq_of_find? hfirst hnext hp).trans (eq_of_find? hfirst hnext hq).symm

/-- A boundary of three bytes that begins with a dash. -/
theorem delimiter_found_dashes :
    getSeparator (boundaryRequest (ascii "--7"))=.ok (delimiter (ascii "--7")) ∧
      getBoundary (multipartType [(boundaryName,ascii "--7")])=
        .ok (delimiter (ascii "--7")) :=
  (delimiter_found_iff ⟨boundaryRequest (ascii "--7"),by decide +kernel⟩
    (multipart_boundaryRequest ⟨by decide,by decide,by decide +kernel⟩ (by decide +kernel)
      (by decide +kernel))).1.mpr ⟨by decide,rfl,rfl⟩

/-- A boundary without a dash, read by the content server, is not found by the
authentication server, which dereferences an empty optional. -/
theorem delimiter_missed :
    MultipartRequest (boundaryRequest (ascii "7")) [] [] (ascii "7") ∧
      getBoundary (multipartType [(boundaryName,ascii "7")])=.ok (delimiter (ascii "7")) ∧
      getSeparator (boundaryRequest (ascii "7"))=.error (.undefined .emptyOptional) :=
  ⟨multipart_boundaryRequest ⟨by decide,by decide,by decide +kernel⟩ (by decide +kernel)
    (by decide +kernel),by decide +kernel,by decide +kernel⟩

end samples

end Photogram.MultipartBoundary
