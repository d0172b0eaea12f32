import Photogram.AuthReceive

/-!
# Headers found by their literals

A header is found by the first place its name and a colon stand at, wherever
that is: inside the name of another header, in the request line, in the body.
The length of a body is converted by stoi, which knows numbers below 2^31. A
refresh token is what follows its name, up to the end of the Cookie line.
-/

namespace Photogram.AuthHeaders

open CxxString JsonValue QueryString AuthRequest AuthHttpParser AuthReceive

section names

/-- A header line with its line end. -/
def headerLine (header : Bytes×Bytes) : Bytes := header.1++(ascii ": "++(header.2++crlf))

/-- A request line and header lines, with their line ends. -/
def headerBlock (line : Bytes) (headers : List (Bytes×Bytes)) : Bytes :=
  line++(crlf++headers.flatMap headerLine)

/-- A request line, header lines, a blank line and a body. -/
def headerRequest (line : Bytes) (headers : List (Bytes×Bytes)) (body : Bytes) : Bytes :=
  headerBlock line headers++(crlf++body)

/-- Literal a header of a name is looked up by. -/
def nameLiteral (name : Bytes) : Bytes := name++ascii ": "

/-- The lookup of a name answers a value, up to blanks in front of it. -/
def AnswersValue (request name value : Bytes) : Prop :=
  ∃ text,getValueSomeHeader request (nameLiteral name) 0=.ok (some text) ∧
    text.dropWhile (· == 32)=value.dropWhile (· == 32)

/-- The first place the literal of a name stands at in a block is followed by a
text, up to the end of its line. -/
def ShownFirst (block name text : Bytes) : Prop :=
  ¬crlf<:+:text ∧ FirstBegins block (nameLiteral name) (nameLiteral name++text++crlf)

/-- A header block ends with a line end. -/
theorem headerBlock_lineEnd (line : Bytes) (headers : List (Bytes×Bytes)) :
    ∃ front,headerBlock line headers=front++crlf := by
  induction headers using List.reverseRecOn with
  | nil => exact ⟨line,by rw [headerBlock,List.flatMap_nil,List.append_nil]⟩
  | append_singleton headers header =>
    refine ⟨line++(crlf++(headers.flatMap headerLine++(header.1++(ascii ": "++header.2)))),?_⟩
    simp only [headerBlock,headerLine,List.flatMap_append,List.flatMap_singleton,List.append_assoc]

/-- A request, split at the line of a header. -/
theorem headerRequest_split (line : Bytes) (before after : List (Bytes×Bytes))
    (name value body : Bytes) :
    headerRequest line (before++(name,value)::after) body=
      headerBlock line before++(nameLiteral name++(value++
        (crlf++(after.flatMap headerLine++(crlf++body))))) := by
  simp only [headerRequest,headerBlock,headerLine,nameLiteral,List.flatMap_append,
    List.flatMap_cons,List.append_assoc]

variable {name : Bytes}

/-- The literal of a name without line ends has none. -/
theorem not_mem_nameLiteral {c : UInt8} (hc : c ∉ name) (hother : c ∉ ascii ": ") :
    c ∉ nameLiteral name := fun hmem => (List.mem_append.mp hmem).elim hc hother

/-- The lookup of a name answers the text the first place of its literal shows,
whatever follows the block. -/
theorem getValueSomeHeader_shown {block text rest : Bytes} (hreturn : (13 : UInt8) ∉ name)
    (h : ShownFirst block name text) (hs : (block++rest).length ≤ maxSize) :
    getValueSomeHeader (block++rest) (nameLiteral name) 0=.ok (some (32::text)) := by
  have hcr : (13 : UInt8) ∉ nameLiteral name := not_mem_nameLiteral hreturn (by decide)
  have hne : nameLiteral name≠[] := by simp [nameLiteral,ascii]
  obtain ⟨htext,hfirst⟩ := h
  obtain ⟨p,hfind,hbegin⟩ := hfirst.append rest
  have hinside := (find?_bounds hfind).2
  have hline : ¬crlf<:+:nameLiteral name++text := fun hp => htext (crlf_isInfix_append hcr hp)
  have hlength : (nameLiteral name).length=name.length+2 := List.length_append
  have hlast : (nameLiteral name++text).drop (name.length+1)=32::text := by
    have hcut : nameLiteral name++text=(name++[58])++32::text := by
      unfold nameLiteral
      rw [List.append_assoc,List.append_assoc]
      rfl
    rw [hcut,List.drop_left' (by rw [List.length_append,List.length_singleton])]
  have hpos : p+(nameLiteral name).length-1=p+(name.length+1) := by omega
  have hlong : name.length+1 ≤ (nameLiteral name++text).length := by
    rw [List.length_append]
    omega
  rw [getValueSomeHeader_some hs hne hcr hfind,hpos,
    lineFrom_begins hbegin (by omega) hline hlong,hlast]

/-- A literal that stands nowhere in front of its line shows the value of the
line. -/
theorem shownFirst_line {block value : Bytes} (hfeed : (10 : UInt8) ∉ name)
    (hvalue : (13 : UInt8) ∉ value) (hfree : ¬nameLiteral name<:+:block++crlf) :
    ShownFirst (block++crlf++(nameLiteral name++value++crlf)) name value := by
  have hlf : (10 : UInt8) ∉ nameLiteral name := not_mem_nameLiteral hfeed (by decide)
  have hne : nameLiteral name≠[] := by simp [nameLiteral,ascii]
  have hsplit : block++crlf=(block++[13])++[10] := by
    rw [List.append_assoc]
    rfl
  have hbefore : ¬nameLiteral name<:+:block++[13] := fun h =>
    hfree (h.trans (by rw [hsplit]; exact (List.prefix_append _ _).isInfix))
  have hhere : FirstBegins (nameLiteral name++value++crlf) (nameLiteral name)
      (nameLiteral name++value++crlf) := by
    refine ⟨0,find?_of_occurs ⟨Nat.zero_le _,?_⟩,List.prefix_rfl⟩
    rw [List.drop_zero,List.append_assoc]
    exact List.prefix_append _ _
  refine ⟨not_crlf_isInfix hvalue,?_⟩
  rw [hsplit,List.append_assoc,List.singleton_append]
  exact hhere.around hlf hne hbefore

/-- A literal in front of a line end shows some text. -/
theorem exists_shownFirst {block : Bytes} (hreturn : (13 : UInt8) ∉ name)
    (hmem : nameLiteral name<:+:block++crlf) : ∃ text,ShownFirst (block++crlf) name text := by
  have hcr : (13 : UInt8) ∉ nameLiteral name := not_mem_nameLiteral hreturn (by decide)
  obtain ⟨p,hfind⟩ := Option.isSome_iff_exists.mp (find?_zero_isSome_iff.mpr hmem)
  have hocc := (find?_eq_some_iff.mp hfind).2.1
  have hinside : p ≤ block.length := by
    have hend := hocc.end_le
    have hlength : (nameLiteral name).length=name.length+2 := List.length_append
    have hcrlf : crlf.length=2 := rfl
    rw [List.length_append] at hend
    omega
  have hlast : Occurs crlf (block++crlf) block.length := by
    have hbehind := occurs_behind block crlf []
    rwa [List.append_nil] at hbehind
  obtain ⟨stop,hstop,_⟩ := exists_find?_le hlast hinside
  have hle := le_find?_crlf hocc hcr hstop
  obtain ⟨_,hat⟩ := (find?_eq_some_iff.mp hstop).2.1
  refine ⟨lineFrom (block++crlf) p (p+(nameLiteral name).length),
    cutAt_free (by decide) (Nat.le_add_right _ _),p,hfind,?_⟩
  obtain ⟨after,hafter⟩ := hocc.2
  have hbehind : (block++crlf).drop (p+(nameLiteral name).length)=after := by
    rw [←List.drop_drop,←hafter,List.drop_left]
  have hcut : lineFrom (block++crlf) p (p+(nameLiteral name).length)=
      after.take (stop-(p+(nameLiteral name).length)) := by
    unfold lineFrom cutAt
    rw [hstop,←hbehind]
  have hend : crlf<+:after.drop (stop-(p+(nameLiteral name).length)) := by
    rw [←hbehind,List.drop_drop,Nat.add_sub_cancel' hle]
    exact hat
  obtain ⟨rest,hrest⟩ := hend
  refine ⟨rest,?_⟩
  rw [hcut,List.append_assoc,List.append_assoc,hrest,List.take_append_drop,hafter]

/-- A header is answered with its value exactly when the literal stands neither
in the request line nor in the headers in front of it, or first stands there in
front of that very value. -/
theorem answersValue_iff (hreturn : (13 : UInt8) ∉ name) (hfeed : (10 : UInt8) ∉ name)
    {line value body : Bytes} {before after : List (Bytes×Bytes)} (hvalue : (13 : UInt8) ∉ value)
    (hs : (headerRequest line (before++(name,value)::after) body).length ≤ maxSize) :
    AnswersValue (headerRequest line (before++(name,value)::after) body) name value ↔
      ¬nameLiteral name<:+:headerBlock line before ∨
        ∃ text,ShownFirst (headerBlock line before) name text ∧
          text.dropWhile (· == 32)=value.dropWhile (· == 32) := by
  obtain ⟨front,hfront⟩ := headerBlock_lineEnd line before
  rw [headerRequest_split,hfront] at hs ⊢
  constructor
  · rintro ⟨found,hfound,hsame⟩
    by_cases hmem : nameLiteral name<:+:front++crlf
    · obtain ⟨text,htext⟩ := exists_shownFirst hreturn hmem
      rw [getValueSomeHeader_shown hreturn htext hs] at hfound
      cases hfound
      exact Or.inr ⟨text,htext,hsame⟩
    · exact Or.inl hmem
  · rintro (hfree|⟨text,htext,hsame⟩)
    · refine ⟨32::value,?_,by simp⟩
      have hshown := shownFirst_line hfeed hvalue hfree
      have hsplit : front++crlf++(nameLiteral name++(value++
          (crlf++(after.flatMap headerLine++(crlf++body)))))=
          front++crlf++(nameLiteral name++value++crlf)++
            (after.flatMap headerLine++(crlf++body)) := by
        simp only [List.append_assoc]
      rw [hsplit] at hs ⊢
      exact getValueSomeHeader_shown hreturn hshown hs
    · exact ⟨32::text,getValueSomeHeader_shown hreturn htext hs,by simpa using hsame⟩

/-- A header is answered with its value, whatever that is, exactly when the
literal stands neither in the request line nor in the headers in front of it. -/
theorem answersValue_all_iff (hreturn : (13 : UInt8) ∉ name) (hfeed : (10 : UInt8) ∉ name)
    {line body : Bytes} {before after : List (Bytes×Bytes)}
    (hroom : (headerRequest line (before++(name,[])::after) body).length < maxSize) :
    (∀ value : Bytes,(13 : UInt8) ∉ value → (10 : UInt8) ∉ value → ∀ request : CxxText,
        request.bytes=headerRequest line (before++(name,value)::after) body →
        AnswersValue request.bytes name value) ↔
      ¬nameLiteral name<:+:headerBlock line before := by
  constructor
  · -- two values of one request cannot both be the text in front of them
    intro hall hmem
    obtain ⟨front,hfront⟩ := headerBlock_lineEnd line before
    rw [hfront] at hmem
    obtain ⟨text,htext⟩ := exists_shownFirst hreturn hmem
    have hanswer : ∀ value : Bytes,value.length ≤ 1 → (13 : UInt8) ∉ value → (10 : UInt8) ∉ value →
        (32::text).dropWhile (· == 32)=value.dropWhile (· == 32) := by
      intro value hshort hvalueReturn hvalueFeed
      have hsize : (headerRequest line (before++(name,value)::after) body).length ≤ maxSize := by
        rw [headerRequest_split] at hroom ⊢
        simp only [List.length_append,List.length_nil] at hroom ⊢
        omega
      obtain ⟨found,hfound,hsame⟩ := hall value hvalueReturn hvalueFeed ⟨_,hsize⟩ rfl
      dsimp only at hfound
      rw [headerRequest_split,hfront] at hfound hsize
      rw [getValueSomeHeader_shown hreturn htext hsize] at hfound
      cases hfound
      exact hsame
    have hempty := hanswer [] (by decide) (by decide) (by decide)
    have hletter := hanswer [97] (by decide) (by decide) (by decide)
    rw [hempty] at hletter
    exact absurd hletter (by decide)
  · intro hfree value hvalueReturn _ request hrequest
    have hs := request.size_le
    rw [hrequest] at hs ⊢
    exact (answersValue_iff hreturn hfeed hvalueReturn hs).mpr (Or.inl hfree)

/-- The header of a name is answered with its value exactly when the literal
stands neither in the request line nor in the headers in front of it, or first
stands there in front of that very value, the first alone when the value is to
come from no other place; a name no header has is answered with nothing exactly
when the literal stands nowhere in the request. -/
theorem getValueSomeHeader_named_iff (hreturn : (13 : UInt8) ∉ name) (hfeed : (10 : UInt8) ∉ name) :
    (∀ (line value : Bytes) (before after : List (Bytes×Bytes)) (body : Bytes),
        (13 : UInt8) ∉ value → (10 : UInt8) ∉ value → ∀ request : CxxText,
        request.bytes=headerRequest line (before++(name,value)::after) body →
        (AnswersValue request.bytes name value ↔
          ¬nameLiteral name<:+:headerBlock line before ∨
            ∃ text,ShownFirst (headerBlock line before) name text ∧
              text.dropWhile (· == 32)=value.dropWhile (· == 32))) ∧
      (∀ (line : Bytes) (before after : List (Bytes×Bytes)) (body : Bytes),
        (headerRequest line (before++(name,[])::after) body).length < maxSize →
        ((∀ value : Bytes,(13 : UInt8) ∉ value → (10 : UInt8) ∉ value → ∀ request : CxxText,
            request.bytes=headerRequest line (before++(name,value)::after) body →
            AnswersValue request.bytes name value) ↔
          ¬nameLiteral name<:+:headerBlock line before)) ∧
      ∀ (line : Bytes) (headers : List (Bytes×Bytes)) (body : Bytes),
        (∀ header ∈ headers,header.1≠name) → ∀ request : CxxText,
        request.bytes=headerRequest line headers body →
        (getValueSomeHeader request.bytes (nameLiteral name) 0=.ok none ↔
          ¬nameLiteral name<:+:request.bytes) := by
  refine ⟨?_,fun _ _ _ _ hroom => answersValue_all_iff hreturn hfeed hroom,?_⟩
  · intro line value before after body hvalueReturn _ request hrequest
    have hs := request.size_le
    rw [hrequest] at hs ⊢
    exact answersValue_iff hreturn hfeed hvalueReturn hs
  · intro line headers body _ request _
    have hcr : (13 : UInt8) ∉ nameLiteral name := not_mem_nameLiteral hreturn (by decide)
    rw [←find?_zero_eq_none_iff]
    constructor
    · intro hnothing
      cases hfind : find? request.bytes (nameLiteral name) 0 with
      | none => rfl
      | some p =>
        rw [getValueSomeHeader_some request.size_le (by simp [nameLiteral,ascii]) hcr hfind]
          at hnothing
        cases hnothing
    · exact getValueSomeHeader_none

/-- A request line for the samples. -/
def sampleLine : Bytes := ascii "POST /login HTTP/1.1"

/-- The origin is read behind another header, and missed in a request without one. -/
theorem getValueSomeHeader_origin :
    AnswersValue (headerRequest sampleLine [(ascii "Host",ascii "a"),(ascii "Origin",ascii "b")]
        (ascii "\x7b\x7d")) (ascii "Origin") (ascii "b") ∧
      getValueSomeHeader (headerRequest sampleLine [(ascii "Host",ascii "a")] (ascii "\x7b\x7d"))
        (nameLiteral (ascii "Origin")) 0=.ok none := by
  have hboth := @getValueSomeHeader_named_iff (ascii "Origin") (by decide) (by decide)
  have hpresent := hboth.1 sampleLine (ascii "b") [(ascii "Host",ascii "a")] [] (ascii "\x7b\x7d")
    (by decide) (by decide) ⟨_,by decide⟩ rfl
  have habsent := hboth.2.2 sampleLine [(ascii "Host",ascii "a")] (ascii "\x7b\x7d") (by decide)
    ⟨_,by decide⟩ rfl
  exact ⟨hpresent.mpr (Or.inl (by decide +kernel)),habsent.mpr (by decide +kernel)⟩

/-- Another header whose name ends in the one looked up is answered instead. -/
theorem getValueSomeHeader_suffix :
    getValueSomeHeader (headerRequest sampleLine [(ascii "X-Origin",ascii "a"),
        (ascii "Origin",ascii "b")] []) (nameLiteral (ascii "Origin")) 0=.ok (some (ascii " a")) ∧
      ¬AnswersValue (headerRequest sampleLine [(ascii "X-Origin",ascii "a"),
        (ascii "Origin",ascii "b")] []) (ascii "Origin") (ascii "b") := by
  have hanswer : getValueSomeHeader (headerRequest sampleLine [(ascii "X-Origin",ascii "a"),
      (ascii "Origin",ascii "b")] []) (nameLiteral (ascii "Origin")) 0=.ok (some (ascii " a")) := by
    decide +kernel
  refine ⟨hanswer,?_⟩
  rintro ⟨text,htext,hsame⟩
  rw [hanswer] at htext
  cases htext
  exact absurd hsame (by decide)

end names

section lengths

/-- A POST whose first Content-Length is a line with a numeral is judged by
the length of its body exactly when the numeral is below 2^31; a greater one
raises. -/
theorem checkIsFullRequest_length_iff {request : CxxText} {head body digits : Bytes}
    (hrequest : request.bytes=head++body) (hhead : EndsAtBlankLine head) (hne : digits≠[])
    (hdigits : digits.all isDigit=true)
    (hlength : FirstBegins head contentLengthHeader (contentLengthHeader++digits++crlf)) :
    checkIsFullRequest request.bytes .post=
        .ok (lengthStatus body.length (decimalValue digits)) ↔ decimalValue digits<2^31 := by
  have hs := request.size_le
  rw [hrequest] at hs ⊢
  rw [checkIsFullRequest_length hs hhead hne hdigits hlength]
  by_cases hsmall : decimalValue digits<2^31
  · rw [if_pos hsmall]
    exact iff_of_true rfl hsmall
  · rw [if_neg hsmall]
    exact iff_of_false nofun hsmall

/-- A header block that announces a length. -/
def announcingHead (digits : Bytes) : Bytes :=
  ascii "POST /login HTTP/1.1\r\nContent-Length: "++digits++blankLine

/-- An announced length of two is met by two bytes. -/
theorem checkIsFullRequest_two :
    checkIsFullRequest (announcingHead (ascii "2")++ascii "\x7b\x7d") .post=.ok .success :=
  (@checkIsFullRequest_length_iff ⟨announcingHead (ascii "2")++ascii "\x7b\x7d",by decide⟩
    (announcingHead (ascii "2")) (ascii "\x7b\x7d") (ascii "2") rfl
    ⟨39,by decide +kernel,by decide +kernel⟩ (by decide) (by decide)
    ⟨22,by decide +kernel,by decide +kernel⟩).mpr (by decide)

/-- An announced length of 2^31 raises, where two bytes are fewer. -/
theorem checkIsFullRequest_wide :
    checkIsFullRequest (announcingHead (ascii "2147483648")++ascii "\x7b\x7d") .post=
        .error (.thrown .outOfRange) ∧
      lengthStatus 2 (decimalValue (ascii "2147483648"))=.notFullReq :=
  ⟨by decide +kernel,by decide +kernel⟩

end lengths

section cookies

/-- A cookie as it is sent. -/
def cookieText (cookie : Bytes×Bytes) : Bytes := cookie.1++61::cookie.2

/-- Cookies joined by semicolons and blanks. -/
def cookieList : List (Bytes×Bytes) → Bytes
  | [] => []
  | [cookie] => cookieText cookie
  | cookie::next::rest => cookieText cookie++59::32::cookieList (next::rest)

/-- A cookie without semicolon and carriage return. -/
structure CookieClean (cookie : Bytes×Bytes) : Prop where
  /-- It has no semicolon. -/
  noSemicolon : (59 : UInt8) ∉ cookieText cookie
  /-- It has no carriage return. -/
  noReturn : (13 : UInt8) ∉ cookieText cookie

/-- The name of the cookie with the refresh token. -/
def refreshName : Bytes := ascii "refreshToken"

/-- The cookie with the refresh token is the last one, and its name and an
equality sign stand in no other. -/
def LastAlone (earlier later : List (Bytes×Bytes)) : Prop :=
  later=[] ∧ ∀ cookie ∈ earlier,¬refreshTokenPrefix<:+:cookieText cookie

/-- A list of cookies, split behind its first one. -/
theorem cookieList_cons (cookie next : Bytes×Bytes) (rest : List (Bytes×Bytes)) :
    cookieList (cookie::next::rest)=cookieText cookie++59::32::cookieList (next::rest) := rfl

/-- Clean cookies are on one line. -/
theorem cookieList_noReturn {cookies : List (Bytes×Bytes)}
    (h : ∀ cookie ∈ cookies,CookieClean cookie) : (13 : UInt8) ∉ cookieList cookies := by
  induction cookies with
  | nil => exact List.not_mem_nil
  | cons cookie rest ih =>
    have hfirst := (h cookie List.mem_cons_self).noReturn
    cases rest with
    | nil => exact hfirst
    | cons next rest =>
      have hrest := ih fun other hother => h other (List.mem_cons_of_mem cookie hother)
      rw [cookieList_cons]
      simp [hfirst,hrest]

/-- A list that begins with the renewal token goes on behind its value with the later cookies. -/
theorem cookieList_renewal (value : Bytes) (later : List (Bytes×Bytes)) :
    ∃ tail,cookieList ((refreshName,value)::later)=refreshTokenPrefix++(value++tail) ∧
      (tail=[] ↔ later=[]) := by
  have hname : cookieText (refreshName,value)=refreshTokenPrefix++value := by
    have hliteral : refreshTokenPrefix=refreshName++[61] := by decide
    rw [hliteral,List.append_assoc]
    rfl
  cases later with
  | nil => exact ⟨[],by rw [List.append_nil]; exact hname,iff_of_true rfl rfl⟩
  | cons next rest =>
    refine ⟨59::32::cookieList (next::rest),?_,iff_of_false (List.cons_ne_nil _ _)
      (List.cons_ne_nil _ _)⟩
    rw [cookieList_cons,hname,List.append_assoc]

/-- What is found behind the first place of the name in a list of cookies is
the token exactly when its cookie is the last one and the only one with the
name and an equality sign. -/
theorem cookieList_token {earlier later : List (Bytes×Bytes)} {value : Bytes}
    (hclean : ∀ cookie ∈ earlier++(refreshName,value)::later,CookieClean cookie) (after : Bytes) :
    ∃ token,FirstBegins (cookieList (earlier++(refreshName,value)::later)++(crlf++after))
        refreshTokenPrefix (refreshTokenPrefix++token++crlf) ∧
      (13 : UInt8) ∉ token ∧ (token=value ↔ LastAlone earlier later) := by
  have hne : refreshTokenPrefix≠[] := by decide
  induction earlier with
  | nil =>
    have hreturn := cookieList_noReturn hclean
    obtain ⟨tail,htail,hlast⟩ := cookieList_renewal value later
    rw [List.nil_append,htail] at hreturn ⊢
    refine ⟨value++tail,⟨0,find?_of_occurs ⟨Nat.zero_le _,?_⟩,?_⟩,?_,?_⟩
    · rw [List.drop_zero,List.append_assoc]
      exact List.prefix_append _ _
    · exact ⟨after,by simp only [List.append_assoc,List.drop_zero]⟩
    · exact fun h => hreturn (List.mem_append_right _ h)
    · rw [List.append_right_eq_self,hlast]
      exact ⟨fun h => ⟨h,nofun⟩,And.left⟩
  | cons cookie earlier ih =>
    obtain ⟨next,rest,hrest⟩ := List.exists_cons_of_ne_nil
      (List.append_ne_nil_of_right_ne_nil earlier (List.cons_ne_nil (refreshName,value) later))
    have hothers : ∀ other ∈ earlier++(refreshName,value)::later,CookieClean other :=
      fun other hother => hclean other (List.mem_cons_of_mem cookie hother)
    obtain ⟨token,hbegins,hreturn,hiff⟩ := ih hothers
    have hsplit : cookieList (cookie::earlier++(refreshName,value)::later)++(crlf++after)=
        cookieText cookie++59::([]++32::(cookieList (earlier++(refreshName,value)::later)++
          (crlf++after))) := by
      rw [List.cons_append,hrest,cookieList_cons,List.append_assoc]
      rfl
    rw [hsplit]
    by_cases hmem : refreshTokenPrefix<:+:cookieText cookie
    · -- the rest of this cookie and all that follow are taken for the token
      obtain ⟨p,hfind⟩ := Option.isSome_iff_exists.mp (find?_zero_isSome_iff.mpr hmem)
      obtain ⟨tail,htail⟩ := (find?_eq_some_iff.mp hfind).2.1.2
      have hinside := (find?_bounds hfind).2
      refine ⟨tail++59::32::cookieList (earlier++(refreshName,value)::later),
        ⟨p,find?_append hfind,after,?_⟩,?_,?_⟩
      · rw [List.drop_append_of_le_length (by omega),←htail]
        simp only [List.append_assoc,List.cons_append,List.nil_append]
      · have hall := cookieList_noReturn hothers
        have hfirst := (hclean cookie List.mem_cons_self).noReturn
        have htailReturn : (13 : UInt8) ∉ tail := fun h => hfirst (List.mem_of_mem_drop
          (by rw [←htail]; exact List.mem_append_right _ h))
        simp [hall,htailReturn]
      · refine iff_of_false ?_ fun h => h.2 cookie List.mem_cons_self hmem
        intro heq
        have hvalue := (hothers (refreshName,value) (by simp)).noSemicolon
        rw [←heq] at hvalue
        exact hvalue (by simp [cookieText])
    · refine ⟨token,(hbegins.around (by decide) hne (by decide)).around (by decide) hne hmem,hreturn,
        hiff.trans ?_⟩
      unfold LastAlone
      rw [List.forall_mem_cons]
      exact and_congr_right fun _ => (and_iff_right hmem).symm

/-- A request to renew the tokens: its lines in front of the Cookie line do
not hold the name of the token and an equality sign. -/
structure Renewal (request before : Bytes) (cookies : List (Bytes×Bytes)) (after : Bytes) : Prop where
  /-- The request line asks for a new token. -/
  line : ∃ c rest,(c=32 ∨ c=63) ∧ before=ascii "GET /getNewToken"++c::(rest++crlf)
  /-- The Cookie line lists the cookies. -/
  bytes : request=before++(ascii "Cookie: "++(cookieList cookies++(crlf++after)))
  /-- There is an origin. -/
  origin : originHeader<:+:request
  /-- There is a blank line. -/
  blank : blankLine<:+:request
  /-- The token stands nowhere in front of the Cookie line. -/
  beforeFree : ¬refreshTokenPrefix<:+:before
  /-- The cookies are free of the separators. -/
  clean : ∀ cookie ∈ cookies,CookieClean cookie

/-- Behind the method token a renewal with an origin takes the token that
follows the first place of its name. -/
theorem parseGetT_renewal {tail token : Bytes} (hs : tail.length ≤ maxSize)
    (hline : ∃ c rest,(c=32 ∨ c=63) ∧ tail=ascii " /getNewToken"++c::rest)
    (horigin : originHeader<:+:tail) (hreturn : (13 : UInt8) ∉ token)
    (htoken : FirstBegins tail refreshTokenPrefix (refreshTokenPrefix++token++crlf)) :
    ∃ origin,parseGetT tail=
      .ok (true,.get {emptyGetInfo with origin := origin,refreshToken := token}) := by
  obtain ⟨p,horiginAt⟩ := Option.isSome_iff_exists.mp (find?_zero_isSome_iff.mpr horigin)
  obtain ⟨q,htokenAt,hbegin⟩ := htoken
  have hinside := (find?_bounds htokenAt).2
  have hmsg : getGetMsg tail=.ok (some .getNewToken) := by
    obtain ⟨c,rest,hc,rfl⟩ := hline
    have hsplit : ascii " /getNewToken"++c::rest=(ascii " /getNewToken"++[c])++rest := by
      rw [List.append_assoc,List.singleton_append]
    rw [hsplit] at hs ⊢
    rcases hc with rfl|rfl
    · exact getMsg_append hs (by decide +kernel : find? _ _ 0=some 1)
        (by decide +kernel : _=some 12) (by decide) (by decide +kernel) (by decide)
    · exact getMsg_append hs (by decide +kernel : find? _ _ 0=some 1)
        (by decide +kernel : _=some 12) (by decide) (by decide +kernel) (by decide)
  have hliteral : (13 : UInt8) ∉ refreshTokenPrefix := by decide
  have hclean : (13 : UInt8) ∉ refreshTokenPrefix++token := fun h =>
    (List.mem_append.mp h).elim hliteral hreturn
  have hvalue : getValueWithSpace tail refreshTokenPrefix 0=.ok token := by
    rw [getValueWithSpace_some hs hliteral htokenAt,lineFrom_begins hbegin (by omega)
      (not_crlf_isInfix hclean) (by rw [List.length_append]; omega),List.drop_left]
  refine ⟨lineFrom tail p (p+originHeader.length-1),?_⟩
  unfold parseGetT parseMessage
  rw [getValueSomeHeader_some hs (by decide) (by decide) horiginAt,ok_bind]
  dsimp only
  rw [hmsg,ok_bind]
  dsimp only [parseGetFields]
  rw [hvalue]
  rfl

/-- Such a request is parsed to its end, and the token is what follows the
first place of its name. -/
theorem parse_renewal (setting : ParserSetting) {request : CxxText} {before after token : Bytes}
    {cookies : List (Bytes×Bytes)} (h : Renewal request.bytes before cookies after)
    (htoken : FirstBegins (cookieList cookies++(crlf++after)) refreshTokenPrefix
      (refreshTokenPrefix++token++crlf)) (hreturn : (13 : UInt8) ∉ token) :
    ∃ origin,parse setting request.bytes=
      .ok (.success,.get {emptyGetInfo with origin := origin,refreshToken := token}) := by
  have hs := request.size_le
  obtain ⟨c,rest,hc,hbefore⟩ := h.line
  have hmethod : ascii "GET /getNewToken"=ascii "GET"++ascii " /getNewToken" := by decide
  have hline : before++(ascii "Cookie: "++(cookieList cookies++(crlf++after)))=
      ascii "GET"++((ascii " /getNewToken"++c::(rest++[13]))++10::(ascii "Cookie:"++
        32::(cookieList cookies++(crlf++after)))) := by
    have hreturns : crlf=[13]++[10] := rfl
    have hcookie : ascii "Cookie: "=ascii "Cookie:"++[32] := by decide
    rw [hbefore,hmethod,hcookie,hreturns]
    simp only [List.append_assoc,List.cons_append,List.nil_append]
  obtain ⟨tail,htail,hrequest⟩ : ∃ tail,tail=(ascii " /getNewToken"++c::(rest++[13]))++
      10::(ascii "Cookie:"++32::(cookieList cookies++(crlf++after))) ∧
      request.bytes=ascii "GET"++tail := ⟨_,rfl,h.bytes.trans hline⟩
  have hfree : ¬refreshTokenPrefix<:+:ascii " /getNewToken"++c::(rest++[13]) := by
    refine fun hmem => h.beforeFree (hmem.trans ⟨ascii "GET",[10],?_⟩)
    have hreturns : crlf=[13]++[10] := rfl
    rw [hbefore,hmethod,hreturns]
    simp only [List.append_assoc,List.cons_append]
  have hbegins : FirstBegins tail refreshTokenPrefix (refreshTokenPrefix++token++crlf) := by
    rw [htail]
    exact (htoken.around (by decide) (by decide) (by decide)).around (by decide) (by decide) hfree
  have hget : getReqT request.bytes=some ⟨.get,3⟩ := by
    have hfirst : request.bytes=ascii "GET /getNewToken"++c::(rest++crlf++(ascii "Cookie: "++
        (cookieList cookies++(crlf++after)))) := by
      rw [h.bytes,hbefore]
      simp only [List.append_assoc,List.cons_append]
    have hblank : find? (ascii "GET /getNewToken") (ascii " ") 0=some 3 := by decide +kernel
    rw [hfirst,getReqT_append (by decide) hblank]
    decide +kernel
  have horigin : originHeader<:+:tail := by
    have hmem := h.origin
    rw [hrequest] at hmem
    exact isInfix_behind_head (by decide) hmem
  rw [hrequest,List.length_append] at hs
  obtain ⟨origin,hparse⟩ := parseGetT_renewal (by omega) ⟨c,_,hc,htail.trans (by
    rw [List.append_assoc,List.cons_append])⟩ horigin hreturn hbegins
  refine ⟨origin,?_⟩
  rw [parse_complete setting request.size_le hget
    (checkIsFullRequest_blank request.size_le h.blank (by simp)),hrequest]
  have hdrop : (ascii "GET"++tail).drop 3=tail := List.drop_left' (by decide)
  unfold parseByMethod
  dsimp only
  rw [hdrop,hparse]
  rfl

/-- A renewal takes the value of the cookie with the refresh token exactly
when that cookie is the last one and no cookie in front of it shows its name
and an equality sign. -/
theorem parse_refreshToken_iff (setting : ParserSetting) {request : CxxText}
    {before after value : Bytes} {earlier later : List (Bytes×Bytes)}
    (h : Renewal request.bytes before (earlier++(refreshName,value)::later) after) :
    (∃ getInfo,parse setting request.bytes=.ok (.success,.get getInfo) ∧
        getInfo.refreshToken=value) ↔ LastAlone earlier later := by
  obtain ⟨token,hbegins,hreturn,hiff⟩ := cookieList_token h.clean after
  obtain ⟨origin,hparse⟩ := parse_renewal setting h hbegins hreturn
  rw [hparse,←hiff]
  constructor
  · rintro ⟨getInfo,hsame,hvalue⟩
    cases hsame
    exact hvalue
  · exact fun hvalue => ⟨_,rfl,hvalue⟩

/-- A renewal with cookies. -/
def renewalWith (cookies : List (Bytes×Bytes)) : Bytes :=
  ascii "GET /getNewToken HTTP/1.1\r\nOrigin: a\r\n"++(ascii "Cookie: "++(cookieList cookies++
    (crlf++crlf)))

/-- The cookie of another program. -/
def themeCookie : Bytes×Bytes := (ascii "theme",ascii "dark")

/-- The cookie with a token. -/
def tokenCookie : Bytes×Bytes := (refreshName,ascii "abc")

/-- Renewals with the two cookies in either order are renewals. -/
theorem renewal_cookies {cookies : List (Bytes×Bytes)}
    (h : cookies=[themeCookie,tokenCookie] ∨ cookies=[tokenCookie,themeCookie]) :
    Renewal (renewalWith cookies) (ascii "GET /getNewToken HTTP/1.1\r\nOrigin: a\r\n") cookies crlf where
  line := ⟨32,ascii "HTTP/1.1\r\nOrigin: a",Or.inl rfl,by decide +kernel⟩
  bytes := rfl
  origin := by rcases h with rfl|rfl <;> decide +kernel
  blank := by rcases h with rfl|rfl <;> decide +kernel
  beforeFree := by decide +kernel
  clean := by
    rcases h with rfl|rfl
    · exact List.forall_mem_cons.mpr ⟨⟨by decide,by decide⟩,
        List.forall_mem_singleton.mpr ⟨by decide,by decide⟩⟩
    · exact List.forall_mem_cons.mpr ⟨⟨by decide,by decide⟩,
        List.forall_mem_singleton.mpr ⟨by decide,by decide⟩⟩

/-- With the token in the last cookie it is the one parsed. -/
theorem parse_refreshToken_last :
    ∃ getInfo,parse ⟨fun _ => none,.strict⟩ (renewalWith [themeCookie,tokenCookie])=
        .ok (.success,.get getInfo) ∧
      getInfo.refreshToken=ascii "abc" :=
  (@parse_refreshToken_iff ⟨fun _ => none,.strict⟩ ⟨_,by decide⟩ _ _ (ascii "abc") [themeCookie] []
    (renewal_cookies (Or.inl rfl))).mpr ⟨rfl,by decide⟩

/-- With another cookie behind it the token parsed is none that was sent. -/
theorem parse_refreshToken_first :
    ¬∃ getInfo,parse ⟨fun _ => none,.strict⟩ (renewalWith [tokenCookie,themeCookie])=
        .ok (.success,.get getInfo) ∧
      getInfo.refreshToken=ascii "abc" := by
  obtain ⟨origin,hparse⟩ := @parse_renewal ⟨fun _ => none,.strict⟩
    ⟨renewalWith [tokenCookie,themeCookie],by decide⟩ _ crlf (ascii "abc; theme=dark") _
    (renewal_cookies (Or.inr rfl)) ⟨0,by decide +kernel,by decide +kernel⟩ (by decide)
  have hother : ascii "abc; theme=dark"≠ascii "abc" := by decide
  rintro ⟨getInfo,hsame,hvalue⟩
  rw [hparse] at hsame
  cases hsame
  exact hother hvalue

end cookies

end Photogram.AuthHeaders
