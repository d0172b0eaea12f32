import Photogram.CxxString

/-!
# A reader of HTTP replies

A reader splits the lines of a header block at CR LF and stops at the first
empty line. The first line is the status line. A reply with the code 204 has
no body; any other one names the length of its body in exactly one line. A
message whose lines hold no line end of their own is read back from what is
written for it, whatever bytes follow.
-/

namespace Photogram.HttpReader

open CxxString

/-- A line end. -/
def lineEnd : Bytes := [13,10]

/-- Literal in front of the length of a body. -/
def lengthField : Bytes := ascii "Content-Length: "

/-- A message taken apart. -/
structure Message where
  /-- The status line. -/
  status : Bytes
  /-- The header lines. -/
  headers : List Bytes
  /-- The body. -/
  body : Bytes
  deriving DecidableEq

/-- Decimal numeral of a number. -/
def numeral (n : ℕ) : Bytes := ascii (toString n)

/-- Number of a decimal numeral. -/
def readNumeral (text : Bytes) : Option ℕ :=
  if text≠[] ∧ text.all isDigit then some (decimalValue text) else none

/-- Lines up to the first empty one, and the bytes behind it; what is read
of the current line and the lines before it are carried along. -/
def readBlock (line : Bytes) (lines : List Bytes) : Bytes → Option (List Bytes×Bytes)
  | [] => none
  | 13::10::rest => if line=[] then some (lines,rest) else readBlock [] (lines++[line]) rest
  | c::rest => readBlock (line++[c]) lines rest

/-- The code of a status line. -/
def statusCode (status : Bytes) : Bytes := (status.drop 9).take 3

/-- Length of the body behind a header block. -/
def bodyLength (status : Bytes) (headers : List Bytes) : Option ℕ :=
  if statusCode status=ascii "204" then some 0
  else match headers.filter fun header => lengthField.isPrefixOf header with
    | [header] => readNumeral (header.drop lengthField.length)
    | _ => none

/-- Read one message, and the bytes behind it. -/
def read (bytes : Bytes) : Option (Message×Bytes) := do
  let (lines,rest) ← readBlock [] [] bytes
  match lines with
  | [] => none
  | status::headers =>
    let length ← bodyLength status headers
    if length ≤ rest.length then some (⟨status,headers,rest.take length⟩,rest.drop length) else none

/-- The bytes of a message. -/
def Message.write (message : Message) : Bytes :=
  (message.status::message.headers).flatMap (·++lineEnd)++(lineEnd++message.body)

/-- A line that is not empty and holds no line end. -/
structure IsLine (line : Bytes) : Prop where
  /-- It holds at least one byte. -/
  ne : line≠[]
  /-- It is not split. -/
  whole : ¬lineEnd<:+:line

/-- A message whose lines are lines and whose body has the length they say. -/
structure Message.Framed (message : Message) : Prop where
  /-- The status line and the header lines. -/
  lines : ∀ line ∈ message.status::message.headers,IsLine line
  /-- The length of the body. -/
  length : bodyLength message.status message.headers=some message.body.length

section numerals

/-- The byte of an ASCII digit has its number. -/
theorem toNat_digit {c : Char} (h : c.isDigit) : c.toNat.toUInt8.toNat=c.toNat := by
  have hle : c.toNat ≤ 57 := by
    simp only [Char.isDigit,Bool.and_eq_true,decide_eq_true_eq] at h
    exact UInt32.le_iff_toNat_le.mp h.2
  change c.toNat%256=c.toNat
  omega

/-- The bytes of digits are digits, with the value of the digits. -/
theorem decimalValue_digits (digits : List Char) (h : ∀ c ∈ digits,c.isDigit) :
    (digits.map fun c => c.toNat.toUInt8).all isDigit ∧
      decimalValue (digits.map fun c => c.toNat.toUInt8)=Nat.ofDigitChars 10 digits 0 := by
  constructor
  · rw [List.all_map,List.all_eq_true]
    intro c hc
    have hdigit := h c hc
    have hnat := toNat_digit hdigit
    simp only [Char.isDigit,Bool.and_eq_true,decide_eq_true_eq] at hdigit
    have hlow : 48 ≤ c.toNat := UInt32.le_iff_toNat_le.mp hdigit.1
    have hhigh : c.toNat ≤ 57 := UInt32.le_iff_toNat_le.mp hdigit.2
    simp only [Function.comp_apply,isDigit,Bool.and_eq_true,decide_eq_true_eq,
      UInt8.le_iff_toNat_le,hnat]
    exact ⟨hlow,hhigh⟩
  · rw [Nat.ofDigitChars_eq_foldl]
    unfold decimalValue
    rw [List.foldl_map]
    generalize 0=value
    induction digits generalizing value with
    | nil => rfl
    | cons c rest ih =>
      rw [List.foldl_cons,List.foldl_cons,toNat_digit (h c List.mem_cons_self)]
      exact ih (fun d hd => h d (List.mem_cons_of_mem _ hd)) _

/-- A numeral is read back. -/
theorem readNumeral_numeral (n : ℕ) : readNumeral (numeral n)=some n := by
  have htext : numeral n=(Nat.toDigits 10 n).map fun c => c.toNat.toUInt8 :=
    congrArg (List.map fun c : Char => c.toNat.toUInt8) Nat.toList_repr
  obtain ⟨hdigits,hvalue⟩ := decimalValue_digits (Nat.toDigits 10 n)
    fun c hc => Nat.isDigit_of_mem_toDigits (by decide) (by decide) hc
  unfold readNumeral
  rw [htext,if_pos ⟨by simp [Nat.toDigits_ne_nil],hdigits⟩,hvalue,Nat.ofDigitChars_ten_toDigits]

/-- A numeral holds digits only. -/
theorem numeral_digits (n : ℕ) : ∀ digit ∈ numeral n,isDigit digit := by
  have hread := readNumeral_numeral n
  unfold readNumeral at hread
  split at hread
  · next h => exact List.all_eq_true.mp h.2
  · cases hread

/-- A numeral holds no line end. -/
theorem numeral_whole (n : ℕ) : (13 : UInt8) ∉ numeral n :=
  fun hmem => absurd (numeral_digits n 13 hmem) (by decide)

end numerals

section lines

/-- Behind a text without CR a value that is whole stays whole. -/
theorem whole_behind {before value : Bytes} (hbefore : (13 : UInt8) ∉ before)
    (h : ¬lineEnd<:+:value) : ¬lineEnd<:+:before++value :=
  fun hsplit => h (isInfix_behind_head hbefore hsplit)

/-- In front of a text without LF a value that is whole stays whole. -/
theorem whole_before {value after : Bytes} (hafter : (10 : UInt8) ∉ after)
    (h : ¬lineEnd<:+:value) : ¬lineEnd<:+:value++after := by
  intro hsplit
  obtain ⟨p,hp⟩ := exists_occurs_of_isInfix hsplit
  by_cases hend : p+2 ≤ value.length
  · exact h ((occurs_append_left hend).mp hp).isInfix
  · have hnext : (value++after)[p+1]?=some 10 := by
      obtain ⟨rest,hrest⟩ := hp.2
      have hsecond := congrArg (fun l : Bytes => l[1]?) hrest
      simpa [lineEnd,List.getElem?_drop] using hsecond.symm
    rw [List.getElem?_append_right (by omega)] at hnext
    exact hafter (List.mem_of_getElem? hnext)

/-- A text without CR is whole. -/
theorem whole_of_noCr {text : Bytes} (h : (13 : UInt8) ∉ text) : ¬lineEnd<:+:text :=
  fun hsplit => h (hsplit.subset List.mem_cons_self)

/-- A byte that does not begin a line end belongs to the line. -/
theorem readBlock_cons {line : Bytes} {lines : List Bytes} {c : UInt8} {rest : Bytes}
    (h : ¬lineEnd<+:c::rest) :
    readBlock line lines (c::rest)=readBlock (line++[c]) lines rest := by
  unfold lineEnd at h
  conv_lhs => unfold readBlock
  split
  · next heq => cases heq
  · next heq =>
    cases heq
    exact absurd (List.prefix_append [13,10] _) h
  · next heq =>
    cases heq
    rfl

/-- A whole text is read up to the line end behind it. -/
theorem readBlock_line (text line : Bytes) (lines : List Bytes) (rest : Bytes)
    (h : ¬lineEnd<:+:text) :
    readBlock line lines (text++(lineEnd++rest))=
      if line++text=[] then some (lines,rest) else readBlock [] (lines++[line++text]) rest := by
  induction text generalizing line with
  | nil =>
    rw [List.append_nil]
    rfl
  | cons c text ih =>
    have hnone : ¬lineEnd<+:c::(text++(lineEnd++rest)) := by
      rintro ⟨after,hafter⟩
      cases text with
      | nil => cases hafter
      | cons d text =>
        cases hafter
        exact h (List.prefix_append [13,10] text).isInfix
    rw [List.cons_append,readBlock_cons hnone,
      ih (line++[c]) fun hsplit => h (hsplit.trans (List.suffix_cons c text).isInfix),
      List.append_assoc,List.singleton_append]

/-- Lines are read up to the empty line behind them. -/
theorem readBlock_lines (lines before : List Bytes) (rest : Bytes)
    (h : ∀ line ∈ lines,IsLine line) :
    readBlock [] before (lines.flatMap (·++lineEnd)++(lineEnd++rest))=some (before++lines,rest) := by
  induction lines generalizing before with
  | nil =>
    rw [List.append_nil]
    rfl
  | cons line lines ih =>
    have hline := h line List.mem_cons_self
    rw [List.flatMap_cons,List.append_assoc,List.append_assoc,
      readBlock_line line [] before _ hline.whole,List.nil_append,if_neg hline.ne,
      ih (before++[line]) fun other hother => h other (List.mem_cons_of_mem _ hother),
      List.append_assoc,List.singleton_append]

/-- A framed message is read back, and nothing of what follows. -/
theorem read_write {message : Message} (h : message.Framed) (rest : Bytes) :
    read (message.write++rest)=some (message,rest) := by
  obtain ⟨status,headers,body⟩ := message
  have hblock : readBlock [] [] (Message.write ⟨status,headers,body⟩++rest)=
      some (status::headers,body++rest) := by
    unfold Message.write
    rw [List.append_assoc,List.append_assoc]
    exact readBlock_lines (status::headers) [] (body++rest) h.lines
  have hlength : bodyLength status headers=some body.length := h.length
  unfold read
  rw [hblock]
  dsimp only [Option.bind_eq_bind,Option.bind_some]
  rw [hlength]
  dsimp only [Option.bind_some]
  rw [if_pos (by rw [List.length_append]; omega),List.take_left,List.drop_left]

end lines

end Photogram.HttpReader
