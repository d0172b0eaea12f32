import Photogram.CxxString

/-!
# JSON values

The part of a JSON library both servers use: looking a key up in an object
and reading a string, each raising on a value of another type. Texts are
turned into values and back by the library itself, which is a parameter of
the models that need it.
-/

namespace Photogram.JsonValue

open CxxString

/-- JSON values; an object lists its members with distinct keys. -/
inductive Json where
  /-- The null value. -/
  | null
  /-- A truth value. -/
  | boolean (value : Bool)
  /-- An integer; other numbers are not told apart by the servers. -/
  | number (value : ℤ)
  /-- A string. -/
  | string (text : Bytes)
  /-- An array. -/
  | array (elements : List Json)
  /-- An object. -/
  | object (members : List (Bytes×Json))

/-- Member of an object; a key that is absent reads as null, and so does
every key of a null value. Other values raise. -/
def Json.index (value : Json) (key : Bytes) : Except Failure Json :=
  match value with
  | .object members => .ok ((members.lookup key).getD .null)
  | .null => .ok .null
  | _ => .error (.thrown .jsonType)

/-- Member of an object that has to be present. -/
def Json.at (value : Json) (key : Bytes) : Except Failure Json :=
  match value with
  | .object members =>
    match members.lookup key with
    | some member => .ok member
    | none => .error (.thrown .outOfRange)
  | _ => .error (.thrown .jsonType)

/-- Text of a string value; other values raise. -/
def Json.getString : Json → Except Failure Bytes
  | .string text => .ok text
  | _ => .error (.thrown .jsonType)

/-- Truth of a boolean value; other values raise. -/
def Json.getBool : Json → Except Failure Bool
  | .boolean value => .ok value
  | _ => .error (.thrown .jsonType)

/-- A string member; an absent one is null, which is no string. -/
def textMember (value : Json) (key : Bytes) : Except Failure Bytes :=
  value.index key>>=Json.getString

/-- A text in quotes, when it needs no escapes. -/
def plainText (text : Bytes) : Bytes := 34::text++[34]

/-- Text of a value without members. -/
def plainValue : Json → Option Bytes
  | .string text => some (plainText text)
  | .boolean true => some (ascii "true")
  | .boolean false => some (ascii "false")
  | .null => some (ascii "null")
  | _ => none

/-- Texts of members, separated by commas. -/
def plainMembers : List (Bytes×Json) → Option Bytes
  | [] => none
  | [(key,value)] => do
    let text ← plainValue value
    return plainText key++58::text
  | (key,value)::rest => do
    let text ← plainValue value
    let others ← plainMembers rest
    return plainText key++58::text++44::others

/-- A library for texts without escapes and objects without nesting: the
text of a value. -/
def dumpPlain : Json → Option Bytes
  | .object members => do
    let text ← plainMembers members
    return 123::text++[125]
  | value => plainValue value

/-- Value without members at the start of a text, with the rest of the text. -/
def readPlainValue (text : Bytes) : Option (Json×Bytes) :=
  if text.head?=some 34 then
    some (.string (text.tail.takeWhile (·≠34)),(text.tail.dropWhile (·≠34)).tail)
  else if ascii "true"<+:text then some (.boolean true,text.drop 4)
  else if ascii "false"<+:text then some (.boolean false,text.drop 5)
  else if ascii "null"<+:text then some (.null,text.drop 4)
  else none

/-- Members up to the end of a text, with a bound on their number. -/
def readPlainMembers : ℕ → Bytes → Option (List (Bytes×Json))
  | 0,_ => none
  | fuel+1,text =>
    let key := text.tail.takeWhile (·≠34)
    match (text.tail.dropWhile (·≠34)).tail with
    | 58::rest => do
      let read ← readPlainValue rest
      match read.2 with
      | [125] => return [(key,read.1)]
      | 44::more => do
        let others ← readPlainMembers fuel more
        return (key,read.1)::others
      | _ => none
    | _ => none

/-- The same library: the object a text stands for. -/
def parsePlain : Bytes → Option Json
  | 123::text => (readPlainMembers text.length text).map .object
  | _ => none

/-- Text of a value; the library raises when a string in it is not UTF-8. -/
def dumpText (dump : Json → Option Bytes) (value : Json) : Except Failure Bytes :=
  match dump value with
  | some text => .ok text
  | none => .error (.thrown .jsonType)

/-- A quoted text ends at the next quote. -/
theorem takeWhile_plainText {text rest : Bytes} (h : 34 ∉ text) :
    (text++34::rest).takeWhile (·≠34)=text ∧ (text++34::rest).dropWhile (·≠34)=34::rest := by
  have hplain : ∀ c ∈ text,decide (c≠34)=true := fun c hmem =>
    decide_eq_true fun heq => h (heq ▸ hmem)
  rw [List.takeWhile_append_of_pos hplain,List.dropWhile_append_of_pos hplain]
  exact ⟨by simp,by simp⟩

/-- A plain string is read back with what follows it. -/
theorem readPlainValue_plainText {text : Bytes} (h : 34 ∉ text) (rest : Bytes) :
    readPlainValue (34::(text++34::rest))=some (.string text,rest) := by
  unfold readPlainValue
  rw [if_pos List.head?_cons]
  dsimp only [List.tail_cons]
  rw [(takeWhile_plainText h).1,(takeWhile_plainText h).2]
  rfl

/-- One member with a plain string is read up to the end of the object. -/
theorem readPlainMembers_single {key text : Bytes} (hkey : 34 ∉ key) (htext : 34 ∉ text)
    (fuel : ℕ) :
    readPlainMembers (fuel+1) (plainText key++58::plainText text++[125])=
      some [(key,.string text)] := by
  have hshape : plainText key++58::plainText text++[125]=
      34::(key++34::58::34::(text++34::[125])) := by
    simp [plainText]
  rw [hshape]
  unfold readPlainMembers
  dsimp only [List.tail_cons]
  rw [(takeWhile_plainText hkey).1,(takeWhile_plainText hkey).2]
  rw [List.tail_cons]
  change (readPlainValue (34::(text++34::[125]))>>=_)=_
  rw [readPlainValue_plainText htext]
  rfl

/-- An object with one plain string is read back from its text. -/
theorem parsePlain_dumpPlain {key text dumped : Bytes} (hkey : 34 ∉ key) (htext : 34 ∉ text)
    (h : dumpPlain (.object [(key,.string text)])=some dumped) :
    parsePlain dumped=some (.object [(key,.string text)]) := by
  cases h
  obtain ⟨fuel,hfuel⟩ : ∃ fuel,(plainText key++58::plainText text++[125]).length=fuel+1 :=
    ⟨_,by rw [List.length_append,List.length_singleton]⟩
  change (readPlainMembers (plainText key++58::plainText text++[125]).length
    (plainText key++58::plainText text++[125])).map Json.object=_
  rw [hfuel,readPlainMembers_single hkey htext fuel]
  rfl

end Photogram.JsonValue
