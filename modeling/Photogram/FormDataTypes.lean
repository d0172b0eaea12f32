import Photogram.FormDataFields
import Photogram.HeaderLines

/-!
# The type stored for a part

FormDataParser::addProperty cuts the type of a part behind its type header,
with as many bytes as the first header line has, or to the end when there is
only one line. What is stored is the type when that count happens to fit. A
part that is itself named Content-Type stores its value over the type.
-/

namespace Photogram.FormDataTypes

open CxxString FormDataParser FormDataFields HeaderLines

/-- A part with a type line among any header lines. -/
structure TypedPart where
  /-- Lines in front of the type line. -/
  before : List Bytes
  /-- The type. -/
  type : Bytes
  /-- Lines behind the type line. -/
  after : List Bytes
  /-- The bytes of the field. -/
  value : Bytes

/-- The header lines. -/
def TypedPart.lines (part : TypedPart) : List Bytes :=
  part.before++(ascii "Content-Type: "++part.type)::part.after

/-- The header lines are lines, and only the type line shows a type header. -/
structure TypedPart.OneType (part : TypedPart) : Prop where
  /-- Lines. -/
  lines : ∀ line ∈ part.lines,HeaderLine line
  /-- None in front. -/
  before : ∀ line ∈ part.before,¬ascii "Content-Type"<:+:line
  /-- None behind. -/
  after : ∀ line ∈ part.after,¬ascii "Content-Type"<:+:line

/-- The part behind its delimiter line. -/
def TypedPart.bytes (part : TypedPart) : Bytes :=
  terminated part.lines++(lineEnd++(part.value++lineEnd))

/-- A body that holds the part. -/
def TypedPart.within (part : TypedPart) (left right : Bytes) : Bytes := left++(part.bytes++right)

/-- The last byte of the part in it. -/
def TypedPart.finish (part : TypedPart) (left : Bytes) : ℕ := left.length+part.bytes.length-1

/-- Fields when the call has ended. It stores through a reference, so that an
exception leaves what was stored before it. -/
def leftBehind (body : Bytes) (startP finishP : ℕ) (output : FieldMap) : FieldMap :=
  match addProperty body startP finishP output with
  | .ok result => result
  | .error _ =>
    match storeType (descriptionPart body startP) output with
    | .ok typed => typed
    | .error _ => output

/-- The type of the part is stored, whatever was stored before. -/
def TypedPart.StoresType (part : TypedPart) (left right : Bytes) : Prop :=
  ∀ output,(leftBehind (part.within left right) left.length (part.finish left) output)[
    ascii "Content-Type"]?=some part.type

/-- The type is as long as the first line, or it comes last and is not longer,
or there is no other line. -/
def TypedPart.TypeFits (part : TypedPart) : Prop :=
  match part.before with
  | [] => part.after=[]
  | first::_ => part.type.length=first.length ∨ (part.after=[] ∧ part.type.length ≤ first.length)

/-- The first name of the header lines is that of the type header. -/
def TypedPart.NamedType (part : TypedPart) : Prop :=
  ∃ p,find? (joined part.lines) (ascii "name") 0=some p ∧
    ((joined part.lines).drop (p+6)=ascii "Content-Type" ∨
      ascii "Content-Type\""<+:(joined part.lines).drop (p+6))

section cuts

/-- A text in front of another is all that is taken when the count is right. -/
theorem take_append_eq_iff (text tail : Bytes) (n : ℕ) :
    (text++tail).take n=text ↔ text.length=n ∨ (tail=[] ∧ text.length ≤ n) := by
  constructor
  · intro h
    have hlength := congrArg List.length h
    rw [List.length_take,List.length_append] at hlength
    rcases Nat.lt_or_ge text.length n with hlt|hge
    · have htail : tail.length=0 := by omega
      exact Or.inr ⟨List.length_eq_zero_iff.mp htail,Nat.le_of_lt hlt⟩
    · exact Or.inl (by omega)
  · rintro (rfl|⟨rfl,hle⟩)
    · exact List.take_left
    · rw [List.append_nil]
      exact List.take_of_length_le hle

/-- The first carriage return of joined lines ends the first of them. -/
theorem find_return {first : Bytes} (hfirst : (13 : UInt8) ∉ first) (others : List Bytes) :
    find (joined (first::others)) (ascii "\r") 0=if others=[] then npos else first.length := by
  change find (first++led others) (ascii "\r") 0=_
  cases others with
  | nil =>
    have hnone : find? (first++led []) (ascii "\r") 0=none := by
      rw [find?_zero_eq_none_iff]
      intro h
      refine hfirst ?_
      have hmem := h.subset (by decide : (13 : UInt8) ∈ ascii "\r")
      rwa [led,List.flatMap_nil,List.append_nil] at hmem
    rw [find_of_none hnone,if_pos rfl]
  | cons second others =>
    rw [if_neg (List.cons_ne_nil _ _)]
    refine find_of_some ?_
    unfold led
    rw [List.flatMap_cons]
    exact find?_behind_head hfirst

/-- A cut up to a quote is a text without quotes exactly when the text stands
there, in front of a quote or of the end. -/
theorem cutAt_quote_iff {s text : Bytes} {start : ℕ} (hstart : start ≤ s.length)
    (hquote : (34 : UInt8) ∉ text) :
    cutAt s (ascii "\"") start start=text ↔ s.drop start=text ∨ text++ascii "\""<+:s.drop start := by
  have hsplit : s=s.take start++s.drop start := (List.take_append_drop _ _).symm
  have hlength : (s.take start).length=start := by
    rw [List.length_take,Nat.min_eq_left hstart]
  have hrest : cutAt s (ascii "\"") start start=cutAt (s.drop start) (ascii "\"") 0 0 := by
    have hshift := cutAt_append_right (s.take start) (s.drop start) (ascii "\"") 0 0
    rwa [←hsplit,hlength,Nat.add_zero] at hshift
  rw [hrest]
  generalize s.drop start=rest
  unfold cutAt
  cases hfound : find? rest (ascii "\"") 0 with
  | none =>
    have hfree := find?_zero_eq_none_iff.mp hfound
    refine ⟨Or.inl,fun h => h.elim id fun hbegin => ?_⟩
    exact absurd ((List.suffix_append _ _).isInfix.trans hbegin.isInfix) hfree
  | some stop =>
    obtain ⟨hinside,after,hafter⟩ := (find?_eq_some_iff.mp hfound).2.1
    dsimp only
    rw [List.drop_zero,Nat.sub_zero]
    have hcut : rest=rest.take stop++(ascii "\""++after) := by
      rw [hafter,List.take_append_drop]
    constructor
    · intro heq
      refine Or.inr ⟨after,?_⟩
      rw [List.append_assoc,←heq]
      exact hcut.symm
    · rintro (heq|⟨after',hafter'⟩)
      · rw [heq] at hcut
        have hmem : (34 : UInt8) ∈ text := by
          rw [hcut]
          exact List.mem_append_right _ (List.mem_append_left _ (by decide))
        exact absurd hmem hquote
      · have hfirst : find? (text++(ascii "\""++after')) (ascii "\"") 0=some text.length :=
          find?_behind_head hquote
        rw [←List.append_assoc,hafter',hfound] at hfirst
        rw [←hafter',Option.some.inj hfirst,List.append_assoc,List.take_left]

end cuts

section parts

variable {part : TypedPart} {left right : Bytes}

/-- A part has its type line. -/
theorem TypedPart.lines_ne_nil (part : TypedPart) : part.lines≠[] := by
  unfold TypedPart.lines
  exact List.append_ne_nil_of_right_ne_nil _ (List.cons_ne_nil _ _)

/-- The header lines between their line ends. -/
theorem joined_lines (part : TypedPart) :
    joined part.lines=terminated part.before++
      ((ascii "Content-Type: "++part.type)++led part.after) := joined_split _ _ _

/-- The body, taken apart at the blank line of the part. -/
theorem within_split (part : TypedPart) (left right : Bytes) :
    part.within left right=
      left++(joined part.lines++(headersEnd++(part.value++(lineEnd++right)))) := by
  have hblank := joined_blank part.lines_ne_nil (part.value++(lineEnd++right))
  unfold TypedPart.within TypedPart.bytes
  simp only [List.append_assoc]
  exact congrArg (left++·) hblank

/-- The first blank line behind the start of the part ends its header lines. -/
theorem find?_blank_within (h : part.OneType) (left right : Bytes) :
    find? (part.within left right) headersEnd left.length=
      some (left.length+(joined part.lines).length) := by
  have hshift := find?_append_right left
    (joined part.lines++(headersEnd++(part.value++(lineEnd++right)))) headersEnd 0
  rw [←within_split,Nat.add_zero] at hshift
  exact hshift.trans (congrArg (Option.map _) (find?_blank h.lines part.lines_ne_nil _))

/-- The header text is the header lines. -/
theorem descriptionPart_within (h : part.OneType) (left right : Bytes) :
    descriptionPart (part.within left right) left.length=joined part.lines := by
  unfold descriptionPart cutAt
  rw [find?_blank_within h]
  dsimp only
  rw [Nat.add_sub_cancel_left,within_split,List.drop_left,List.take_left]

/-- The type header is found at the type line. -/
theorem find?_type (h : part.OneType) :
    find? (joined part.lines) (ascii "Content-Type") 0=some (terminated part.before).length := by
  have hbegin : find? ((ascii "Content-Type: "++part.type)++led part.after) (ascii "Content-Type") 0=
      some 0 := by
    refine find?_of_occurs ⟨Nat.zero_le _,?_⟩
    exact (by decide : ascii "Content-Type"<+:ascii "Content-Type: ").trans
      ((List.prefix_append _ _).trans (List.prefix_append _ _))
  rw [joined_lines,find?_passLines (by decide) (by decide) (by decide) h.before,hbegin]
  rfl

/-- What follows the type header is the type and the lines behind it. -/
theorem drop_type (part : TypedPart) :
    (joined part.lines).drop ((terminated part.before).length+14)=part.type++led part.after := by
  rw [joined_lines,List.drop_length_add_append,List.append_assoc]
  rfl

/-- Nothing stands behind the type line only when it is the last one. -/
theorem led_eq_nil_iff (lines : List Bytes) : led lines=[] ↔ lines=[] := by
  cases lines with
  | nil => simp [led]
  | cons line lines =>
    simp only [reduceCtorEq,iff_false]
    unfold led
    rw [List.flatMap_cons]
    exact fun heq => absurd (congrArg List.length heq) (by
      simp only [List.length_append]
      change ¬(2+_)+_=0
      omega)

/-- The type is cut out as it is exactly when it fits. -/
theorem typeCut_eq_iff (h : part.OneType) (hs : (joined part.lines).length ≤ maxSize) :
    typeCut (joined part.lines) (terminated part.before).length=part.type ↔ part.TypeFits := by
  have hm := maxSize_lt_npos
  have hlength := congrArg List.length (joined_lines part)
  simp only [List.length_append] at hlength
  change _=_+(14+_+_) at hlength
  unfold typeCut
  rw [drop_type,take_append_eq_iff,led_eq_nil_iff]
  unfold TypedPart.TypeFits
  cases hbefore : part.before with
  | nil =>
    have hlines : part.lines=(ascii "Content-Type: "++part.type)::part.after := by
      unfold TypedPart.lines
      rw [hbefore,List.nil_append]
    have hreturn := (h.lines _ (by rw [hlines]; exact List.mem_cons_self)).noReturn
    have hfirst : (ascii "Content-Type: "++part.type).length=14+part.type.length := List.length_append
    rw [hlines,find_return hreturn,hfirst]
    dsimp only
    by_cases hafter : part.after=[]
    · simp only [if_pos hafter]
      exact ⟨fun _ => hafter,fun _ => Or.inr ⟨hafter,by omega⟩⟩
    · simp only [if_neg hafter]
      exact ⟨fun heq => heq.elim (fun hwrong => by omega) And.left,fun heq => absurd heq hafter⟩
  | cons first others =>
    have hlines : part.lines=first::(others++(ascii "Content-Type: "++part.type)::part.after) := by
      unfold TypedPart.lines
      rw [hbefore,List.cons_append]
    have hreturn := (h.lines first (by rw [hlines]; exact List.mem_cons_self)).noReturn
    rw [hlines,find_return hreturn,if_neg (by simp)]

/-- The part is named after the type header exactly when that is the name cut
out of its header lines. -/
theorem namedType_iff (part : TypedPart) : part.NamedType ↔
    ∃ p,find? (joined part.lines) (ascii "name") 0=some p ∧ p+6 ≤ (joined part.lines).length ∧
      nameCut (joined part.lines) p=ascii "Content-Type" := by
  have hcut : ∀ {p},p+6 ≤ (joined part.lines).length →
      (nameCut (joined part.lines) p=ascii "Content-Type" ↔
        (joined part.lines).drop (p+6)=ascii "Content-Type" ∨
          ascii "Content-Type\""<+:(joined part.lines).drop (p+6)) := by
    intro p hp
    have hquote : ascii "Content-Type"++ascii "\""=ascii "Content-Type\"" := by decide
    rw [←hquote]
    exact cutAt_quote_iff hp (by decide)
  constructor
  · rintro ⟨p,hp,hnamed⟩
    have hinside : p+6 ≤ (joined part.lines).length := by
      by_contra hshort
      rw [List.drop_eq_nil_of_le (by omega)] at hnamed
      exact absurd hnamed (by decide)
    exact ⟨p,hp,hinside,(hcut hinside).mpr hnamed⟩
  · rintro ⟨p,hp,hinside,hname⟩
    exact ⟨p,hp,(hcut hinside).mp hname⟩

/-- A name inside the header lines has the value of the part. -/
theorem valueCut_within (h : part.OneType) (hs : (part.within left right).length ≤ maxSize) {p : ℕ}
    (hp : p+6 ≤ (joined part.lines).length) :
    valueCut (part.within left right) (valueStart (part.within left right) left.length p)
      (part.finish left)=part.value := by
  have hm : maxSize+4<sizeModulus := by decide
  have hplace := valueStart_eq hs (find?_blank_within h left right) hp
  have hbytes : part.bytes.length=(joined part.lines).length+4+part.value.length+2 := by
    unfold TypedPart.bytes
    rw [←joined_lineEnd part.lines_ne_nil]
    simp only [List.length_append]
    change _+2+(2+(_+2))=_
    omega
  have hinside : left.length+part.bytes.length ≤ (part.within left right).length := by
    unfold TypedPart.within
    simp only [List.length_append]
    omega
  have hcount : valueCount (left.length+(joined part.lines).length+4) (part.finish left)=
      part.value.length := by
    have hfinish : part.finish left=
        left.length+(joined part.lines).length+4+part.value.length+1 := by
      unfold TypedPart.finish
      omega
    rw [valueCount_eq (by omega) (by omega)]
    omega
  have hsplit : part.within left right=
      (left++(joined part.lines++headersEnd))++(part.value++(lineEnd++right)) := by
    rw [within_split]
    simp only [List.append_assoc]
  have hlength : (left++(joined part.lines++headersEnd)).length=
      left.length+(joined part.lines).length+4 := by
    rw [List.length_append,List.length_append,←Nat.add_assoc]
    rfl
  unfold valueCut
  rw [hplace,hcount,hsplit,List.drop_left' hlength,List.take_left]

/-- The type header ends inside the header lines. -/
theorem type_ended (h : part.OneType) {p : ℕ}
    (hp : find? (joined part.lines) (ascii "Content-Type") 0=some p) :
    p+14 ≤ (joined part.lines).length := by
  cases Option.some.inj ((find?_type h).symm.trans hp)
  have hlength := congrArg List.length (joined_lines part)
  simp only [List.length_append] at hlength
  change _=_+(14+_+_) at hlength
  omega

/-- The type of the part is stored once. -/
theorem typeFields_within (h : part.OneType) :
    typeFields (joined part.lines)=
      [(ascii "Content-Type",typeCut (joined part.lines) (terminated part.before).length)] := by
  unfold typeFields
  rw [find?_type h]

/-- A part whose first name ends inside its header lines stores its type and
then what it is named. -/
theorem leftBehind_named (h : part.OneType) (hs : (part.within left right).length ≤ maxSize)
    (hname : ∀ p,find? (joined part.lines) (ascii "name") 0=some p →
      p+6 ≤ (joined part.lines).length) (output : FieldMap) :
    leftBehind (part.within left right) left.length (part.finish left) output=
      insertFields (output.insert (ascii "Content-Type")
        (typeCut (joined part.lines) (terminated part.before).length))
          (namedFields (part.within left right) left.length (part.finish left)) := by
  have hbody : left.length ≤ (part.within left right).length := by
    rw [within_split,List.length_append]
    omega
  have hdescription := descriptionPart_within h left right
  unfold leftBehind
  rw [addProperty_ok hs hbody (by rw [hdescription]; exact ⟨fun _ => type_ended h,hname⟩)]
  unfold storedFields
  rw [insertFields_append,hdescription,typeFields_within h,insertFields_singleton]

/-- Any other part leaves its type behind and raises. -/
theorem leftBehind_unnamed (h : part.OneType) (hs : (part.within left right).length ≤ maxSize)
    (hname : ¬∀ p,find? (joined part.lines) (ascii "name") 0=some p →
      p+6 ≤ (joined part.lines).length) (output : FieldMap) :
    leftBehind (part.within left right) left.length (part.finish left) output=
      output.insert (ascii "Content-Type")
        (typeCut (joined part.lines) (terminated part.before).length) := by
  have hbody : left.length+(joined part.lines).length ≤ (part.within left right).length := by
    rw [within_split]
    simp only [List.length_append]
    omega
  have hdescription := descriptionPart_within h left right
  have hraises : ¬Storable (descriptionPart (part.within left right) left.length) := by
    rw [hdescription]
    exact fun hstorable => hname hstorable.name
  unfold leftBehind
  rw [addProperty_raises hs (by omega) hraises]
  dsimp only
  rw [hdescription,storeType_ok (by omega) fun _ => type_ended h,typeFields_within h,
    insertFields_singleton]

/-- Under the name of the type header a part leaves its value when it is named
so, and what was cut out of its header lines otherwise. -/
theorem leftBehind_type (h : part.OneType) (hs : (part.within left right).length ≤ maxSize)
    (output : FieldMap) :
    (part.NamedType ∧ (leftBehind (part.within left right) left.length (part.finish left) output)[
        ascii "Content-Type"]?=some part.value) ∨
      (¬part.NamedType ∧ (leftBehind (part.within left right) left.length (part.finish left) output)[
        ascii "Content-Type"]?=
          some (typeCut (joined part.lines) (terminated part.before).length)) := by
  have hdescription := descriptionPart_within h left right
  rw [namedType_iff]
  by_cases hname : ∀ p,find? (joined part.lines) (ascii "name") 0=some p →
      p+6 ≤ (joined part.lines).length
  · rw [leftBehind_named h hs hname]
    cases hfound : find? (joined part.lines) (ascii "name") 0 with
    | none =>
      rw [namedFields_none (by rw [hdescription]; exact hfound)]
      refine Or.inr ⟨?_,(getElem?_insert _ _ _ _).trans (if_pos rfl)⟩
      rintro ⟨p,hp,_⟩
      cases hp
    | some p =>
      rw [namedFields_some (by rw [hdescription]; exact hfound),hdescription,insertFields_singleton,
        getElem?_insert,valueCut_within h hs (hname p hfound)]
      by_cases hnamed : nameCut (joined part.lines) p=ascii "Content-Type"
      · exact Or.inl ⟨⟨p,rfl,hname p hfound,hnamed⟩,if_pos hnamed⟩
      · refine Or.inr ⟨?_,?_⟩
        · rintro ⟨q,hq,_,hcut⟩
          cases hq
          exact hnamed hcut
        · rw [if_neg hnamed,getElem?_insert,if_pos rfl]
  · rw [leftBehind_unnamed h hs hname,getElem?_insert,if_pos rfl]
    refine Or.inr ⟨?_,rfl⟩
    rintro ⟨p,hp,hinside,_⟩
    refine hname fun q hq => ?_
    cases Option.some.inj (hp.symm.trans hq)
    exact hinside

/-- For a part with any header lines the type it announces is stored exactly
when it fits the count the code cuts with or, for a part named Content-Type,
when its value is that type. -/
theorem stored_type_iff (h : part.OneType) (hs : (part.within left right).length ≤ maxSize) :
    part.StoresType left right ↔
      (part.NamedType ∧ part.value=part.type) ∨ (¬part.NamedType ∧ part.TypeFits) := by
  have hlines : (joined part.lines).length ≤ maxSize := by
    rw [within_split] at hs
    simp only [List.length_append] at hs
    omega
  rw [←typeCut_eq_iff h hlines]
  constructor
  · intro hstores
    rcases leftBehind_type h hs ∅ with ⟨hnamed,hvalue⟩|⟨hnamed,hcut⟩
    · exact Or.inl ⟨hnamed,Option.some.inj (hvalue.symm.trans (hstores ∅))⟩
    · exact Or.inr ⟨hnamed,Option.some.inj (hcut.symm.trans (hstores ∅))⟩
  · intro hcase output
    rcases leftBehind_type h hs output with ⟨hnamed,hvalue⟩|⟨hnamed,hcut⟩
    · rcases hcase with ⟨_,heq⟩|⟨hnot,_⟩
      · rw [hvalue,heq]
      · exact absurd hnamed hnot
    · rcases hcase with ⟨hyes,_⟩|⟨_,heq⟩
      · exact absurd hyes hnamed
      · rw [hcut,heq]

end parts

section samples

/-- The disposition line of a photo. -/
def photoLine : Bytes := ascii "Content-Disposition: form-data; name=\"photo\""

/-- A part whose type line comes last. -/
def typeLastPart : TypedPart := ⟨[photoLine],ascii "image/png",[],ascii "P"⟩

/-- A part whose type line comes first. -/
def typeFirstPart : TypedPart := ⟨[],ascii "image/png",[photoLine],ascii "P"⟩

/-- Both have a type line and no other line that shows a type header. -/
theorem oneType_samples : typeLastPart.OneType ∧ typeFirstPart.OneType := by
  have hphoto : HeaderLine photoLine := ⟨by decide,by decide +kernel,by decide +kernel⟩
  have htype : HeaderLine (ascii "Content-Type: "++ascii "image/png") :=
    ⟨by decide,by decide,by decide⟩
  have hfree : ¬ascii "Content-Type"<:+:photoLine := by decide +kernel
  have hsingle : ∀ line ∈ [photoLine],¬ascii "Content-Type"<:+:line := by
    intro line hline
    rw [List.mem_singleton.mp hline]
    exact hfree
  have hnone : ∀ line ∈ ([] : List Bytes),¬ascii "Content-Type"<:+:line :=
    fun _ h => absurd h List.not_mem_nil
  constructor
  · refine ⟨fun line hline => ?_,hsingle,hnone⟩
    rcases List.mem_pair.mp hline with rfl|rfl
    · exact hphoto
    · exact htype
  · refine ⟨fun line hline => ?_,hnone,hsingle⟩
    rcases List.mem_pair.mp hline with rfl|rfl
    · exact htype
    · exact hphoto

/-- The type of the first is stored. -/
theorem stored_type_last : typeLastPart.StoresType (ascii "--b\r\n") (ascii "--b--") := by
  have hs : (typeLastPart.within (ascii "--b\r\n") (ascii "--b--")).length ≤ maxSize := by
    decide +kernel
  refine (stored_type_iff oneType_samples.1 hs).mpr (Or.inr ⟨?_,Or.inr ⟨rfl,by decide +kernel⟩⟩)
  rintro ⟨p,hp,hnamed⟩
  have hfound : find? (joined typeLastPart.lines) (ascii "name") 0=some 32 := by decide +kernel
  cases Option.some.inj (hfound.symm.trans hp)
  revert hnamed
  decide +kernel

/-- With the type of the second the next line is stored, behind its line end. -/
theorem leftBehind_typeFirst :
    (leftBehind (typeFirstPart.within (ascii "--b\r\n") (ascii "--b--")) 5
      (typeFirstPart.finish (ascii "--b\r\n")) ∅)[ascii "Content-Type"]?=
        some (ascii "image/png\r\nContent-Disp") := by
  have hs : (typeFirstPart.within (ascii "--b\r\n") (ascii "--b--")).length ≤ maxSize := by
    decide +kernel
  rcases leftBehind_type oneType_samples.2 hs ∅ with ⟨⟨p,hp,hnamed⟩,_⟩|⟨_,hcut⟩
  · have hfound : find? (joined typeFirstPart.lines) (ascii "name") 0=some 57 := by decide +kernel
    cases Option.some.inj (hfound.symm.trans hp)
    revert hnamed
    decide +kernel
  · have hstored : typeCut (joined typeFirstPart.lines) (terminated typeFirstPart.before).length=
        ascii "image/png\r\nContent-Disp" := by decide +kernel
    rw [hstored] at hcut
    exact hcut

/-- So its type is not. -/
theorem stored_type_first : typeFirstPart.OneType ∧
    (typeFirstPart.within (ascii "--b\r\n") (ascii "--b--")).length ≤ maxSize ∧
    ¬typeFirstPart.StoresType (ascii "--b\r\n") (ascii "--b--") := by
  refine ⟨oneType_samples.2,by decide +kernel,fun hstores => ?_⟩
  have heq := Option.some.inj (leftBehind_typeFirst.symm.trans (hstores ∅))
  revert heq
  decide +kernel

end samples

end Photogram.FormDataTypes
