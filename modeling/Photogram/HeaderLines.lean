import Photogram.CxxString

/-!
# Blocks of header lines

A block is a list of lines, each ended by a carriage return and a line feed.
The first blank line behind a block is the one that ends it, and what holds no
carriage return is found in the first line that shows it.
-/

namespace Photogram.HeaderLines

open CxxString

/-- A line of a block: some bytes, none of them of a line end. -/
structure HeaderLine (line : Bytes) : Prop where
  /-- Not a blank line. -/
  filled : line≠[]
  /-- No carriage return. -/
  noReturn : (13 : UInt8) ∉ line
  /-- No line feed. -/
  noFeed : (10 : UInt8) ∉ line

/-- Lines with their line ends. -/
def terminated (lines : List Bytes) : Bytes := lines.flatMap fun line => line++ascii "\r\n"

/-- No line, no bytes. -/
@[simp] theorem terminated_nil : terminated []=[] := rfl

/-- The first line stands in front of the others. -/
theorem terminated_cons (line : Bytes) (lines : List Bytes) :
    terminated (line::lines)=line++(ascii "\r\n"++terminated lines) := by
  unfold terminated
  rw [List.flatMap_cons,List.append_assoc]

/-- A block, split at one of its lines. -/
theorem terminated_split (before after : List Bytes) (line : Bytes) :
    terminated (before++line::after)=
      terminated before++(line++(ascii "\r\n"++terminated after)) := by
  rw [←terminated_cons]
  exact List.flatMap_append

/-- Length of a block, split at one of its lines. -/
theorem terminated_length (before after : List Bytes) (line : Bytes) :
    (terminated (before++line::after)).length=
      (terminated before).length+line.length+2+(terminated after).length := by
  rw [terminated_split]
  simp only [List.length_append]
  change _+(_+(2+_))=_
  omega

/-- A block is empty only without lines. -/
theorem terminated_length_eq_zero {lines : List Bytes} :
    (terminated lines).length=0 ↔ lines=[] := by
  cases lines with
  | nil => simp
  | cons line lines =>
    have hlength := terminated_length [] lines line
    rw [List.nil_append] at hlength
    simp only [reduceCtorEq,iff_false]
    omega

/-- Lines behind their line ends. -/
def led (lines : List Bytes) : Bytes := lines.flatMap fun line => ascii "\r\n"++line

/-- Lines with line ends between them. -/
def joined : List Bytes → Bytes
  | [] => []
  | line::lines => line++led lines

/-- What stands behind a line is nothing or starts with its line end. -/
theorem led_cases (lines : List Bytes) : led lines=[] ∨ ∃ rest,led lines=ascii "\r\n"++rest := by
  cases lines with
  | nil => exact Or.inl rfl
  | cons line lines =>
    refine Or.inr ⟨line++led lines,?_⟩
    unfold led
    rw [List.flatMap_cons,List.append_assoc]

/-- Line ends in front of the lines and behind them. -/
theorem led_lineEnd (lines : List Bytes) :
    led lines++ascii "\r\n"=ascii "\r\n"++terminated lines := by
  induction lines with
  | nil => rfl
  | cons line lines ih =>
    have hcons : led (line::lines)=ascii "\r\n"++(line++led lines) := by
      unfold led
      rw [List.flatMap_cons,List.append_assoc]
    rw [hcons,terminated_cons,←ih]
    simp only [List.append_assoc]

/-- Lines that are joined, split at one of them. -/
theorem joined_split (before after : List Bytes) (line : Bytes) :
    joined (before++line::after)=terminated before++(line++led after) := by
  cases before with
  | nil => rfl
  | cons first before =>
    have hled : led (before++line::after)=led before++(ascii "\r\n"++(line++led after)) := by
      unfold led
      rw [List.flatMap_append,List.flatMap_cons,List.append_assoc]
    change first++led (before++line::after)=_
    rw [hled,terminated_cons,←List.append_assoc (led before),led_lineEnd]
    simp only [List.append_assoc]

/-- A block is its joined lines and a line end. -/
theorem joined_lineEnd {lines : List Bytes} (h : lines≠[]) :
    joined lines++ascii "\r\n"=terminated lines := by
  obtain ⟨line,lines,rfl⟩ := List.exists_cons_of_ne_nil h
  rw [terminated_cons,←led_lineEnd,←List.append_assoc]
  rfl

/-- A block with what follows it is its joined lines in front of a blank line. -/
theorem joined_blank {lines : List Bytes} (h : lines≠[]) (rest : Bytes) :
    terminated lines++(ascii "\r\n"++rest)=joined lines++(ascii "\r\n\r\n"++rest) := by
  rw [←joined_lineEnd h]
  simp only [List.append_assoc]
  rfl

section blank

variable {line next rest : Bytes}

/-- A line that is no blank line and is followed by none is passed over. -/
theorem find?_passLine (hline : (13 : UInt8) ∉ line) (hnext : next.head?≠some 13) :
    find? (line++(ascii "\r\n"++next)) (ascii "\r\n\r\n") 0=
      (find? next (ascii "\r\n\r\n") 0).map (line.length+2+·) := by
  have hsplit : line++(ascii "\r\n"++next)=(line++ascii "\r\n")++next := by
    rw [List.append_assoc]
  have hlength : (line++ascii "\r\n").length=line.length+2 := List.length_append
  have hlate : ∀ q<line.length+2,¬Occurs (ascii "\r\n\r\n") (line++(ascii "\r\n"++next)) q := by
    intro q hq hocc
    obtain ⟨_,after,hafter⟩ := hocc
    have hchar : ∀ i,(line++(ascii "\r\n"++next))[q+i]?=(ascii "\r\n\r\n"++after)[i]? := by
      intro i
      rw [hafter,List.getElem?_drop]
    have hfirst : (line++(ascii "\r\n"++next))[q+0]?=some 13 := hchar 0
    have hthird : (line++(ascii "\r\n"++next))[q+2]?=some 13 := hchar 2
    rcases Nat.lt_or_ge q line.length with hinside|hbehind
    · rw [Nat.add_zero,List.getElem?_append_left hinside] at hfirst
      exact hline (List.mem_of_getElem? hfirst)
    · rcases Nat.eq_or_lt_of_le hbehind with rfl|hfeed
      · rw [List.getElem?_append_right (by omega),Nat.add_sub_cancel_left] at hthird
        exact hnext (List.head?_eq_getElem?.trans hthird)
      · have hq' : q=line.length+1 := by omega
        rw [hq',Nat.add_zero,List.getElem?_append_right (by omega),Nat.add_sub_cancel_left] at hfirst
        exact absurd (Option.some.inj hfirst : (10 : UInt8)=13) (by decide)
  have hshift := find?_append_right (line++ascii "\r\n") next (ascii "\r\n\r\n") 0
  rw [←hsplit,hlength,Nat.add_zero] at hshift
  rw [find?_late hlate,hshift]

/-- Lines begin with the first byte of the first of them. -/
theorem head?_joined {lines : List Bytes} (h : ∀ line ∈ lines,HeaderLine line) (hlines : lines≠[])
    (rest : Bytes) : (joined lines++rest).head?≠some 13 := by
  obtain ⟨first,others,rfl⟩ := List.exists_cons_of_ne_nil hlines
  have hfirst := h first List.mem_cons_self
  change ((first++led others)++rest).head?≠some 13
  rw [List.append_assoc,List.head?_append_of_ne_nil _ hfirst.filled]
  exact fun heq => hfirst.noReturn (List.mem_of_mem_head? heq)

/-- The first blank line behind a block ends its last line. -/
theorem find?_blank {lines : List Bytes} (h : ∀ line ∈ lines,HeaderLine line) (hlines : lines≠[])
    (rest : Bytes) : find? (joined lines++(ascii "\r\n\r\n"++rest)) (ascii "\r\n\r\n") 0=
      some (joined lines).length := by
  induction lines with
  | nil => exact absurd rfl hlines
  | cons first others ih =>
    have hfirst := (h first List.mem_cons_self).noReturn
    by_cases hnone : others=[]
    · subst hnone
      have halone : joined [first]=first := List.append_nil first
      rw [halone]
      exact find?_behind_head hfirst
    · have hrest : ∀ line ∈ others,HeaderLine line := fun line hl => h line (List.mem_cons_of_mem _ hl)
      have hcons : joined (first::others)=first++(ascii "\r\n"++joined others) := by
        obtain ⟨second,others,rfl⟩ := List.exists_cons_of_ne_nil hnone
        have hsplit := joined_split [first] others second
        rw [terminated_cons,terminated_nil,List.append_nil] at hsplit
        rw [List.append_assoc] at hsplit
        exact hsplit
      rw [hcons,List.append_assoc,List.append_assoc,
        find?_passLine hfirst (head?_joined hrest hnone _),ih hrest hnone]
      simp only [Option.map_some,List.length_append]
      change some (first.length+2+_)=some (first.length+(2+_))
      rw [Nat.add_assoc]

end blank

section shown

variable {needle : Bytes}

/-- Lines that do not show a text are passed over by a search for it. -/
theorem find?_passLines {before : List Bytes} (hreturn : (13 : UInt8) ∉ needle)
    (hfeed : (10 : UInt8) ∉ needle) (hn : needle≠[]) (hfree : ∀ l ∈ before,¬needle<:+:l) (s : Bytes) :
    find? (terminated before++s) needle 0=
      (find? s needle 0).map ((terminated before).length+·) := by
  induction before with
  | nil => simp
  | cons first before ih =>
    have hline : ¬needle<:+:first++[13] := by
      rw [isInfix_around hreturn hn]
      rintro (h|h)
      · exact hfree first List.mem_cons_self h
      · exact hn (List.infix_nil.mp h)
    have hsplit : terminated (first::before)++s=(first++[13])++10::(terminated before++s) := by
      rw [terminated_cons]
      simp only [List.append_assoc]
      rfl
    have hlength : (terminated (first::before)).length=
        (first++[13]).length+1+(terminated before).length := by
      rw [terminated_cons]
      simp only [List.length_append]
      change first.length+(2+_)=first.length+1+1+_
      omega
    rw [hsplit,find?_around hfeed hn hline,
      ih fun l hl => hfree l (List.mem_cons_of_mem _ hl),hlength,Option.map_map]
    congr 1
    funext p
    exact (Nat.add_assoc _ _ p).symm

/-- A block that shows a text in one of its lines has a first such line. -/
theorem exists_firstShown {lines : List Bytes} {line : Bytes} (hmem : line ∈ lines)
    (hshows : needle<:+:line) : ∃ before first after,lines=before++first::after ∧ needle<:+:first ∧
      ∀ l ∈ before,¬needle<:+:l := by
  induction lines with
  | nil => cases hmem
  | cons head lines ih =>
    by_cases hhead : needle<:+:head
    · exact ⟨[],head,lines,rfl,hhead,fun _ h => absurd h List.not_mem_nil⟩
    · have hbehind : line ∈ lines := by
        rcases List.mem_cons.mp hmem with rfl|hbehind
        · exact absurd hshows hhead
        · exact hbehind
      obtain ⟨before,first,after,rfl,hfirst,hfree⟩ := ih hbehind
      refine ⟨head::before,first,after,rfl,hfirst,fun l hl => ?_⟩
      rcases List.mem_cons.mp hl with rfl|hl
      · exact hhead
      · exact hfree l hl

end shown

end Photogram.HeaderLines
