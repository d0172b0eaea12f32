import Photogram.QueryString

/-!
# Header lookups of the authentication server

The lookups of Request.cpp search the whole request for a literal and cut
from it to the next line end, or to the end of the request when there is
none. None of them knows where the header block ends. On requests of legal
size their position arithmetic never wraps, so a lookup fails only when it
finds nothing.
-/

namespace Photogram.AuthRequest

open CxxString QueryString

/-- A line end. -/
def crlf : Bytes := ascii "\r\n"

/-- The blank line that ends a header block. -/
def blankLine : Bytes := ascii "\r\n\r\n"

/-- Text of the runtime errors of the unchecked lookups. -/
def notFoundText : String := "Не удалось найти"

/-- Query parser of the authentication server. -/
def URLParser (httpString : Bytes) (result : PropertyMap) (start : ℕ) :
    Except Failure PropertyMap := scanQuery httpString result start

/-- Value behind the first occurrence of a header literal, with the last
character of the literal kept in front; nothing when it does not occur. -/
def getValueSomeHeader (request header : Bytes) (startSerch : ℕ) : Except Failure (Option Bytes) :=
  let positonHeader := find request header startSerch
  if positonHeader=npos then .ok none
  else do
    let positonEndHeader := find request crlf positonHeader
    let startPositon := subSize (addSize positonHeader header.length) 1
    let value ← substr request startPositon (subSize positonEndHeader startPositon)
    return some value

/-- Value behind the first occurrence of a literal; raises when it does not occur. -/
def getValueWithSpace (request header : Bytes) (startSerch : ℕ) : Except Failure Bytes :=
  let positonHeader := find request header startSerch
  if positonHeader=npos then .error (.thrown (.runtimeError notFoundText))
  else
    let positonEndHeader := find request crlf positonHeader
    let startPositon := addSize positonHeader header.length
    substr request startPositon (subSize positonEndHeader startPositon)

/-- The same value, cut one character before the end of the literal and
then one character further. -/
def getType (request header : Bytes) (startSerch : ℕ) : Except Failure Bytes :=
  let positonHeader := find request header startSerch
  if positonHeader=npos then .error (.thrown (.runtimeError notFoundText))
  else
    let positonEndHeader := find request crlf positonHeader
    let startPositon := subSize (addSize positonHeader header.length) 1
    substr request (addSize startPositon 1) (subSize (subSize positonEndHeader startPositon) 1)

/-- Quoted value of a parameter from a position on; its closing quote has to
be followed by a line end. Empty when either is missing. -/
def getPropertisName (request : Bytes) (startPostion : ℕ) (serchinTypeName : Bytes) :
    Except Failure Bytes :=
  let startNamePos := find request (serchinTypeName++ascii "=\"") startPostion
  if startNamePos=npos then .ok []
  else
    let startNamePos := addSize startNamePos (serchinTypeName.length+2)
    let endNamePos := find request (ascii "\"\r\n") startNamePos
    if endNamePos=npos then .ok []
    else
      let endNamePos := subSize endNamePos 1
      substr request startNamePos (addSize (subSize endNamePos startNamePos) 1)

section lookups

variable {request header : Bytes}

/-- The part from a start to the next line end after a position, or to the end. -/
def lineFrom (request : Bytes) (pos start : ℕ) : Bytes := cutAt request crlf pos start

/-- Nothing starts a line end inside a literal that has none. -/
theorem le_find?_crlf {p stop : ℕ} (hocc : Occurs header request p) (hcr : (13 : UInt8) ∉ header)
    (h : find? request crlf p=some stop) : p+header.length ≤ stop := by
  obtain ⟨hle,ho,_⟩ := find?_eq_some_iff.mp h
  by_contra hlt
  obtain ⟨after,ha⟩ := hocc.2
  have hhead : request[stop]?=some 13 := ho.head
  have hg : (header++after)[stop-p]?=some 13 := by
    rw [ha,List.getElem?_drop,Nat.add_sub_cancel' hle]
    exact hhead
  rw [List.getElem?_append_left (by omega)] at hg
  exact hcr (List.mem_of_getElem? hg)

/-- A text without carriage returns is one line. -/
theorem not_crlf_isInfix {line : Bytes} (h : (13 : UInt8) ∉ line) : ¬crlf<:+:line := fun hp =>
  h (hp.subset (by decide))

/-- A literal without carriage returns ends no line of a text behind it. -/
theorem crlf_isInfix_append {text : Bytes} (hcr : (13 : UInt8) ∉ header) (h : crlf<:+:header++text) :
    crlf<:+:text := by
  obtain ⟨p,hocc⟩ := exists_occurs_of_isInfix h
  have hbehind : header.length ≤ p := by
    by_contra hlt
    have hhead : (header++text)[p]?=some 13 := hocc.head
    rw [List.getElem?_append_left (by omega)] at hhead
    exact hcr (List.mem_of_getElem? hhead)
  obtain ⟨d,rfl⟩ := Nat.exists_eq_add_of_le hbehind
  exact (occurs_append_right.mp hocc).isInfix

/-- A value of one line ends at the first line end behind its start. -/
theorem find?_lineEnd {value : Bytes} (h : ¬crlf<:+:value) (right : Bytes) :
    find? (value++(crlf++right)) crlf 0=some value.length := by
  refine find?_at fun q hq hocc => ?_
  by_cases hinside : q+2 ≤ value.length
  · exact h ((occurs_append_left hinside).mp hocc).isInfix
  · obtain ⟨_,after,hafter⟩ := hocc
    have hlast : (value++(crlf++right))[q+1]?=some 13 := by
      have hidx : q+1=value.length := by omega
      rw [hidx,List.getElem?_append_right (le_refl _),Nat.sub_self]
      rfl
    have hsecond : (crlf++after)[1]?=(value++(crlf++right))[q+1]? := by
      rw [hafter,List.getElem?_drop]
    have hfeed : (crlf++after)[1]?=some 10 := rfl
    rw [hlast,hfeed] at hsecond
    exact absurd hsecond (by decide)
/-- The first occurrence of a literal begins a text. -/
def FirstBegins (s literal text : Bytes) : Prop :=
  ∃ p,find? s literal 0=some p ∧ text<+:s.drop p

section firstBegins

variable {s literal text : Bytes}

/-- What follows does not matter. -/
theorem FirstBegins.append (h : FirstBegins s literal text) (after : Bytes) :
    FirstBegins (s++after) literal text := by
  obtain ⟨p,hfirst,hbegin⟩ := h
  have hinside := (find?_bounds hfirst).2
  refine ⟨p,find?_append hfirst,?_⟩
  rw [List.drop_append_of_le_length (by omega)]
  exact hbegin.trans (List.prefix_append _ _)

/-- A left part in front of the occurrence does not matter. -/
theorem FirstBegins.behind {before : Bytes} (h : FirstBegins (before++s) literal text)
    (hfree : ∀ p<before.length,¬Occurs literal (before++s) p) : FirstBegins s literal text := by
  obtain ⟨p,hfirst,hbegin⟩ := h
  obtain ⟨_,hocc,_⟩ := find?_eq_some_iff.mp hfirst
  have hbehind : before.length ≤ p := Nat.le_of_not_lt fun hlt => hfree p hlt hocc
  obtain ⟨d,rfl⟩ := Nat.exists_eq_add_of_le hbehind
  have hshift := find?_append_right before s literal 0
  have hfrom : find? (before++s) literal before.length=some (before.length+d) :=
    find?_from hfirst (Nat.zero_le _) hbehind
  rw [Nat.add_zero,hfrom] at hshift
  obtain ⟨q,hq,heq⟩ := Option.map_eq_some_iff.mp hshift.symm
  cases Nat.add_left_cancel heq
  rw [List.drop_length_add_append] at hbegin
  exact ⟨d,hq,hbegin⟩

/-- Nor does a left part without the literal, ended by a character the literal
lacks. -/
theorem FirstBegins.around {c : UInt8} {before : Bytes} (h : FirstBegins s literal text)
    (hc : c ∉ literal) (hn : literal≠[]) (hfree : ¬literal<:+:before) :
    FirstBegins (before++c::s) literal text := by
  obtain ⟨p,hfirst,hbegin⟩ := h
  refine ⟨before.length+1+p,by rw [find?_around hc hn hfree,hfirst]; rfl,?_⟩
  have hsplit : before++c::s=(before++[c])++s := by simp
  have hlength : (before++[c]).length=before.length+1 := by simp
  rw [hsplit,←hlength,List.drop_length_add_append]
  exact hbegin

/-- The line cut at a literal whose occurrence begins a whole line. -/
theorem lineFrom_begins {p k : ℕ} {line : Bytes} (hbegin : line++crlf<+:s.drop p) (hp : p ≤ s.length)
    (hline : ¬crlf<:+:line) (hk : k ≤ line.length) : lineFrom s p (p+k)=line.drop k := by
  obtain ⟨after,hafter⟩ := hbegin
  rw [List.append_assoc] at hafter
  have hsplit : s=s.take p++(line++(crlf++after)) := by
    rw [hafter,List.take_append_drop]
  have hlen : (s.take p).length=p := by
    rw [List.length_take]
    omega
  have hend : find? s crlf p=some (p+line.length) := by
    have hshift := find?_append_right (s.take p) (line++(crlf++after)) crlf 0
    have hfirst := find?_lineEnd hline after
    rw [hfirst,←hsplit,hlen] at hshift
    exact hshift
  have hdrop : s.drop (p+k)=line.drop k++(crlf++after) := by
    rw [←List.drop_drop,←hafter,List.drop_append_of_le_length hk]
  unfold lineFrom cutAt
  rw [hend]
  dsimp only
  rw [hdrop,Nat.add_sub_add_left,List.take_left' List.length_drop]

end firstBegins

/-- The optional lookup finds nothing exactly when the literal does not occur. -/
theorem getValueSomeHeader_none (h : find? request header 0=none) :
    getValueSomeHeader request header 0=.ok none := by
  unfold getValueSomeHeader
  rw [find_of_none h]
  exact if_pos rfl

/-- The optional lookup cuts from the last character of the literal. -/
theorem getValueSomeHeader_some {p : ℕ} (hs : request.length ≤ maxSize) (hn : header≠[])
    (hcr : (13 : UInt8) ∉ header) (h : find? request header 0=some p) :
    getValueSomeHeader request header 0=
      .ok (some (lineFrom request p (p+header.length-1))) := by
  have hb := (find?_bounds h).2
  have hm := maxSize_lt_npos
  have hnm := npos_lt_sizeModulus
  have hlen : 0<header.length := List.length_pos_iff.mpr hn
  have hocc := (find?_eq_some_iff.mp h).2.1
  unfold getValueSomeHeader
  dsimp only
  rw [find_of_some h,if_neg (by omega),addSize_eq (by omega),subSize_eq (by omega) (by omega),
    substr_of_le _ (by omega),take_subSize_find hs (by omega)]
  · rfl
  · intro stop hstop
    have hle := le_find?_crlf hocc hcr hstop
    omega

/-- The optional lookup always returns. -/
theorem returns_getValueSomeHeader (hs : request.length ≤ maxSize) (hn : header≠[])
    (hcr : (13 : UInt8) ∉ header) : Returns (getValueSomeHeader request header 0) := by
  cases h : find? request header 0 with
  | none => exact ⟨_,getValueSomeHeader_none h⟩
  | some p => exact ⟨_,getValueSomeHeader_some hs hn hcr h⟩

/-- The raising lookup raises exactly when the literal does not occur. -/
theorem getValueWithSpace_none (h : find? request header 0=none) :
    getValueWithSpace request header 0=.error (.thrown (.runtimeError notFoundText)) := by
  unfold getValueWithSpace
  rw [find_of_none h]
  exact if_pos rfl

/-- The raising lookup cuts behind the literal. -/
theorem getValueWithSpace_some {p : ℕ} (hs : request.length ≤ maxSize)
    (hcr : (13 : UInt8) ∉ header) (h : find? request header 0=some p) :
    getValueWithSpace request header 0=.ok (lineFrom request p (p+header.length)) := by
  have hb := (find?_bounds h).2
  have hm := maxSize_lt_npos
  have hnm := npos_lt_sizeModulus
  have hocc := (find?_eq_some_iff.mp h).2.1
  unfold getValueWithSpace
  dsimp only
  rw [find_of_some h,if_neg (by omega),addSize_eq (by omega),substr_of_le _ hb,
    take_subSize_find hs hb fun stop hstop => le_find?_crlf hocc hcr hstop]
  rfl

/-- The raising lookup returns exactly when the literal occurs. -/
theorem returns_getValueWithSpace_iff (hs : request.length ≤ maxSize) (hcr : (13 : UInt8) ∉ header) :
    Returns (getValueWithSpace request header 0) ↔ header<:+:request := by
  rw [←find?_zero_isSome_iff]
  cases h : find? request header 0 with
  | none => simp [getValueWithSpace_none h]
  | some p => simp [getValueWithSpace_some hs hcr h]

/-- The type lookup raises exactly when the literal does not occur. -/
theorem getType_none (h : find? request header 0=none) :
    getType request header 0=.error (.thrown (.runtimeError notFoundText)) := by
  unfold getType
  rw [find_of_none h]
  exact if_pos rfl

/-- The type lookup yields the same text as the raising lookup. -/
theorem getType_some {p : ℕ} (hs : request.length ≤ maxSize) (hn : header≠[])
    (hcr : (13 : UInt8) ∉ header) (h : find? request header 0=some p) :
    getType request header 0=.ok (lineFrom request p (p+header.length)) := by
  have hb := (find?_bounds h).2
  have hm := maxSize_lt_npos
  have hnm := npos_lt_sizeModulus
  have hlen : 0<header.length := List.length_pos_iff.mpr hn
  have hocc := (find?_eq_some_iff.mp h).2.1
  have hpred : p+header.length-1+1=p+header.length := by omega
  unfold getType
  dsimp only
  have hlast : subSize (addSize p header.length) 1=p+header.length-1 := by
    rw [addSize_eq (by omega),subSize_eq (by omega) (by omega)]
  rw [find_of_some h,if_neg (by omega),hlast,addSize_eq (by omega),hpred,substr_of_le _ hb]
  have hcount : subSize (subSize (find request crlf p) (p+header.length-1)) 1=
      subSize (find request crlf p) (p+header.length) := by
    have hfind : p+header.length ≤ find request crlf p ∧ find request crlf p<sizeModulus := by
      cases hf : find? request crlf p with
      | none =>
        rw [find_of_none hf]
        exact ⟨by omega,hnm⟩
      | some stop =>
        rw [find_of_some hf]
        have hle := (find?_bounds hf).2
        exact ⟨le_find?_crlf hocc hcr hf,by omega⟩
    rw [subSize_eq (by omega) hfind.2,subSize_eq (by omega) (by omega),
      subSize_eq hfind.1 hfind.2]
    omega
  rw [hcount,take_subSize_find hs hb fun stop hstop => le_find?_crlf hocc hcr hstop]
  rfl

/-- The parameter lookup always returns. -/
theorem returns_getPropertisName (hs : request.length ≤ maxSize) (startPostion : ℕ)
    (serchinTypeName : Bytes) :
    Returns (getPropertisName request startPostion serchinTypeName) := by
  have hm := maxSize_lt_npos
  have hnm := npos_lt_sizeModulus
  unfold getPropertisName
  dsimp only
  split
  · exact returns_ok _
  · next hfound =>
    cases h : find? request (serchinTypeName++ascii "=\"") startPostion with
    | none => exact absurd (find_of_none h) hfound
    | some p =>
      have hb := (find?_bounds h).2
      have hlen : (serchinTypeName++ascii "=\"").length=serchinTypeName.length+2 :=
        List.length_append
      rw [find_of_some h,addSize_eq (by omega)]
      split
      · exact returns_ok _
      · exact (returns_substr_iff _ _ _).mpr (by omega)

/-- The parameter lookup cuts its value out between the quotes. -/
theorem getPropertisName_some {serchinTypeName : Bytes} {startPostion p stop : ℕ}
    (hs : request.length ≤ maxSize)
    (hname : find? request (serchinTypeName++ascii "=\"") startPostion=some p)
    (hend : find? request (ascii "\"\r\n") (p+(serchinTypeName.length+2))=some stop) :
    getPropertisName request startPostion serchinTypeName=
      .ok ((request.drop (p+(serchinTypeName.length+2))).take
        (stop-(p+(serchinTypeName.length+2)))) := by
  have hm := maxSize_lt_npos
  have hnm := npos_lt_sizeModulus
  have hlen : (serchinTypeName++ascii "=\"").length=serchinTypeName.length+2 :=
    List.length_append
  have hb := (find?_bounds hname).2
  have he := find?_bounds hend
  have hone : subSize stop 1=stop-1 := subSize_eq (by omega) (by omega)
  have hlast : addSize (subSize (subSize stop 1) (p+(serchinTypeName.length+2))) 1=
      stop-(p+(serchinTypeName.length+2)) := by
    rw [hone]
    rcases Nat.eq_or_lt_of_le he.1 with heq|hlt
    · rw [heq]
      unfold addSize subSize
      unfold sizeModulus at *
      omega
    · have hbefore : subSize (stop-1) (p+(serchinTypeName.length+2))=
          stop-1-(p+(serchinTypeName.length+2)) := subSize_eq (by omega) (by omega)
      rw [hbefore,addSize_eq (by omega)]
      omega
  unfold getPropertisName
  dsimp only
  rw [find_of_some hname,if_neg (by omega),addSize_eq (by omega),find_of_some hend,
    if_neg (by omega),hlast,substr_of_le _ (by omega)]

end lookups

end Photogram.AuthRequest
