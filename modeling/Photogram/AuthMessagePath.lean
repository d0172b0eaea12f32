import Mathlib.Data.List.Nodup
import Photogram.AuthParserSafety

/-!
# The path a message is looked up by

Both message lookups search the first slash from the front of the request, and
the blank or question mark behind it from the slash on. The length of the text
they cut out is the difference of the two, which is one byte too many when the
request begins with the slash, too few when the slash stands behind its second
place, and a wrapped one when it stands far behind. The text is the path only
behind a first byte, as the callers leave it. The test for a missing slash
comes behind the substring that has raised by then.
-/

namespace Photogram.AuthMessagePath

open CxxString AuthHttpParser AuthParserSafety

/-- The text both lookups cut out in front of their tables. -/
def msgTStr (req : Bytes) : Except Failure (Option Bytes) := do
  let shiftStart := find req (ascii "/") 0
  let path ← substr req shiftStart npos
  let shiftEnd := findFirstOf path (ascii " ?")
  if shiftEnd=npos ∨ shiftStart=npos then return none
  else
    let msgTStr ← substr req (addSize shiftStart 1) (subSize shiftEnd shiftStart)
    return some msgTStr

/-- A text stands strictly between the first slash of a request, behind the
given bytes, and the first blank or question mark behind it. -/
structure PathOf (req before path : Bytes) : Prop where
  /-- The slash and the end of the path. -/
  split : ∃ c rest,c ∈ ascii " ?" ∧ req=before++47::(path++c::rest)
  /-- The slash is the first one. -/
  first : (47 : UInt8) ∉ before
  /-- The end is the first blank or question mark. -/
  whole : ∀ c ∈ path,c ∉ ascii " ?"

/-- The path is what both tables are asked for, and without a slash there is
no message. -/
structure LooksUpPath (req : Bytes) : Prop where
  /-- The path, wherever it stands. -/
  found : ∀ before path,PathOf req before path → msgTStr req=.ok (some path) ∧
    getPostMsg req=.ok (postMsgNames.lookup path) ∧ getGetMsg req=.ok (getMsgNames.lookup path)
  /-- No slash. -/
  absent : (47 : UInt8) ∉ req → getPostMsg req=.ok none ∧ getGetMsg req=.ok none

/-- A table of messages: no message occurs twice, and no text holds a blank or
a question mark. -/
structure MessageTable {μ : Type} (names : List (Bytes×μ)) : Prop where
  /-- The messages. -/
  distinct : (names.map Prod.snd).Nodup
  /-- The texts. -/
  plain : ∀ name ∈ names,∀ c ∈ name.1,c ∉ ascii " ?"

/-- Behind as many bytes no part of the path is a text of the table. -/
def Harmless {μ : Type} (names : List (Bytes×μ)) (place : ℕ) (path : Bytes) : Prop :=
  names.lookup path=none ∧
    (2 ≤ place → place ≤ path.length+1 → names.lookup (path.take (path.length+1-place))=none)

section lookups

variable {μ : Type} {names : List (Bytes×μ)} {req before path : Bytes}

/-- A message is looked up by the text that is cut out. -/
theorem getMsg_msgTStr (names : List (Bytes×μ)) (req : Bytes) :
    getMsg names req=(msgTStr req>>=fun key => pure (key.bind fun text => names.lookup text)) := by
  unfold getMsg msgTStr
  dsimp only
  cases substr req (find req (ascii "/") 0) npos with
  | error failure => rfl
  | ok path =>
    rw [ok_bind,ok_bind]
    split
    · rfl
    · cases substr req (addSize (find req (ascii "/") 0) 1)
          (subSize (findFirstOf path (ascii " ?")) (find req (ascii "/") 0)) with
      | error failure => rfl
      | ok key => rfl

/-- So the message of a text that is cut out is that of the table. -/
theorem getMsg_of_msgTStr {key : Bytes} (h : msgTStr req=.ok (some key)) :
    getMsg names req=.ok (names.lookup key) := by
  rw [getMsg_msgTStr,h]
  rfl

/-- What stands behind the slash, and the length of all. -/
theorem PathOf.behind (h : PathOf req before path) : ∃ c rest,c ∈ ascii " ?" ∧
    req.drop (before.length+1)=path++c::rest ∧
    req.length=before.length+(path.length+1+rest.length+1) := by
  obtain ⟨c,rest,hc,rfl⟩ := h.split
  refine ⟨c,rest,hc,?_,?_⟩
  · rw [←List.drop_drop,List.drop_left]
    rfl
  · simp only [List.length_append,List.length_cons]
    omega

/-- What is cut out starts behind the slash; its length is the place of the end
behind the slash less that of the slash. -/
theorem msgTStr_pathOf (h : PathOf req before path) (hs : req.length ≤ maxSize) :
    msgTStr req=.ok (some ((req.drop (before.length+1)).take
      (subSize (path.length+1) before.length))) := by
  obtain ⟨_,_,_,_,hlength⟩ := h.behind
  obtain ⟨c,rest,hc,rfl⟩ := h.split
  have hm := maxSize_lt_npos
  have hnm := npos_lt_sizeModulus
  have hslash : find? (before++47::(path++c::rest)) (ascii "/") 0=some before.length :=
    find?_behind_head h.first
  have hend : findFirstOf (47::(path++c::rest)) (ascii " ?")=path.length+1 := by
    have hwhole : ∀ d ∈ 47::path,d ∉ ascii " ?" :=
      List.forall_mem_cons.mpr ⟨by decide,h.whole⟩
    exact findFirstOf_behind hwhole hc rest
  unfold msgTStr
  dsimp only
  rw [find_of_some hslash,substr_npos hs (by omega),ok_bind,List.drop_left,hend,
    if_neg (by omega),addSize_eq (by omega),substr_of_le _ (by omega),ok_bind]
  rfl

/-- The length is that of the path exactly when the slash is the second byte. -/
theorem subSize_eq_length_iff {length place : ℕ} (hlength : length < maxSize)
    (hplace : place < maxSize) : subSize (length+1) place=length ↔ place=1 := by
  have hm : 2*maxSize+2=sizeModulus := by decide
  by_cases hle : place ≤ length+1
  · rw [subSize_eq hle (by omega)]
    omega
  · rw [subSize_of_lt (by omega) (by omega)]
    omega

/-- With the slash in front, or farther behind than the path is long, the
length reaches beyond the path. -/
theorem length_lt_subSize {length place : ℕ} (hlength : length < maxSize) (hplace : place < maxSize)
    (hone : place≠1) (houtside : ¬(2 ≤ place ∧ place ≤ length+1)) :
    length<subSize (length+1) place := by
  have hm : 2*maxSize+2=sizeModulus := by decide
  by_cases hle : place ≤ length+1
  · rw [subSize_eq hle (by omega)]
    omega
  · rw [subSize_of_lt (by omega) (by omega)]
    omega

/-- A text that reaches beyond the path holds its end. -/
theorem end_mem_take {c : UInt8} {count : ℕ} (rest : Bytes) (h : path.length<count) :
    c ∈ (path++c::rest).take count := by
  have hlast : ((path++c::rest).take count)[path.length]?=some c := by
    rw [List.getElem?_take_of_lt h,List.getElem?_append_right (le_refl _),Nat.sub_self]
    rfl
  exact List.mem_of_getElem? hlast

/-- The path is cut out exactly when the slash is the second byte. -/
theorem msgTStr_eq_iff (h : PathOf req before path) (hs : req.length ≤ maxSize) :
    msgTStr req=.ok (some path) ↔ before.length=1 := by
  obtain ⟨c,rest,_,hbehind,hlength⟩ := h.behind
  rw [msgTStr_pathOf h hs,hbehind,←@subSize_eq_length_iff path.length _ (by omega) (by omega)]
  constructor
  · intro heq
    have hcount := congrArg List.length (Option.some.inj (Except.ok.inj heq))
    rw [List.length_take,List.length_append,List.length_cons] at hcount
    omega
  · intro heq
    rw [heq,List.take_left]

/-- A text that is found is one of the table. -/
theorem mem_of_lookup {key : Bytes} {msg : μ} (h : names.lookup key=some msg) :
    (key,msg) ∈ names := by
  obtain ⟨before,after,hnames,_⟩ := List.lookup_eq_some_iff.mp h
  rw [hnames]
  exact List.mem_append_right _ List.mem_cons_self

/-- Different texts have one answer only when none of them is in the table. -/
theorem lookup_eq_iff (htable : MessageTable names) {key other : Bytes} (hne : key≠other) :
    names.lookup key=names.lookup other ↔ names.lookup other=none ∧ names.lookup key=none := by
  constructor
  · intro heq
    cases hother : names.lookup other with
    | none => exact ⟨rfl,heq.trans hother⟩
    | some msg =>
      have hkey := mem_of_lookup (heq.trans hother)
      have hsame := List.inj_on_of_nodup_map htable.distinct hkey (mem_of_lookup hother) rfl
      exact absurd (congrArg Prod.fst hsame) hne
  · rintro ⟨hother,hkey⟩
    rw [hother,hkey]

/-- A text that holds a blank or a question mark is not in the table. -/
theorem lookup_marked (htable : MessageTable names) {key : Bytes} {c : UInt8} (hmem : c ∈ key)
    (hc : c ∈ ascii " ?") : names.lookup key=none := by
  cases hkey : names.lookup key with
  | none => rfl
  | some msg => exact absurd hc (htable.plain _ (mem_of_lookup hkey) c hmem)

/-- The answer is that of the path when the slash is the second byte, and
otherwise only when neither the path nor what is cut out of it is in the table. -/
theorem getMsg_eq_iff (htable : MessageTable names) (h : PathOf req before path)
    (hs : req.length ≤ maxSize) :
    getMsg names req=.ok (names.lookup path) ↔
      before.length=1 ∨ Harmless names before.length path := by
  by_cases hone : before.length=1
  · exact iff_of_true (getMsg_of_msgTStr ((msgTStr_eq_iff h hs).mpr hone)) (Or.inl hone)
  have hcut := msgTStr_pathOf h hs
  have hother := mt (msgTStr_eq_iff h hs).mp hone
  obtain ⟨c,rest,hc,hbehind,hlength⟩ := h.behind
  have hm : 2*maxSize+2=sizeModulus := by decide
  rw [hbehind] at hcut
  have hne : (path++c::rest).take (subSize (path.length+1) before.length)≠path := fun heq =>
    hother (by rw [hcut,heq])
  rw [getMsg_of_msgTStr hcut,Except.ok.injEq,lookup_eq_iff htable hne,or_iff_right hone]
  refine and_congr_right fun _ => ?_
  by_cases hinside : 2 ≤ before.length ∧ before.length ≤ path.length+1
  · -- the length is too short, so what is cut out begins the path
    have hcount : subSize (path.length+1) before.length=path.length+1-before.length :=
      subSize_eq hinside.2 (by omega)
    rw [hcount,List.take_append_of_le_length (by omega)]
    exact ⟨fun hnone _ _ => hnone,fun hnone => hnone hinside.1 hinside.2⟩
  · -- the length reaches beyond the end of the path
    have hcount := length_lt_subSize (by omega) (by omega) hone hinside
    have hmarked := end_mem_take (c:=c) rest hcount
    exact iff_of_true (lookup_marked htable hmarked hc) fun hfirst hlast =>
      absurd ⟨hfirst,hlast⟩ hinside

/-- The table of POST paths is one. -/
theorem messageTable_post : MessageTable postMsgNames where
  distinct := by decide
  plain := by decide +kernel

/-- So is that of GET paths. -/
theorem messageTable_get : MessageTable getMsgNames where
  distinct := by decide
  plain := by decide +kernel

end lookups

/-- The lookups ask for the path exactly in requests with a slash that is the
second byte whenever a path ends behind it. Elsewhere the answer is still that
of the path when no text of the table is involved. -/
theorem looksUpPath_iff (request : CxxText) :
    (LooksUpPath request.bytes ↔ 47 ∈ request.bytes ∧
      ∀ before path,PathOf request.bytes before path → before.length=1) ∧
    ∀ before path,PathOf request.bytes before path →
      (getPostMsg request.bytes=.ok (postMsgNames.lookup path) ↔
        before.length=1 ∨ Harmless postMsgNames before.length path) ∧
      (getGetMsg request.bytes=.ok (getMsgNames.lookup path) ↔
        before.length=1 ∨ Harmless getMsgNames before.length path) := by
  have hs := request.size_le
  refine ⟨?_,fun before path h =>
    ⟨getMsg_eq_iff messageTable_post h hs,getMsg_eq_iff messageTable_get h hs⟩⟩
  constructor
  · intro hlooks
    refine ⟨?_,fun before path h => (msgTStr_eq_iff h hs).mp (hlooks.found before path h).1⟩
    by_contra hmissing
    exact hmissing ((returns_getMsg_iff postMsgNames hs).mp ⟨none,(hlooks.absent hmissing).1⟩)
  · rintro ⟨hslash,hsecond⟩
    refine ⟨fun before path h => ?_,fun hmissing => absurd hslash hmissing⟩
    have hkey := (msgTStr_eq_iff h hs).mpr (hsecond before path h)
    exact ⟨hkey,getMsg_of_msgTStr hkey,getMsg_of_msgTStr hkey⟩

/-- With the slash at the third byte the path of the login is not found, and a
longer one is taken for it. -/
theorem message_misread :
    PathOf (ascii " x/login HTTP/1.1") (ascii " x") (ascii "login") ∧
      getPostMsg (ascii " x/login HTTP/1.1")=.ok none ∧
      postMsgNames.lookup (ascii "login")=some .login ∧
      PathOf (ascii " x/loginx HTTP/1.1") (ascii " x") (ascii "loginx") ∧
      getPostMsg (ascii " x/loginx HTTP/1.1")=.ok (some .login) ∧
      postMsgNames.lookup (ascii "loginx")=none ∧
      ¬LooksUpPath (ascii " x/login HTTP/1.1") := by
  have hpath : PathOf (ascii " x/login HTTP/1.1") (ascii " x") (ascii "login") :=
    ⟨⟨32,ascii "HTTP/1.1",by decide,by decide⟩,by decide,by decide +kernel⟩
  refine ⟨hpath,by decide +kernel,by decide,
    ⟨⟨32,ascii "HTTP/1.1",by decide,by decide⟩,by decide,by decide +kernel⟩,
    by decide +kernel,by decide,?_⟩
  intro hlooks
  have hlength : (ascii " x/login HTTP/1.1").length ≤ maxSize := by decide +kernel
  exact absurd ((msgTStr_eq_iff hpath hlength).mp (hlooks.found _ _ hpath).1) (by decide)

end Photogram.AuthMessagePath
