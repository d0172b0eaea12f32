import Photogram.AuthReplies

/-!
# The query scanner cuts inside its string

A scan whose substr calls are seen by an observer, next to the scanner itself.
Both answer the same, and the observer sees positions inside the string only:
the start of a key and the last equality sign lie inside it at every character
of the loop and behind it. A scan that returns has stored the pair behind the
loop, so what the client connection reads through begin() is there.
-/

namespace Photogram.QuerySafety

open CxxString EffectLog QueryString AuthRequest AuthHttpParser AuthConnection AuthReplies

/-- A substr call whose position is seen. -/
def seenSubstr (s : Bytes) (pos count : ℕ) : Call Unit ℕ Bytes := do
  record pos
  compute (substr s pos count)

/-- Store a pair, with its substr calls seen. -/
def seenStorePair (s : Bytes) (cursor : QueryCursor) : Call Unit ℕ PropertyMap := do
  let value ← seenSubstr s (cursor.separator+1) (subSize cursor.p (cursor.separator+1))
  let key ← seenSubstr s cursor.properStart (subSize cursor.separator cursor.properStart)
  return cursor.result.insert key value

/-- The scanning loop, with its substr calls seen. -/
def seenQueryLoop (s : Bytes) : Bytes → QueryCursor → Call Unit ℕ QueryCursor
  | [],cursor => pure cursor
  | currChar::rest,cursor =>
    if currChar=32 then pure cursor
    else if currChar=63 then
      seenQueryLoop s rest {cursor with p := cursor.p+1,properStart := cursor.p+1}
    else if currChar=61 then
      seenQueryLoop s rest {cursor with p := cursor.p+1,separator := cursor.p}
    else if currChar=38 then
      if cursor.properStart=0 ∨ cursor.separator=0 then
        compute (.error (.thrown (.runtimeError "bad http")))
      else do
        let result ← seenStorePair s cursor
        seenQueryLoop s rest ⟨cursor.p+1,cursor.p+1,cursor.separator,result⟩
    else seenQueryLoop s rest {cursor with p := cursor.p+1}

/-- Parse the query of a request line, with the substr calls seen. -/
def seenURLParser (s : Bytes) (result : PropertyMap) (start : ℕ) : Call Unit ℕ PropertyMap :=
  if s=[] then pure result
  else do
    let cursor ← seenQueryLoop s (s.drop start) ⟨start,0,0,result⟩
    seenStorePair s cursor

section answers

variable {s : Bytes}

/-- Seeing a substr call does not change its answer. -/
theorem seenSubstr_outcome (pos count : ℕ) (world : Unit) :
    (seenSubstr s pos count world).outcome=substr s pos count := rfl

/-- Nor that of storing a pair. -/
theorem seenStorePair_outcome (cursor : QueryCursor) (world : Unit) :
    (seenStorePair s cursor world).outcome=storePair s cursor := by
  unfold seenStorePair storePair
  rw [bind_outcome,seenSubstr_outcome]
  refine bind_congr fun value => ?_
  rw [bind_outcome,seenSubstr_outcome]
  exact bind_congr fun key => rfl

/-- Nor that of the loop. -/
theorem seenQueryLoop_outcome (rest : Bytes) (cursor : QueryCursor) (world : Unit) :
    (seenQueryLoop s rest cursor world).outcome=queryLoop s rest cursor := by
  induction rest generalizing cursor world with
  | nil => rfl
  | cons c rest ih =>
    unfold seenQueryLoop queryLoop
    split
    · rfl
    · split
      · exact ih _ _
      · split
        · exact ih _ _
        · split
          · split
            · rfl
            · rw [bind_outcome,seenStorePair_outcome]
              exact bind_congr fun result => ih _ _
          · exact ih _ _

/-- Nor that of the whole scan. -/
theorem seenURLParser_outcome (result : PropertyMap) (start : ℕ) (world : Unit) :
    (seenURLParser s result start world).outcome=URLParser s result start := by
  unfold seenURLParser URLParser scanQuery
  split
  · rfl
  · rw [bind_outcome,seenQueryLoop_outcome]
    exact bind_congr fun cursor => seenStorePair_outcome cursor _

end answers

section positions

variable {s : Bytes}

/-- Positions a string can be cut at. -/
def CutsInside (s : Bytes) (pos : ℕ) : Prop := pos ≤ s.length

/-- A substr call shows its own position. -/
theorem emits_seenSubstr {pos : ℕ} (h : pos ≤ s.length) (count : ℕ) :
    Emits (seenSubstr s pos count) (CutsInside s) :=
  emits_bind (emits_record h) fun _ => emits_compute _ _

/-- A pair is cut where its cursor points to. -/
theorem emits_seenStorePair {cursor : QueryCursor} (h : cursor.Inside s) :
    Emits (seenStorePair s cursor) (CutsInside s) :=
  emits_bind (emits_seenSubstr h.2 _) fun _ =>
    emits_bind (emits_seenSubstr h.1 _) fun _ => emits_pure _ _

/-- From a cursor inside the string the loop cuts inside it and leaves a
cursor inside it. -/
theorem triple_seenQueryLoop {rest : Bytes} {cursor : QueryCursor} (hrest : rest=s.drop cursor.p)
    (hin : cursor.Inside s) :
    Triple (fun _ => True) (seenQueryLoop s rest cursor) (fun last _ => last.Inside s)
      (CutsInside s) := by
  induction rest generalizing cursor with
  | nil => exact (triple_pure cursor).mono (fun _ h => h) (fun _ _ h => h.1 ▸ hin) fun _ h => h
  | cons c rest ih =>
    have hlt : cursor.p<s.length := by
      by_contra hge
      rw [List.drop_eq_nil_of_le (by omega)] at hrest
      cases hrest
    have hnext : rest=s.drop (cursor.p+1) := by
      rw [←List.tail_drop,←hrest,List.tail_cons]
    unfold seenQueryLoop
    split
    · exact (triple_pure cursor).mono (fun _ h => h) (fun _ _ h => h.1 ▸ hin) fun _ h => h
    split
    · exact @ih {cursor with p := cursor.p+1,properStart := cursor.p+1} hnext ⟨hlt,hin.2⟩
    split
    · exact @ih {cursor with p := cursor.p+1,separator := cursor.p} hnext ⟨hin.1,hlt⟩
    split
    · split
      · exact (triple_compute _).mono (fun _ h => h) (fun _ _ h => nomatch h.1) fun _ h => h
      · refine triple_bind (emits_seenStorePair hin) fun result => ?_
        exact @ih ⟨cursor.p+1,cursor.p+1,cursor.separator,result⟩ hnext ⟨hlt,hin.2⟩
    · exact @ih {cursor with p := cursor.p+1} hnext hin

/-- A scan of a string cuts inside it. -/
theorem emits_seenURLParser (hs : s≠[]) (result : PropertyMap) (start : ℕ) :
    Emits (seenURLParser s result start) (CutsInside s) := by
  unfold seenURLParser
  rw [if_neg hs]
  refine triple_bind (triple_seenQueryLoop rfl ⟨Nat.zero_le _,List.length_pos_iff.mpr hs⟩)
    fun cursor => ?_
  intro world hin
  exact emits_seenStorePair hin world trivial

end positions

/-- A scan of a string raises "bad http" or returns at least one pair, and
none of its substr calls gets a position beyond the end. So the first pair the
client connection reads for a photo or a status is there. -/
theorem URLParser_safe :
    (∀ (s : Bytes) (result : PropertyMap) (start : ℕ),s≠[] →
      (URLParser s result start=.error (.thrown (.runtimeError "bad http")) ∨
        ∃ properties,URLParser s result start=.ok properties ∧ properties.toList≠[]) ∧
      (seenURLParser s result start ()).outcome=URLParser s result start ∧
      ∀ pos ∈ (seenURLParser s result start ()).events,pos ≤ s.length) ∧
    ∀ (setting : ParserSetting) (request : CxxText) (info : GetTInfo),
      parse setting request.bytes=.ok (.success,.get info) →
      info.msg=.getPhotoById ∨ info.msg=.getStatus →
      ∃ first,mapBegin info.properties=.ok first := by
  constructor
  · intro s result start hs
    refine ⟨?_,seenURLParser_outcome result start (),(emits_seenURLParser hs result start).events ()⟩
    cases hscan : URLParser s result start with
    | error failure =>
      have hraises := raisesOnly_scanQuery s result start failure hscan
      rw [hraises]
      exact Or.inl rfl
    | ok properties => exact Or.inr ⟨properties,rfl,scanQuery_toList_ne hs hscan⟩
  · intro setting request info hparse hmsg
    obtain ⟨size,hcarries⟩ := parse_carries request.size_le hparse
    have hrenewal : info.msg≠.getNewToken := by
      rcases hmsg with hmsg|hmsg <;> rw [hmsg] <;> decide
    obtain ⟨first,hfirst⟩ := firstProperty_ok hcarries hrenewal
    obtain ⟨entry,hentry,_⟩ := bind_eq_ok hfirst
    exact ⟨entry,hentry⟩

/-- A request for the status of a user. -/
def statusRequest : CxxText :=
  ⟨ascii "GET /getStatus?id=7 HTTP/1.1\r\nOrigin: o\r\nAuthorization: Bearer t\r\n\r\n",by decide⟩

/-- Both halves at the request: its query is scanned safely, and its first
pair is there. -/
theorem URLParser_safe_status :
    (∀ pos ∈ (seenURLParser statusRequest.bytes ∅ 4 ()).events,pos ≤ statusRequest.bytes.length) ∧
    ∃ info first,parse ⟨fun _ => none,.lenient⟩ statusRequest.bytes=.ok (.success,.get info) ∧
      mapBegin info.properties=.ok first := by
  have hparse : ∃ info,parse ⟨fun _ => none,.lenient⟩ statusRequest.bytes=.ok (.success,.get info) ∧
      info.msg=.getStatus := ⟨_,rfl,rfl⟩
  obtain ⟨info,hinfo,hmsg⟩ := hparse
  obtain ⟨first,hfirst⟩ := URLParser_safe.2 _ statusRequest info hinfo (Or.inr hmsg)
  exact ⟨(URLParser_safe.1 statusRequest.bytes ∅ 4 (by decide)).2.2,info,first,hinfo,hfirst⟩

end Photogram.QuerySafety
