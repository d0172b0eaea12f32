import Photogram.AuthDispatch

/-!
# Requests cut by the network

A request may arrive in any number of chunks. Every proper prefix of a
framed request that already holds its method token is judged incomplete, so
the loop waits for the rest; a prefix too short for the method token is
refused, and its bytes are gone. Whether the request survives its cutting is
therefore decided by the first chunk alone.
-/

namespace Photogram.AuthReceive

open CxxString EffectLog JsonValue AuthRequest AuthHttpParser AuthConnection AuthDispatch

/-- The request ends at its first blank line. -/
def EndsAtBlankLine (request : Bytes) : Prop :=
  ∃ p,find? request blankLine 0=some p ∧ p+4=request.length

/-- The first Content-Length literal stands in front of the first blank line. -/
def LengthInHeader (request : Bytes) : Prop :=
  ∃ c p,find? request contentLengthHeader 0=some c ∧ find? request blankLine 0=some p ∧ c<p

/-- A GET or OPTIONS request that ends at its first blank line, or a POST
whose Content-Length stands in its header block. -/
def Framed (request : Bytes) : Prop :=
  ∃ type,getReqT request=some type ∧
    match type.type with
    | .get | .options => EndsAtBlankLine request
    | .post => LengthInHeader request
    | _ => False

/-- Bytes after which the method token of a request is recognized. -/
def leastStart (request : Bytes) : ℕ :=
  match getReqT request with
  | some type => if type.type=.options then 8 else 7
  | none => 0

section prefixes

variable {p t : Bytes}

/-- Bytes behind a recognized blank do not change the method token. -/
theorem getReqT_append {shift : ℕ} (hlen : 7 ≤ p.length)
    (hfind : find? p (ascii " ") 0=some shift) : getReqT (p++t)=getReqT p := by
  have hshift := (find?_bounds hfind).2
  have hle : ¬p.length<7 := by omega
  have hlong : ¬(p++t).length<7 := by rw [List.length_append]; omega
  unfold getReqT
  rw [if_neg hle,if_neg hlong]
  dsimp only
  rw [find_of_some hfind,find_of_some (find?_append hfind),
    List.take_append_of_le_length (by omega)]

/-- Length of each recognized method token. -/
theorem methodToken_length {req token : Bytes} {type : HttpReqT} (h : getReqT req=some type)
    (htoken : methodToken type.type=some token) : token.length=type.size := by
  obtain ⟨_,hfind,_,hmethod⟩ := getReqT_spec h
  have hb := (find?_bounds hfind).2
  rw [←hmethod token htoken,List.length_take]
  omega

/-- A prefix that holds the method token is recognized like the request. -/
theorem getReqT_cut {type : HttpReqT} (h : getReqT (p++t)=some type)
    (hlen : 7 ≤ p.length) (hsize : type.size+1 ≤ p.length) : getReqT p=some type := by
  obtain ⟨_,hfind,_,_⟩ := getReqT_spec h
  rw [←getReqT_append (t:=t) hlen (find?_of_append hfind hsize)]
  exact h

/-- A prefix shorter than the method token and its blank is not recognized. -/
theorem getReqT_short {type : HttpReqT} (h : getReqT (p++t)=some type)
    (hshort : p.length<7 ∨ p.length<type.size+1) : getReqT p=none := by
  obtain ⟨_,hfind,_,_⟩ := getReqT_spec h
  unfold getReqT
  by_cases hlen : p.length<7
  · rw [if_pos hlen]
  · rw [if_neg hlen]
    have hnone : find? p (ascii " ") 0=none := by
      cases hp : find? p (ascii " ") 0 with
      | none => rfl
      | some q =>
        have hq := find?_append (t:=t) hp
        rw [hfind] at hq
        cases hq
        have hb : type.size+1 ≤ p.length := (find?_bounds hp).2
        omega
    dsimp only
    rw [find_of_none hnone]
    exact if_pos (Or.inl rfl)

/-- A proper prefix of a request that ends at its first blank line has none. -/
theorem noBlankLine_cut (h : EndsAtBlankLine (p++t)) (ht : t≠[]) : ¬blankLine<:+:p := by
  obtain ⟨first,hfirst,hend⟩ := h
  intro hp
  obtain ⟨q,hq⟩ := exists_occurs_of_isInfix hp
  have hqend : q+4 ≤ p.length := hq.end_le
  have htlen := List.length_pos_iff.mpr ht
  rw [List.length_append] at hend
  exact (find?_eq_some_iff.mp hfirst).2.2 q (Nat.zero_le _) (by omega)
    ((occurs_append_left hqend).mpr hq)

/-- The value of a header line read from a prefix that holds the line. -/
theorem lineFrom_append {pos start stop : ℕ} (hstop : find? p crlf pos=some stop)
    (hstart : start ≤ stop) : lineFrom (p++t) pos start=lineFrom p pos start := by
  have hb : stop+2 ≤ p.length := (find?_bounds hstop).2
  unfold lineFrom cutAt
  rw [hstop,find?_append hstop]
  dsimp only
  rw [List.drop_append_of_le_length (by omega),
    List.take_append_of_le_length (by rw [List.length_drop]; omega)]

/-- Completeness of a POST with a blank line and a Content-Length literal. -/
theorem checkIsFullRequest_post {req : Bytes} {c blank : ℕ} (hs : req.length ≤ maxSize)
    (hc : find? req contentLengthHeader 0=some c) (hblank : find? req blankLine 0=some blank) :
    checkIsFullRequest req .post=stoi (lineFrom req c (c+15))>>=fun length =>
      if req.length-blank-4=sizeOfInt length then pure .success
      else if req.length-blank-4<sizeOfInt length then pure .notFullReq
      else pure .badHttp := by
  have hm := maxSize_lt_npos
  have hnm := npos_lt_sizeModulus
  have hend : blank+4 ≤ req.length := (find?_bounds hblank).2
  have hsome := getValueSomeHeader_some hs (by decide) (by decide) hc
  unfold checkIsFullRequest
  dsimp only
  rw [find_of_some hblank,if_neg (by omega),if_neg (by simp),hsome,
    subSize_eq (b:=blank) (by omega) (by omega),subSize_eq (b:=4) (by omega) (by omega)]
  rfl

/-- A complete POST announces the length of what stands behind its blank line. -/
theorem checkIsFullRequest_post_success {req : Bytes} {c blank : ℕ} (hs : req.length ≤ maxSize)
    (hc : find? req contentLengthHeader 0=some c) (hblank : find? req blankLine 0=some blank)
    (hfull : checkIsFullRequest req .post=.ok .success) :
    ∃ length,stoi (lineFrom req c (c+15))=.ok length ∧ req.length-blank-4=sizeOfInt length := by
  rw [checkIsFullRequest_post hs hc hblank] at hfull
  obtain ⟨length,hvalue,hfull⟩ := bind_eq_ok hfull
  refine ⟨length,hvalue,?_⟩
  by_contra hne
  rw [if_neg hne] at hfull
  split at hfull <;> cases hfull

/-- What a body of a length is to a request that announces another. -/
def lengthStatus (bodySize headerValue : ℕ) : EStatus :=
  if bodySize=headerValue then .success else if bodySize<headerValue then .notFullReq else .badHttp

/-- Completeness of a POST whose first Content-Length is a line with a numeral. -/
theorem checkIsFullRequest_length {head body digits : Bytes} (hs : (head++body).length ≤ maxSize)
    (hhead : EndsAtBlankLine head) (hne : digits≠[]) (hdigits : digits.all isDigit=true)
    (hlength : FirstBegins head contentLengthHeader (contentLengthHeader++digits++crlf)) :
    checkIsFullRequest (head++body) .post=
      if decimalValue digits<2^31 then .ok (lengthStatus body.length (decimalValue digits))
      else .error (.thrown .outOfRange) := by
  obtain ⟨p,hfirst,hbegin⟩ := hlength.append body
  obtain ⟨blank,hblank,hend⟩ := hhead
  have hline : (13 : UInt8) ∉ contentLengthHeader++digits := by
    rw [List.mem_append,not_or]
    refine ⟨by decide,fun hin => ?_⟩
    exact absurd (List.all_eq_true.mp hdigits 13 hin) (by decide)
  have hinside := (find?_bounds hfirst).2
  have hheader : contentLengthHeader=ascii "Content-Length:"++[32] := by decide
  have hlen : (ascii "Content-Length:").length=15 := by decide
  have hcut : lineFrom (head++body) p (p+15)=32::digits := by
    rw [lineFrom_begins hbegin (by omega) (not_crlf_isInfix hline) (by
      rw [hheader,List.length_append,List.length_append]
      omega),hheader,List.append_assoc,List.drop_left' hlen]
    rfl
  have hbody : (head++body).length-blank-4=body.length := by
    rw [List.length_append]
    omega
  rw [checkIsFullRequest_post hs hfirst (find?_append hblank),hcut,stoi_digits hne hdigits,hbody]
  split
  · next hsmall =>
    have hword : decimalValue digits<sizeModulus := hsmall.trans (by decide)
    rw [ok_bind,sizeOfInt_natCast hword]
    unfold lengthStatus
    split
    · rfl
    split <;> rfl
  · exact error_bind _ _

/-- A line that starts no later than the first blank line ends there at the latest. -/
theorem find?_crlf_of_blank {c blank : ℕ} (hblank : find? p blankLine 0=some blank)
    (hle : c ≤ blank) : ∃ stop,find? p crlf c=some stop ∧ stop ≤ blank := by
  have hcrlf : Occurs crlf p blank := by
    have hocc := (find?_eq_some_iff.mp hblank).2.1
    exact ⟨hocc.1,(by decide : crlf<+:blankLine).trans hocc.2⟩
  exact exists_find?_le hcrlf hle

/-- A proper prefix of a complete POST with its Content-Length in the header
block is incomplete. -/
theorem checkIsFullRequest_post_cut (hs : (p++t).length ≤ maxSize) (h : LengthInHeader (p++t))
    (ht : t≠[]) (hfull : checkIsFullRequest (p++t) .post=.ok .success) :
    checkIsFullRequest p .post=.ok .notFullReq := by
  obtain ⟨c,blank,hc,hblank,hlt⟩ := h
  have htlen := List.length_pos_iff.mpr ht
  have hplen : p.length ≤ maxSize := by rw [List.length_append] at hs; omega
  cases hp : find? p blankLine 0 with
  | none => exact checkIsFullRequest_noBlank hplen (find?_zero_eq_none_iff.mp hp) _
  | some q =>
    have hq := find?_append (t:=t) hp
    rw [hblank] at hq
    cases hq
    have hend : blank+4 ≤ p.length := (find?_bounds hp).2
    have hoc := (find?_eq_some_iff.mp hc).2.1
    obtain ⟨stop,hstop,hle⟩ := find?_crlf_of_blank hp hlt.le
    have hliteral : c+16 ≤ stop := le_find?_crlf hoc (by decide) (find?_append hstop)
    have hcp : find? p contentLengthHeader 0=some c :=
      find?_of_append hc (by change c+16 ≤ p.length; omega)
    obtain ⟨length,hvalue,hsize⟩ := checkIsFullRequest_post_success hs hc hblank hfull
    rw [lineFrom_append hstop (by omega)] at hvalue
    rw [List.length_append] at hsize
    rw [checkIsFullRequest_post hplen hcp hp,hvalue,ok_bind,if_neg (by omega),if_pos (by omega)]
    rfl

/-- A successful parse went through the completeness check. -/
theorem parse_success {setting : ParserSetting} {req : Bytes} {info : HttpTypesInfo}
    (h : parse setting req=.ok (.success,info)) :
    ∃ type,getReqT req=some type ∧ checkIsFullRequest req type.type=.ok .success := by
  cases htype : getReqT req with
  | none =>
    rw [parse_unrecognized setting htype] at h
    cases h
  | some type =>
    refine ⟨type,rfl,?_⟩
    cases hfull : checkIsFullRequest req type.type with
    | error failure =>
      unfold parse at h
      rw [htype] at h
      dsimp only at h
      rw [hfull,error_bind] at h
      cases h
    | ok status =>
      by_cases hstatus : status=.success
      · rw [hstatus]
      · rw [parse_incomplete setting htype hfull hstatus] at h
        cases h
        exact absurd rfl hstatus

/-- The method token and its blank fit in the least start. -/
theorem leastStart_spec {type : HttpReqT} {token : Bytes} (h : getReqT p=some type)
    (htoken : methodToken type.type=some token) :
    leastStart p ≤ 8 ∧ ∀ n,leastStart p ≤ n ↔ 7 ≤ n ∧ type.size+1 ≤ n := by
  have hlen := methodToken_length h htoken
  unfold leastStart
  rw [h]
  dsimp only
  cases htype : type.type <;> rw [htype] at htoken <;> cases htoken
  case get =>
    have hsize : type.size=3 := hlen.symm
    exact ⟨by simp,fun n => by simp only [reduceCtorEq,if_false]; omega⟩
  case post =>
    have hsize : type.size=4 := hlen.symm
    exact ⟨by simp,fun n => by simp only [reduceCtorEq,if_false]; omega⟩
  case options =>
    have hsize : type.size=7 := hlen.symm
    exact ⟨by simp,fun n => by simp only [if_true]; omega⟩

/-- A framed request has a recognized method. -/
theorem Framed.methodToken {type : HttpReqT} {request : Bytes} (h : Framed request)
    (htype : getReqT request=some type) : ∃ token,methodToken type.type=some token := by
  obtain ⟨type',htype',hkind⟩ := h
  rw [htype] at htype'
  cases htype'
  cases hk : type.type <;> rw [hk] at hkind <;> first | exact ⟨_,rfl⟩ | exact hkind.elim

/-- A proper prefix of a framed request that holds the method token is incomplete. -/
theorem parse_cut {setting : ParserSetting} {info : HttpTypesInfo}
    (hs : (p++t).length ≤ maxSize) (hparse : parse setting (p++t)=.ok (.success,info))
    (hframed : Framed (p++t)) (ht : t≠[]) (hstart : leastStart (p++t) ≤ p.length) :
    parse setting p=.ok (.notFullReq,.monostate) := by
  obtain ⟨type,htype,hfull⟩ := parse_success hparse
  obtain ⟨token,htoken⟩ := hframed.methodToken htype
  obtain ⟨hlen,hsize⟩ := ((leastStart_spec htype htoken).2 p.length).mp hstart
  have hplen : p.length ≤ maxSize := by rw [List.length_append] at hs; omega
  refine parse_incomplete setting (getReqT_cut htype hlen hsize) ?_ (by simp)
  obtain ⟨type',htype',hkind⟩ := hframed
  rw [htype] at htype'
  cases htype'
  cases hk : type.type <;> rw [hk] at hkind
  case get => exact checkIsFullRequest_noBlank hplen (noBlankLine_cut hkind ht) _
  case options => exact checkIsFullRequest_noBlank hplen (noBlankLine_cut hkind ht) _
  case post =>
    rw [hk] at hfull
    exact checkIsFullRequest_post_cut hs hkind ht hfull
  all_goals exact hkind.elim

/-- A prefix without the method token is refused. -/
theorem parse_cut_short {setting : ParserSetting} {info : HttpTypesInfo}
    (hparse : parse setting (p++t)=.ok (.success,info)) (hframed : Framed (p++t))
    (hstart : p.length<leastStart (p++t)) : parse setting p=.ok (.badHttp,.monostate) := by
  obtain ⟨type,htype,_⟩ := parse_success hparse
  obtain ⟨token,htoken⟩ := hframed.methodToken htype
  have hshort : ¬(7 ≤ p.length ∧ type.size+1 ≤ p.length) := fun h =>
    absurd (((leastStart_spec htype htoken).2 p.length).mpr h) (by omega)
  exact parse_unrecognized setting (getReqT_short htype (by omega))

end prefixes

section loop

variable {σ : Type} (services : Services σ)

/-- The loop's judgements of what it has buffered. -/
def IsVerdict : Event → Prop
  | .waited | .discarded | .dispatched _ => True
  | _ => False

instance : DecidablePred IsVerdict := fun event => by
  cases event <;> unfold IsVerdict <;> infer_instance

/-- Judgements among the events, in order. -/
def verdicts (events : List Event) : List Event := events.filter IsVerdict

/-- A chunk for each recv, with the world it finds. -/
def received (chunks : List (σ×Bytes)) : List (σ×RecvResult) :=
  chunks.map fun chunk => (chunk.1,.data chunk.2)

/-- Appending within the greatest length serves the grown buffer. -/
theorem turn_eq {request chunk : Bytes} (h : (request++chunk).length ≤ maxSize) :
    turn services request chunk=serveBuffer services (request++chunk) :=
  compute_ok_bind_run (if_pos h) _

/-- An incomplete request stays in the buffer. -/
theorem serveBuffer_notFullReq {request : Bytes} {info : HttpTypesInfo} (world : σ)
    (h : parse services.setting request=.ok (.notFullReq,info)) :
    serveBuffer services request world=⟨.ok request,world,[.waited]⟩ := by
  unfold serveBuffer
  rw [compute_ok_bind_run h]
  rfl

/-- A refused request leaves an empty buffer. -/
theorem serveBuffer_badHttp {request : Bytes} {info : HttpTypesInfo} (world : σ)
    (h : parse services.setting request=.ok (.badHttp,info)) :
    serveBuffer services request world=⟨.ok [],world,[.discarded]⟩ := by
  unfold serveBuffer
  rw [compute_ok_bind_run h]
  rfl

/-- A parsed request is dispatched. -/
theorem serveBuffer_success {request : Bytes} {info : HttpTypesInfo} (world : σ)
    (h : parse services.setting request=.ok (.success,info)) :
    serveBuffer services request world=
      ⟨(dispatch services info world).outcome.map (nextRequest request),
        (dispatch services info world).world,
        .dispatched info::(dispatch services info world).events⟩ := by
  unfold serveBuffer
  rw [compute_ok_bind_run h]
  dsimp only
  rw [record_bind_run]
  cases hout : (dispatch services info world).outcome with
  | error failure =>
    rw [bind_run_error hout]
    rfl
  | ok exit =>
    rw [bind_run_ok hout]
    simp [pure,Call.pure,Except.map]

/-- What neither a reply nor an event behind a token is, dispatching does not show. -/
theorem dispatch_free {shown : Event → Prop} (hbehind : ∀ subject event,Behind subject event → ¬shown event)
    (hsent : ∀ event,IsSent event → ¬shown event) (haccepted : ∀ token id,¬shown (.tokenAccepted token id))
    (info : HttpTypesInfo) (world : σ) : ∀ event ∈ (dispatch services info world).events,¬shown event := by
  have hevents := dispatch_events services info world
  intro event hmem
  cases hrequired : requiredToken info with
  | none =>
    rw [hrequired] at hevents
    exact hbehind _ _ (hevents event hmem)
  | some token =>
    rw [hrequired] at hevents
    rcases hevents with hreplies|⟨id,rest,_,heq,htail⟩
    · exact hsent _ (hreplies event hmem)
    · rw [heq] at hmem
      rcases List.mem_cons.mp hmem with rfl|hmem
      · exact haccepted _ _
      · exact hbehind _ _ (htail event hmem)

/-- Dispatching passes no judgement. -/
theorem verdicts_dispatch (info : HttpTypesInfo) (world : σ) :
    verdicts (dispatch services info world).events=[] := by
  rw [verdicts,List.filter_eq_nil_iff]
  intro event hmem
  rw [decide_eq_true_iff]
  refine dispatch_free services ?_ ?_ (fun _ _ h => h) info world event hmem
  · intro subject event h
    cases event <;> simp_all [Behind,IsVerdict]
  · intro event h
    cases event <;> simp_all [IsSent,IsVerdict]

/-- A turn that ended well is followed by the rest of the loop. -/
theorem runLoop_data_ok {request chunk buffer : Bytes} {now : σ} (rest : List (σ×RecvResult))
    (world : σ) (h : (turn services request chunk now).outcome=.ok buffer) :
    runLoop services request ((now,.data chunk)::rest) world=
      ⟨(runLoop services buffer rest (turn services request chunk now).world).outcome,
        (runLoop services buffer rest (turn services request chunk now).world).world,
        (turn services request chunk now).events++
          (runLoop services buffer rest (turn services request chunk now).world).events⟩ :=
  bind_run_ok h

/-- A turn that failed ends the loop. -/
theorem runLoop_data_error {request chunk : Bytes} {failure : Failure} {now : σ}
    (rest : List (σ×RecvResult)) (world : σ)
    (h : (turn services request chunk now).outcome=.error failure) :
    runLoop services request ((now,.data chunk)::rest) world=
      ⟨.error failure,(turn services request chunk now).world,
        (turn services request chunk now).events⟩ := bind_run_error h

/-- A framed request that arrives in chunks, the first of which completes its
method token, is waited for until its last chunk and dispatched then. -/
theorem verdicts_runLoop {info : HttpTypesInfo} (chunks : List (σ×Bytes)) (buffer : Bytes)
    (chunk : σ×Bytes) (world : σ)
    (hs : (buffer++chunk.2++(chunks.map Prod.snd).flatten).length ≤ maxSize)
    (hparse : parse services.setting (buffer++chunk.2++(chunks.map Prod.snd).flatten)=
      .ok (.success,info))
    (hframed : Framed (buffer++chunk.2++(chunks.map Prod.snd).flatten))
    (hne : ∀ c ∈ chunks,c.2≠[])
    (hstart : chunks=[] ∨
      leastStart (buffer++chunk.2++(chunks.map Prod.snd).flatten) ≤ (buffer++chunk.2).length) :
    verdicts (runLoop services buffer (received (chunk::chunks)) world).events=
      List.replicate chunks.length .waited++[.dispatched info] := by
  induction chunks generalizing buffer chunk world with
  | nil =>
    simp only [List.map_nil,List.flatten_nil,List.append_nil] at hs hparse
    have hturn : turn services buffer chunk.2 chunk.1=
        serveBuffer services (buffer++chunk.2) chunk.1 := by rw [turn_eq services hs]
    have hserve := serveBuffer_success services chunk.1 hparse
    have hevents : verdicts (turn services buffer chunk.2 chunk.1).events=[.dispatched info] := by
      rw [hturn,hserve]
      exact congrArg (Event.dispatched info::·) (verdicts_dispatch services info chunk.1)
    cases hout : (turn services buffer chunk.2 chunk.1).outcome with
    | error failure =>
      change verdicts (runLoop services buffer [(chunk.1,.data chunk.2)] world).events=_
      rw [runLoop_data_error services [] world hout]
      exact hevents
    | ok next =>
      change verdicts (runLoop services buffer [(chunk.1,.data chunk.2)] world).events=_
      rw [runLoop_data_ok services [] world hout]
      change verdicts ((turn services buffer chunk.2 chunk.1).events++[])=_
      rw [List.append_nil]
      exact hevents
  | cons next rest ih =>
    have hflat : ((next::rest).map Prod.snd).flatten=next.2++(rest.map Prod.snd).flatten := rfl
    have hleast := hstart.resolve_left (List.cons_ne_nil _ _)
    have htail : ((next::rest).map Prod.snd).flatten≠[] := by
      rw [hflat]
      exact fun h => hne next List.mem_cons_self (List.append_eq_nil_iff.mp h).1
    have hlen : (buffer++chunk.2).length ≤ maxSize := by
      rw [List.length_append] at hs
      omega
    have hwait := parse_cut hs hparse hframed htail hleast
    have hturn : turn services buffer chunk.2 chunk.1=
        ⟨.ok (buffer++chunk.2),chunk.1,[.waited]⟩ := by
      rw [turn_eq services hlen,serveBuffer_notFullReq services chunk.1 hwait]
    change verdicts (runLoop services buffer ((chunk.1,.data chunk.2)::received (next::rest))
      world).events=_
    rw [runLoop_data_ok services _ world (by rw [hturn]),hturn]
    rw [hflat,←List.append_assoc] at hs hparse hframed hleast
    have hnext := ih (buffer++chunk.2) next chunk.1 hs hparse hframed
      (fun c hc => hne c (List.mem_cons_of_mem _ hc))
      (Or.inr (hleast.trans (by simp only [List.length_append]; omega)))
    exact congrArg (Event.waited::·) hnext

/-- A framed request survives its cutting exactly when it comes in one piece
or its first piece completes the method token: then every proper prefix
waits, the whole is dispatched once as it parses alone, and nothing is
thrown away. -/
theorem verdicts_runLoop_iff (request : CxxText) {info : HttpTypesInfo}
    (hparse : parse services.setting request.bytes=.ok (.success,info))
    (hframed : Framed request.bytes) (first : σ×Bytes) (rest : List (σ×Bytes))
    (hne : ∀ c ∈ first::rest,c.2≠[])
    (hcut : ((first::rest).map Prod.snd).flatten=request.bytes) (world : σ) :
    verdicts (runLoop services [] (received (first::rest)) world).events=
        List.replicate rest.length .waited++[.dispatched info] ↔
      rest=[] ∨ leastStart request.bytes ≤ first.2.length := by
  have hsplit : request.bytes=[]++first.2++(rest.map Prod.snd).flatten := hcut.symm
  constructor
  · intro h
    by_contra hshort
    obtain ⟨hrest,hlt⟩ := not_or.mp hshort
    rw [List.nil_append] at hsplit
    have hlen : ([]++first.2).length ≤ maxSize := by
      have hsize := request.size_le
      rw [hsplit,List.length_append] at hsize
      rw [List.nil_append]
      omega
    rw [hsplit] at hparse hframed hlt
    have hbad := parse_cut_short hparse hframed (by omega)
    have hturn : turn services [] first.2 first.1=⟨.ok [],first.1,[.discarded]⟩ := by
      rw [turn_eq services hlen,List.nil_append,serveBuffer_badHttp services first.1 hbad]
    change verdicts (runLoop services [] ((first.1,.data first.2)::received rest) world).events=_ at h
    rw [runLoop_data_ok services _ world (by rw [hturn]),hturn] at h
    obtain ⟨second,others,rfl⟩ := List.exists_cons_of_ne_nil hrest
    cases h
  · intro hstart
    have hsize := request.size_le
    rw [hsplit] at hparse hframed hsize hstart
    exact verdicts_runLoop services rest [] first world hsize hparse hframed
      (fun c hc => hne c (List.mem_cons_of_mem _ hc)) (by rwa [List.nil_append] at hstart ⊢)

end loop

section cuts

/-- A token library without a key and a database without a connection. -/
def refusing : Services Unit where
  setting := ⟨fun _ => none,.lenient⟩
  jwt := ⟨fun _ _ => .error (.runtimeError "no key"),fun _ _ _ _ => .error (.runtimeError "no key")⟩
  now := fun _ => 0
  dump := dumpPlain
  call := fun _ world => (.error (.runtimeError "no connection"),world)

/-- A framed OPTIONS request. -/
def optionsRequest : Bytes := ascii "OPTIONS * HTTP/1.1\r\nOrigin: o\r\n\r\n"

/-- The OPTIONS request parses with its origin. -/
theorem parse_optionsRequest :
    parse refusing.setting optionsRequest=.ok (.success,.options ⟨ascii " o"⟩) := by rfl

/-- The OPTIONS request is framed. -/
theorem framed_optionsRequest : Framed optionsRequest :=
  ⟨⟨.options,7⟩,by decide +kernel,29,by decide +kernel,by decide +kernel⟩

/-- Cut behind its method token and the blank, the request is waited for. -/
theorem verdicts_cut_behind_method :
    verdicts (runLoop refusing [] (received
        [((),optionsRequest.take 8),((),optionsRequest.drop 8)]) ()).events=
      [.waited,.dispatched (.options ⟨ascii " o"⟩)] :=
  (verdicts_runLoop_iff refusing ⟨optionsRequest,by decide +kernel⟩ parse_optionsRequest
    framed_optionsRequest ((),optionsRequest.take 8) [((),optionsRequest.drop 8)]
    (by decide +kernel) (by decide +kernel) ()).mpr (Or.inr (by decide +kernel))

/-- Cut inside its method token, the same request is thrown away piece by piece. -/
theorem verdicts_cut_inside_method :
    parse refusing.setting optionsRequest=.ok (.success,.options ⟨ascii " o"⟩) ∧
      Framed optionsRequest ∧ optionsRequest.take 3++optionsRequest.drop 3=optionsRequest ∧
      verdicts (runLoop refusing [] (received
        [((),optionsRequest.take 3),((),optionsRequest.drop 3)]) ()).events=
          [.discarded,.discarded] :=
  ⟨parse_optionsRequest,framed_optionsRequest,List.take_append_drop _ _,by rfl⟩

end cuts

end Photogram.AuthReceive
