import Photogram.AuthReceive

/-!
# Database calls behind the token check

Over one turn of the receive loop: the token a guarded message presents is
cut out of the buffered bytes, so whatever the buffer holds, a database call
that is not open to everybody is made behind an accepted token of these
bytes, for its subject.
-/

namespace Photogram.AuthGuard

open CxxString EffectLog JsonValue QueryString JwtToken AuthResponse AuthRequest AuthHttpParser
open AuthConnection AuthDispatch AuthReceive

section parsing

variable {req : Bytes}

/-- What a message parser answers in the good case. -/
theorem parseMessage_true {μ : Type} {msgO : Bytes → Except Failure (Option μ)}
    {missing info : HttpTypesInfo} {unknown : Bytes → HttpTypesInfo}
    {known : Bytes → μ → Except Failure HttpTypesInfo}
    (h : parseMessage msgO missing unknown known req=.ok (true,info)) :
    ∃ origin msg,getValueSomeHeader req originHeader 0=.ok (some origin) ∧
      msgO req=.ok (some msg) ∧ known origin msg=.ok info := by
  unfold parseMessage at h
  obtain ⟨originO,horigin,h⟩ := bind_eq_ok h
  cases originO with
  | none => cases h
  | some origin =>
    obtain ⟨msgO,hmsg,h⟩ := bind_eq_ok h
    cases msgO with
    | none => cases h
    | some msg =>
      obtain ⟨found,hknown,h⟩ := bind_eq_ok h
      cases h
      exact ⟨origin,msg,horigin,hmsg,hknown⟩

/-- An access token is part of the request. -/
theorem accessToken_isInfix {accessToken : Bytes} (hs : req.length ≤ maxSize)
    (h : getValueWithSpace req bearerPrefix 0=.ok accessToken) : accessToken<:+:req := by
  cases hfind : find? req bearerPrefix 0 with
  | none =>
    rw [getValueWithSpace_none hfind] at h
    cases h
  | some p =>
    rw [getValueWithSpace_some hs (by decide) hfind] at h
    cases h
    exact cutAt_isInfix _ _ _ _

/-- The fields of a GET message keep the message and the origin; the refresh
token of a renewal and the access token of the others are cut from the request. -/
theorem parseGetFields_ok {info getInfo : GetTInfo} (hs : req.length ≤ maxSize)
    (h : parseGetFields req info=.ok getInfo) :
    getInfo.msg=info.msg ∧ getInfo.origin=info.origin ∧
      (getInfo.msg≠.getNewToken → getInfo.accessToken<:+:req) ∧
      (getInfo.msg=.getNewToken →
        getValueWithSpace req refreshTokenPrefix 0=.ok getInfo.refreshToken) := by
  unfold parseGetFields at h
  split at h
  · next hmsg =>
    obtain ⟨refreshToken,hrefresh,h⟩ := bind_eq_ok h
    cases h
    exact ⟨rfl,rfl,fun hne => absurd hmsg hne,fun _ => hrefresh⟩
  · next hmsg =>
    obtain ⟨accessToken,htoken,h⟩ := bind_eq_ok h
    obtain ⟨properties,_,h⟩ := bind_eq_ok h
    cases h
    exact ⟨rfl,rfl,fun _ => accessToken_isInfix hs htoken,fun heq => absurd heq hmsg⟩

/-- The fields of a POST message keep the message and the origin, and the
token of a guarded one is part of the request. -/
theorem parsePostFields_ok {setting : ParserSetting} {info postInfo : PostTInfo}
    (hs : req.length ≤ maxSize) (h : parsePostFields setting req info=.ok postInfo) :
    postInfo.msg=info.msg ∧ postInfo.origin=info.origin ∧
      (postInfo.msg≠.login → postInfo.msg≠.registration → postInfo.accessToken<:+:req) := by
  unfold parsePostFields at h
  cases hmsg : info.msg with
  | login =>
    rw [hmsg] at h
    obtain ⟨jsonBody,_,h⟩ := bind_eq_ok h
    cases h
    exact ⟨rfl,rfl,fun hne => absurd rfl hne⟩
  | registration =>
    rw [hmsg] at h
    obtain ⟨form,_,h⟩ := bind_eq_ok h
    obtain ⟨file,_,h⟩ := bind_eq_ok h
    cases h
    exact ⟨rfl,rfl,fun _ hne => absurd rfl hne⟩
  | updateProfilePhoto =>
    rw [hmsg] at h
    obtain ⟨accessToken,htoken,h⟩ := bind_eq_ok h
    obtain ⟨form,_,h⟩ := bind_eq_ok h
    obtain ⟨file,_,h⟩ := bind_eq_ok h
    cases h
    exact ⟨rfl,rfl,fun _ _ => accessToken_isInfix hs htoken⟩
  | updateProfileData =>
    rw [hmsg] at h
    obtain ⟨accessToken,htoken,h⟩ := bind_eq_ok h
    obtain ⟨jsonBody,_,h⟩ := bind_eq_ok h
    cases h
    exact ⟨rfl,rfl,fun _ _ => accessToken_isInfix hs htoken⟩
  | updateProfilePassword =>
    rw [hmsg] at h
    obtain ⟨accessToken,htoken,h⟩ := bind_eq_ok h
    obtain ⟨jsonBody,_,h⟩ := bind_eq_ok h
    cases h
    exact ⟨rfl,rfl,fun _ _ => accessToken_isInfix hs htoken⟩

/-- A parsed GET request has a known message and the fields of that message. -/
theorem parseGetT_true {info : HttpTypesInfo} (hs : req.length ≤ maxSize)
    (h : parseGetT req=.ok (true,info)) :
    ∃ getInfo,info=.get getInfo ∧ getGetMsg req=.ok (some getInfo.msg) ∧
      (getInfo.msg≠.getNewToken → getInfo.accessToken<:+:req) := by
  obtain ⟨origin,msg,_,hmsg,hknown⟩ := parseMessage_true h
  obtain ⟨getInfo,hfields,hinfo⟩ := bind_eq_ok hknown
  cases hinfo
  obtain ⟨hkeep,_,htoken,_⟩ := parseGetFields_ok hs hfields
  exact ⟨getInfo,rfl,by rw [hkeep]; exact hmsg,htoken⟩

/-- So does a parsed POST request. -/
theorem parsePostT_true {setting : ParserSetting} {info : HttpTypesInfo} (hs : req.length ≤ maxSize)
    (h : parsePostT setting req=.ok (true,info)) :
    ∃ postInfo,info=.post postInfo ∧
      (postInfo.msg≠.login → postInfo.msg≠.registration → postInfo.accessToken<:+:req) := by
  obtain ⟨origin,msg,_,_,hknown⟩ := parseMessage_true h
  obtain ⟨postInfo,hfields,hinfo⟩ := bind_eq_ok hknown
  cases hinfo
  exact ⟨postInfo,rfl,(parsePostFields_ok hs hfields).2.2⟩

/-- A parsed OPTIONS request fills its block. -/
theorem parseOptionsT_ok {answer : Bool×HttpTypesInfo} (h : parseOptionsT req=.ok answer) :
    ∃ optionsInfo,answer.2=.options optionsInfo := by
  obtain ⟨originO,_,h⟩ := bind_eq_ok h
  cases originO <;> cases h
  · exact ⟨_,rfl⟩
  · exact ⟨_,rfl⟩

/-- A status of success comes from a true answer with its block. -/
theorem fieldStatus_success {answer : Bool×HttpTypesInfo} {info : HttpTypesInfo}
    (h : (pure (fieldStatus answer) : Except Failure (EStatus×HttpTypesInfo))=.ok (.success,info)) :
    answer=(true,info) := by
  obtain ⟨good,found⟩ := answer
  cases good <;> cases h
  rfl

/-- The parser of an accepted request's method answered true with its block. -/
theorem parse_success_answer {setting : ParserSetting} {request : Bytes} {info : HttpTypesInfo}
    (hs : request.length ≤ maxSize) (h : parse setting request=.ok (.success,info)) :
    ∃ type,getReqT request=some type ∧
      (type.type=.get ∧ parseGetT (request.drop type.size)=.ok (true,info) ∨
        type.type=.post ∧ parsePostT setting (request.drop type.size)=.ok (true,info) ∨
        type.type=.options ∧ parseOptionsT (request.drop type.size)=.ok (true,info)) := by
  obtain ⟨type,htype,hfull⟩ := parse_success h
  refine ⟨type,htype,?_⟩
  rw [parse_complete setting hs htype hfull] at h
  unfold parseByMethod at h
  cases hkind : type.type <;> rw [hkind] at h
  case get =>
    obtain ⟨answer,hanswer,h⟩ := bind_eq_ok h
    exact Or.inl ⟨rfl,by rw [hanswer,fieldStatus_success h]⟩
  case post =>
    obtain ⟨answer,hanswer,h⟩ := bind_eq_ok h
    exact Or.inr (Or.inl ⟨rfl,by rw [hanswer,fieldStatus_success h]⟩)
  case options =>
    obtain ⟨answer,hanswer,h⟩ := bind_eq_ok h
    exact Or.inr (Or.inr ⟨rfl,by rw [hanswer,fieldStatus_success h]⟩)
  all_goals cases h

/-- The token a parsed request has to present is part of its bytes. -/
theorem requiredToken_isInfix {setting : ParserSetting} {request token : Bytes}
    {info : HttpTypesInfo} (hs : request.length ≤ maxSize)
    (h : parse setting request=.ok (.success,info)) (htoken : requiredToken info=some token) :
    token<:+:request := by
  obtain ⟨type,_,hanswer⟩ := parse_success_answer hs h
  have hrest : (request.drop type.size).length ≤ maxSize := by
    rw [List.length_drop]
    omega
  have hdrop : request.drop type.size<:+:request := (List.drop_suffix _ _).isInfix
  rcases hanswer with ⟨_,hget⟩|⟨_,hpost⟩|⟨_,hoptions⟩
  · obtain ⟨getInfo,rfl,_,hpart⟩ := parseGetT_true hrest hget
    by_cases hmsg : getInfo.msg=.getNewToken
    · simp only [requiredToken,hmsg] at htoken
      cases htoken
    · rw [requiredToken_get hmsg] at htoken
      cases htoken
      exact (hpart hmsg).trans hdrop
  · obtain ⟨postInfo,rfl,hpart⟩ := parsePostT_true hrest hpost
    cases hmsg : postInfo.msg <;> simp only [requiredToken,hmsg] at htoken <;> cases htoken <;>
      exact (hpart (by rw [hmsg]; simp) (by rw [hmsg]; simp)).trans hdrop
  · obtain ⟨optionsInfo,hinfo⟩ := parseOptionsT_ok hoptions
    cases hinfo
    cases htoken

end parsing

/-- A message whose calls are open to everybody. -/
def OpenMessage : HttpTypesInfo → Prop
  | .post info => info.msg=.login ∨ info.msg=.registration
  | .get info => info.msg=.getNewToken
  | _ => False

section turns

variable {σ : Type} (services : Services σ)

/-- A database call behind some events of a turn: one of an open message, or
one for the subject of an accepted token of the buffered bytes. -/
def GuardedCall (buffered : Bytes) (world : σ) (before : List Event) (call : DbCall) : Prop :=
  (∃ info,.dispatched info ∈ before ∧ OpenMessage info ∧ ActsFor none call) ∨
    ∃ token id,.tokenAccepted token id ∈ before ∧ token<:+:buffered ∧
      checkAccessToken services.jwt token secret (services.now world)=.ok id ∧
      ActsFor (some id) call

/-- Every database call of a turn is guarded by the events before it. -/
def GuardedTurn (buffered : Bytes) (world : σ) (events : List Event) : Prop :=
  ∀ before call after,events=before++.dbCall call::after →
    GuardedCall services buffered world before call

/-- Database calls without a token belong to an open message. -/
theorem openMessage_of_dbCall {info : HttpTypesInfo} {world : σ} {call : DbCall}
    (h : requiredToken info=none) (hcall : .dbCall call ∈ (dispatch services info world).events) :
    OpenMessage info := by
  cases info with
  | monostate => exact absurd hcall List.not_mem_nil
  | options optionsInfo =>
    have hsent : Emits (dispatch services (.options optionsInfo)) IsSent :=
      emits_bind (emits_sendReply services _ trivial) fun _ => emits_pure _ _
    exact (hsent.events world _ hcall).elim
  | post postInfo =>
    cases hmsg : postInfo.msg <;> simp only [requiredToken,hmsg] at h
    case login => exact Or.inl hmsg
    case registration => exact Or.inr hmsg
    all_goals cases h
  | get getInfo =>
    cases hmsg : getInfo.msg <;> simp only [requiredToken,hmsg] at h
    case getNewToken => exact hmsg
    all_goals cases h

/-- Every database call of a dispatched request is guarded. -/
theorem dispatch_guarded {buffered : Bytes} {info : HttpTypesInfo} {world : σ}
    (hs : buffered.length ≤ maxSize) (hparse : parse services.setting buffered=.ok (.success,info)) :
    GuardedTurn services buffered world
      (.dispatched info::(dispatch services info world).events) := by
  intro before call after hsplit
  rcases List.cons_eq_append_iff.mp hsplit with ⟨_,hfirst⟩|⟨shown,hbefore,hrest⟩
  · cases hfirst
  · have hcall : .dbCall call ∈ (dispatch services info world).events := by
      rw [hrest]
      exact List.mem_append_right shown List.mem_cons_self
    have hevents := dispatch_events services info world
    rw [hbefore]
    cases hrequired : requiredToken info with
    | none =>
      rw [hrequired] at hevents
      exact Or.inl ⟨info,List.mem_cons_self,openMessage_of_dbCall services hrequired hcall,
        hevents _ hcall⟩
    | some token =>
      rw [hrequired] at hevents
      rcases hevents with hsent|⟨id,behind,haccepted,heq,hbehind⟩
      · exact (hsent _ hcall).elim
      · rw [heq] at hrest
        rcases List.cons_eq_append_iff.mp hrest with ⟨_,hfirst⟩|⟨others,hshown,hothers⟩
        · cases hfirst
        · have hmem : .dbCall call ∈ behind := by
            rw [hothers]
            exact List.mem_append_right others List.mem_cons_self
          rw [hshown]
          exact Or.inr ⟨token,id,List.mem_cons_of_mem _ List.mem_cons_self,
            requiredToken_isInfix hs hparse hrequired,haccepted,hbehind _ hmem⟩

/-- The events of a turn that dispatches nothing hold no call and no reply. -/
theorem serveBuffer_undispatched {buffered : Bytes} {world : σ}
    (h : ∀ info,parse services.setting buffered≠.ok (.success,info)) :
    ∀ event ∈ (serveBuffer services buffered world).events,event=.waited ∨ event=.discarded := by
  cases hparse : parse services.setting buffered with
  | error failure =>
    unfold serveBuffer
    rw [compute_error_bind_run hparse]
    exact fun event hmem => absurd hmem List.not_mem_nil
  | ok answer =>
    obtain ⟨status,info⟩ := answer
    unfold serveBuffer
    rw [compute_ok_bind_run hparse]
    cases status with
    | success => exact absurd hparse (h info)
    | notFullReq => exact fun event hmem => Or.inl (List.mem_singleton.mp hmem)
    | badHttp => exact fun event hmem => Or.inr (List.mem_singleton.mp hmem)
    | notSupportType => exact fun event hmem => Or.inr (List.mem_singleton.mp hmem)

/-- What a turn shows: nothing, a judgement, or a dispatched request of the
buffered bytes. -/
theorem turn_events (buffer chunk : Bytes) (world : σ) :
    (∀ event ∈ (turn services buffer chunk world).events,event=.waited ∨ event=.discarded) ∨
      ∃ info,(buffer++chunk).length ≤ maxSize ∧
        parse services.setting (buffer++chunk)=.ok (.success,info) ∧
        (turn services buffer chunk world).events=
          .dispatched info::(dispatch services info world).events := by
  by_cases hs : (buffer++chunk).length ≤ maxSize
  · rw [turn_eq services hs]
    by_cases h : ∃ info,parse services.setting (buffer++chunk)=.ok (.success,info)
    · obtain ⟨info,hparse⟩ := h
      rw [serveBuffer_success services world hparse]
      exact Or.inr ⟨info,hs,hparse,rfl⟩
    · exact Or.inl (serveBuffer_undispatched services fun info hparse => h ⟨info,hparse⟩)
  · have happend : append buffer chunk=.error (.thrown .lengthError) := if_neg hs
    unfold turn
    rw [compute_error_bind_run happend]
    exact Or.inl fun event hmem => absurd hmem List.not_mem_nil

/-- Every turn is guarded. -/
theorem turn_guarded (buffer chunk : Bytes) (world : σ) :
    GuardedTurn services (buffer++chunk) world (turn services buffer chunk world).events := by
  rcases turn_events services buffer chunk world with hjudged|⟨info,hs,hparse,hevents⟩
  · intro before call after hsplit
    have hcall : .dbCall call ∈ (turn services buffer chunk world).events := by
      rw [hsplit]
      exact List.mem_append_right before List.mem_cons_self
    rcases hjudged _ hcall with h|h <;> cases h
  · rw [hevents]
    exact dispatch_guarded services hs hparse

end turns

end Photogram.AuthGuard
