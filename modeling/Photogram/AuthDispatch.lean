import Photogram.AuthConnection

/-!
# What one dispatched request does

The dispatcher checks the access token of a guarded message in the world it
finds. An accepted token is shown before anything else, and from then on the
case only acts for its subject; a refused one leaves through continue after
an error reply. Everything else only makes the calls open to everybody.
-/

namespace Photogram.AuthDispatch

open CxxString EffectLog JsonValue JwtToken AuthResponse AuthHttpParser AuthConnection

/-- Access token a request has to present, if its message is guarded. -/
def requiredToken : HttpTypesInfo → Option Bytes
  | .post info =>
    match info.msg with
    | .login | .registration => none
    | _ => some info.accessToken
  | .get info =>
    match info.msg with
    | .getNewToken => none
    | _ => some info.accessToken
  | _ => none

/-- A database call made on behalf of a subject, or open to everybody. -/
def ActsFor (subject : Option Bytes) : DbCall → Prop
  | .checkPassword _ _ | .getNicknameById _ | .addNewUser _ => subject=none
  | .updateProfilePhoto _ id | .updateProfileData _ id | .updateProfilePassword _ id
  | .getUsers _ id | .makeFriend id _ | .deleteFriend id _ | .getStatus id _ => subject=some id
  | .getProfileInformation _ | .getProfilePhoto _ | .getPhotoById _ => subject.isSome

/-- Events behind the token check: replies, and calls on behalf of the subject. -/
def Behind (subject : Option Bytes) : Event → Prop
  | .sent _ => True
  | .dbCall call => ActsFor subject call
  | _ => False

/-- Replies only. -/
def IsSent : Event → Prop
  | .sent _ => True
  | _ => False

/-- The error reply to a rejected access token. -/
def refusal (origin : Bytes) : Reply :=
  .sendError origin (ascii "401") (ascii "invalid access token")

section judgements

variable {σ : Type} (services : Services σ) {pre : σ → Prop} {allowed : Event → Prop}

/-- A database call returns in the world it leaves. -/
theorem triple_callDb {call : DbCall} (h : allowed (.dbCall call)) :
    Triple pre (callDb services call)
      (fun answer world => ∃ before,pre before ∧ services.call call before=(.ok answer,world))
      allowed :=
  triple_bind (triple_record h) fun _ => triple_act _

/-- A token is made at the clock reading of the world it is returned in. -/
theorem triple_newToken {create : JwtLibrary → Bytes → Bytes → ℕ → Except CxxException Bytes}
    {id : Bytes} :
    Triple pre (newToken services create id)
      (fun token world => create services.jwt id secret (services.now world)=.ok token ∧ pre world)
      allowed :=
  triple_bind (triple_readWorld _) fun now =>
    (triple_raising (create services.jwt id secret now)).mono (fun _ h => h)
      (fun _ _ h => ⟨h.2.1 ▸ h.1,h.2.2⟩) fun _ h => h

/-- A reply is sent in a world that allows it. -/
theorem triple_sendReply {reply : Reply} (h : ∀ world,pre world → allowed (.sent reply)) :
    Triple pre (sendReply services reply) (fun _ _ => True) allowed := by
  intro world hpre
  have hrun : Triple pre (sendReply services reply) (fun _ _ => True) allowed :=
    triple_bind (triple_compute _) fun _ =>
      (triple_record (h world hpre)).mono (fun _ h => h) (fun _ _ _ => trivial) fun _ h => h
  exact hrun world hpre

/-- A case answers its errors without handing out tokens. -/
theorem triple_answering {origin : Bytes} {errors : CxxException → ErrorAnswer}
    {body : Handler σ Unit} (hallowed : ∀ code text,allowed (.sent (.sendError origin code text)))
    (h : Triple pre body (fun _ _ => True) allowed) :
    Triple pre (answering services origin errors body) (fun _ _ => True) allowed :=
  triple_attempt h fun _ => triple_sendReply services fun _ _ => hallowed _ _

/-- A case that is left at the bottom of the loop. -/
theorem triple_ending {body : Handler σ Unit} (h : Triple pre body (fun _ _ => True) allowed) :
    Triple pre (body>>=fun _ => pure Exit.bottom) (fun _ _ => True) allowed :=
  triple_bind h fun _ => (triple_pure _).mono (fun _ h => h) (fun _ _ _ => trivial) fun _ h => h

end judgements

section parts

variable {σ : Type} (services : Services σ)

/-- Sending a reply shows that reply at most. -/
theorem emits_sendReply (reply : Reply) {allowed : Event → Prop} (h : allowed (.sent reply)) :
    Emits (sendReply services reply) allowed :=
  emits_bind (emits_compute _ _) fun _ => emits_record h

/-- A database call shows itself. -/
theorem emits_callDb (call : DbCall) {allowed : Event → Prop} (h : allowed (.dbCall call)) :
    Emits (callDb services call) allowed :=
  emits_bind (emits_record h) fun _ => emits_act _ _

/-- Making a token shows nothing. -/
theorem emits_newToken (create : JwtLibrary → Bytes → Bytes → ℕ → Except CxxException Bytes)
    (id : Bytes) (allowed : Event → Prop) : Emits (newToken services create id) allowed :=
  emits_bind (emits_readWorld _ _) fun _ => emits_compute _ _

/-- A case shows what its body shows, and an error reply. -/
theorem emits_answering {origin : Bytes} {errors : CxxException → ErrorAnswer}
    {body : Handler σ Unit} {subject : Option Bytes} (h : Emits body (Behind subject)) :
    Emits (answering services origin errors body) (Behind subject) :=
  emits_attempt h fun _ => emits_sendReply services _ trivial

/-- A case that makes one call and replies with its answer. -/
theorem emits_callAndReply {call : DbCall} {subject : Option Bytes} (h : ActsFor subject call)
    (reply : call.Answer → Reply) :
    Emits (callDb services call>>=fun answer => sendReply services (reply answer))
      (Behind subject) :=
  emits_bind (emits_callDb services call h) fun _ => emits_sendReply services _ trivial

/-- A reply that cannot be rendered raises. -/
theorem render_error {reply : Reply} {failure : Failure}
    (h : reply.render (dumpText services.dump)=.error failure) : failure=.thrown .jsonType := by
  have hdump : ∀ {value : Json} {rest : Bytes → Except Failure (List Bytes)},
      (∀ text,∃ sends,rest text=.ok sends) →
      (dumpText services.dump value>>=rest)=.error failure → failure=.thrown .jsonType := by
    intro value rest hrest h
    unfold dumpText at h
    cases hd : services.dump value with
    | none =>
      rw [hd] at h
      cases h
      rfl
    | some text =>
      obtain ⟨sends,hsends⟩ := hrest text
      rw [hd,ok_bind,hsends] at h
      cases h
  cases reply with
  | answerJson origin body => exact hdump (fun _ => ⟨_,rfl⟩) h
  | answerTokens origin refreshToken accessToken nickname => exact hdump (fun _ => ⟨_,rfl⟩) h
  | sendError origin errorCode textError => exact hdump (fun _ => ⟨_,rfl⟩) h
  | answerEmpty origin => cases h
  | answerBinData origin type binData => cases h
  | answerOptions origin => cases h

/-- Sending either shows the reply or raises, and keeps the world. -/
theorem sendReply_run (reply : Reply) (world : σ) :
    sendReply services reply world=⟨.ok (),world,[.sent reply]⟩ ∨
      sendReply services reply world=⟨.error (.thrown .jsonType),world,[]⟩ := by
  unfold sendReply
  cases hr : reply.render (dumpText services.dump) with
  | error failure =>
    cases render_error services hr
    exact Or.inr (compute_error_bind_run rfl _ world)
  | ok sends =>
    rw [compute_ok_bind_run rfl]
    exact Or.inl rfl

/-- An access token is only ever rejected with one text. -/
theorem checkAccessToken_error {jwt : JwtLibrary} {token key : Bytes} {now : ℕ} {e : CxxException}
    (h : checkAccessToken jwt token key now=.error e) :
    e=.runtimeError "invalid access token" := by
  unfold checkAccessToken at h
  split at h <;> cases h
  rfl

/-- An accepted token is shown and handed on. -/
theorem acceptedSubject_ok {world : σ} {token id : Bytes}
    (h : checkAccessToken services.jwt token secret (services.now world)=.ok id) :
    acceptedSubject services token world=⟨.ok id,world,[.tokenAccepted token id]⟩ := by
  have hraise : raising (checkAccessToken services.jwt token secret (services.now world))=
      (compute (.ok id) : Handler σ Bytes) := by
    rw [h]
    rfl
  unfold acceptedSubject
  rw [bind_run_ok rfl,hraise,compute_ok_bind_run rfl]
  rfl

/-- A rejected token raises and shows nothing. -/
theorem acceptedSubject_error {world : σ} {token : Bytes} {e : CxxException}
    (h : checkAccessToken services.jwt token secret (services.now world)=.error e) :
    acceptedSubject services token world=⟨.error (.thrown e),world,[]⟩ := by
  have hraise : raising (checkAccessToken services.jwt token secret (services.now world))=
      (compute (.error (.thrown e)) : Handler σ Bytes) := by
    rw [h]
    rfl
  unfold acceptedSubject
  rw [bind_run_ok rfl,hraise,compute_error_bind_run rfl]
  rfl

/-- The check hands on the subject of an accepted token. -/
theorem checkAccesstoken_ok {world : σ} {origin token id : Bytes}
    (h : checkAccessToken services.jwt token secret (services.now world)=.ok id) :
    checkAccesstoken services origin token world=⟨.ok id,world,[.tokenAccepted token id]⟩ := by
  unfold checkAccesstoken attempt
  rw [acceptedSubject_ok services h]

/-- The check raises for a rejected token, after its error reply at most. -/
theorem checkAccesstoken_error (origin : Bytes) {world : σ} {token : Bytes} {e : CxxException}
    (h : checkAccessToken services.jwt token secret (services.now world)=.error e) :
    ∃ raised events,checkAccesstoken services origin token world=
      ⟨.error (.thrown raised),world,events⟩ ∧ ∀ event ∈ events,event=.sent (refusal origin) := by
  cases checkAccessToken_error h
  unfold checkAccesstoken attempt
  rw [acceptedSubject_error services h]
  dsimp only
  rw [if_neg (by decide),if_pos rfl]
  have hreply : Reply.sendError origin (ascii "401") (ascii "invalid access token")=refusal origin := rfl
  rw [hreply]
  rcases sendReply_run services (refusal origin) world with hs|hs
  · rw [bind_run_ok (by rw [hs]),hs]
    exact ⟨_,_,rfl,fun event hmem => List.mem_singleton.mp hmem⟩
  · rw [bind_run_error (by rw [hs]),hs]
    exact ⟨_,_,rfl,fun event hmem => absurd hmem List.not_mem_nil⟩

/-- Behind an accepted token a guarded case runs for its subject. -/
theorem guarded_ok {world : σ} {origin token id : Bytes} (body : Bytes → Handler σ Unit)
    (h : checkAccessToken services.jwt token secret (services.now world)=.ok id) :
    guarded services origin token body world=
      ⟨(body id world).outcome.map fun _ => .bottom,(body id world).world,
        .tokenAccepted token id::(body id world).events⟩ := by
  have hchecked : (attempt (checkAccesstoken services origin token>>=fun id => pure (some id))
      (fun _ => pure none) : Handler σ (Option Bytes)) world=
        ⟨.ok (some id),world,[.tokenAccepted token id]⟩ := by
    unfold attempt
    rw [bind_run_ok (by rw [checkAccesstoken_ok services h]),checkAccesstoken_ok services h]
    rfl
  unfold guarded
  rw [bind_run_ok (by rw [hchecked]),hchecked]
  dsimp only
  cases hbody : (body id world).outcome with
  | error failure =>
    rw [bind_run_error hbody]
    rfl
  | ok value =>
    rw [bind_run_ok hbody]
    simp [pure,Call.pure,Except.map]

/-- A rejected token makes a guarded case continue the loop after its error reply at most. -/
theorem guarded_error (origin : Bytes) {world : σ} {token : Bytes} {e : CxxException}
    (body : Bytes → Handler σ Unit)
    (h : checkAccessToken services.jwt token secret (services.now world)=.error e) :
    ∃ events,guarded services origin token body world=⟨.ok .continued,world,events⟩ ∧
      ∀ event ∈ events,event=.sent (refusal origin) := by
  obtain ⟨raised,events,hcheck,hsent⟩ := checkAccesstoken_error services origin h
  have hchecked : (attempt (checkAccesstoken services origin token>>=fun id => pure (some id))
      (fun _ => pure none) : Handler σ (Option Bytes)) world=⟨.ok none,world,events⟩ := by
    unfold attempt
    rw [bind_run_error (by rw [hcheck]),hcheck]
    simp [pure,Call.pure]
  refine ⟨events,?_,hsent⟩
  unfold guarded
  rw [bind_run_ok (by rw [hchecked]),hchecked]
  simp [pure,Call.pure]

end parts

section dispatching

variable {σ : Type} (services : Services σ)

/-- Events of a request that presents a token, or none: only open calls
without one; with one, replies, or the accepted token with its subject and
then calls on behalf of that subject. -/
def AccessEvents (required : Option Bytes) (world : σ) (events : List Event) : Prop :=
  match required with
  | none => ∀ event ∈ events,Behind none event
  | some token =>
    (∀ event ∈ events,IsSent event) ∨
      ∃ id rest,checkAccessToken services.jwt token secret (services.now world)=.ok id ∧
        events=.tokenAccepted token id::rest ∧ ∀ event ∈ rest,Behind (some id) event

/-- A guarded case shows its token first. -/
theorem guarded_events {origin token : Bytes} {body : Bytes → Handler σ Unit} (world : σ)
    (hbody : ∀ id,Emits (body id) (Behind (some id))) :
    AccessEvents services (some token) world (guarded services origin token body world).events := by
  cases hcheck : checkAccessToken services.jwt token secret (services.now world) with
  | error e =>
    obtain ⟨events,hrun,hsent⟩ := guarded_error services origin body hcheck
    rw [hrun]
    refine Or.inl fun event hmem => ?_
    rw [hsent event hmem]
    trivial
  | ok id =>
    rw [guarded_ok services body hcheck]
    exact Or.inr ⟨id,_,hcheck,rfl,(hbody id).events world⟩

/-- A guarded case continues the loop only when its token is rejected. -/
theorem guarded_continued {origin token : Bytes} {body : Bytes → Handler σ Unit} {world : σ}
    (h : (guarded services origin token body world).outcome=.ok .continued) :
    ∃ e,checkAccessToken services.jwt token secret (services.now world)=.error e := by
  cases hcheck : checkAccessToken services.jwt token secret (services.now world) with
  | error e => exact ⟨e,rfl⟩
  | ok id =>
    rw [guarded_ok services body hcheck] at h
    cases hbody : (body id world).outcome <;> simp [hbody,Except.map] at h

/-- The case of a guarded GET message acts for its subject. -/
theorem getCase_emits (getInfo : GetTInfo) (id : Bytes) (h : getInfo.msg≠.getNewToken) :
    Emits (getCase services getInfo id) (Behind (some id)) := by
  unfold getCase
  cases hmsg : getInfo.msg with
  | getNewToken => exact absurd hmsg h
  | getProfileByNickname => exact emits_answering services (emits_callAndReply services (by exact rfl) _)
  | getProfilePhoto => exact emits_answering services (emits_callAndReply services (by exact rfl) _)
  | getUsersList => exact emits_answering services (emits_callAndReply services (by exact rfl) _)
  | getPhotoById =>
    exact emits_answering services
      (emits_bind (emits_compute _ _) fun _ => emits_callAndReply services (by exact rfl) _)
  | makeFriend => exact emits_answering services (emits_callAndReply services (by exact rfl) _)
  | deleteFriend => exact emits_answering services (emits_callAndReply services (by exact rfl) _)
  | getStatus =>
    exact emits_answering services
      (emits_bind (emits_compute _ _) fun _ => emits_callAndReply services (by exact rfl) _)
  | getIdFsByAccess => exact emits_answering services (emits_sendReply services _ trivial)

/-- A renewal only makes the open call of the nickname. -/
theorem renewToken_emits (getInfo : GetTInfo) :
    Emits (renewToken services getInfo) (Behind none) := by
  refine emits_answering services (emits_bind (emits_readWorld _ _) fun now => ?_)
  refine emits_bind (emits_compute _ _) fun id => ?_
  refine emits_bind (emits_newToken services _ _ _) fun accessToken => ?_
  exact emits_callAndReply services (by exact rfl) _

/-- Every GET message but a renewal runs behind the token check. -/
theorem dispatchGet_guarded {getInfo : GetTInfo} (h : getInfo.msg≠.getNewToken) :
    dispatchGet services getInfo=
      guarded services getInfo.origin getInfo.accessToken (getCase services getInfo) := by
  unfold dispatchGet
  cases hmsg : getInfo.msg <;> first | exact absurd hmsg h | rfl

/-- Every GET message but a renewal has to present an access token. -/
theorem requiredToken_get {getInfo : GetTInfo} (h : getInfo.msg≠.getNewToken) :
    requiredToken (.get getInfo)=some getInfo.accessToken := by
  cases hmsg : getInfo.msg <;> first | exact absurd hmsg h | simp only [requiredToken,hmsg]

/-- A GET message acts for the subject of its token. -/
theorem dispatchGet_events (getInfo : GetTInfo) (world : σ) :
    AccessEvents services (requiredToken (.get getInfo)) world
      (dispatchGet services getInfo world).events := by
  by_cases hmsg : getInfo.msg=.getNewToken
  · unfold dispatchGet requiredToken
    dsimp only
    rw [hmsg]
    have hcase : getCase services getInfo []=renewToken services getInfo := by
      unfold getCase
      rw [hmsg]
    rw [hcase]
    exact (emits_bind (renewToken_emits services getInfo) fun _ => emits_pure _ _).events world
  · rw [dispatchGet_guarded services hmsg,requiredToken_get hmsg]
    exact guarded_events services world fun id => getCase_emits services getInfo id hmsg

/-- A POST message acts for the subject of its token. -/
theorem dispatchPost_events (postInfo : PostTInfo) (world : σ) :
    AccessEvents services (requiredToken (.post postInfo)) world
      (dispatchPost services postInfo world).events := by
  unfold dispatchPost requiredToken
  dsimp only
  cases postInfo.msg with
  | login =>
    refine (emits_bind (emits_answering services ?_) fun _ => emits_pure _ _).events world
    refine emits_bind (emits_compute _ _) fun login => ?_
    refine emits_bind (emits_compute _ _) fun password => ?_
    refine emits_bind (emits_callDb services _ (by exact rfl)) fun id => ?_
    refine emits_bind (emits_newToken services _ _ _) fun refreshToken => ?_
    refine emits_bind (emits_newToken services _ _ _) fun accessToken => ?_
    exact emits_callAndReply services (by exact rfl) _
  | registration =>
    exact (emits_bind (emits_answering services (emits_callAndReply services (by exact rfl) _))
      fun _ => emits_pure _ _).events world
  | updateProfilePhoto =>
    exact guarded_events services world fun id =>
      emits_answering services (emits_callAndReply services (by exact rfl) _)
  | updateProfileData =>
    exact guarded_events services world fun id =>
      emits_answering services (emits_callAndReply services (by exact rfl) _)
  | updateProfilePassword =>
    dsimp only
    cases hbody : postInfo.jsonBody.getString with
    | error failure =>
      rw [compute_error_bind_run rfl]
      exact Or.inl fun _ hmem => absurd hmem List.not_mem_nil
    | ok hashedPassword =>
      rw [compute_ok_bind_run rfl]
      exact guarded_events services world fun id =>
        emits_answering services (emits_callAndReply services (by exact rfl) _)

/-- A dispatched request acts for nobody but the subject of the token it presents. -/
theorem dispatch_events (info : HttpTypesInfo) (world : σ) :
    AccessEvents services (requiredToken info) world (dispatch services info world).events := by
  cases info with
  | monostate => exact fun _ hmem => absurd hmem List.not_mem_nil
  | options optionsInfo =>
    exact (emits_bind (emits_sendReply services _ trivial) fun _ => emits_pure _ _).events world
  | post postInfo => exact dispatchPost_events services postInfo world
  | get getInfo => exact dispatchGet_events services getInfo world

/-- The dispatcher continues the loop only when it rejected the token of a guarded message. -/
theorem dispatch_continued {info : HttpTypesInfo} {world : σ}
    (h : (dispatch services info world).outcome=.ok .continued) :
    ∃ token e,requiredToken info=some token ∧
      checkAccessToken services.jwt token secret (services.now world)=.error e := by
  have hunguarded : ∀ {first : Handler σ Unit},
      ((first>>=fun _ => pure Exit.bottom : Handler σ Exit) world).outcome≠.ok .continued := by
    intro first hrun
    have hyields : Yields (first>>=fun _ => pure Exit.bottom : Handler σ Exit) (·=.bottom) :=
      yields_bind fun _ => yields_pure rfl
    cases (hyields world trivial).2 _ hrun
  cases info with
  | monostate => cases h
  | options optionsInfo => exact absurd h hunguarded
  | post postInfo =>
    change (dispatchPost services postInfo world).outcome=_ at h
    unfold dispatchPost at h
    cases hmsg : postInfo.msg <;> rw [hmsg] at h <;> dsimp only at h
    case login => exact absurd h hunguarded
    case registration => exact absurd h hunguarded
    case updateProfilePhoto =>
      obtain ⟨e,he⟩ := guarded_continued services h
      exact ⟨_,e,by simp only [requiredToken,hmsg],he⟩
    case updateProfileData =>
      obtain ⟨e,he⟩ := guarded_continued services h
      exact ⟨_,e,by simp only [requiredToken,hmsg],he⟩
    case updateProfilePassword =>
      cases hbody : postInfo.jsonBody.getString with
      | error failure =>
        rw [hbody,compute_error_bind_run rfl] at h
        cases h
      | ok hashedPassword =>
        rw [hbody,compute_ok_bind_run rfl] at h
        obtain ⟨e,he⟩ := guarded_continued services h
        exact ⟨_,e,by simp only [requiredToken,hmsg],he⟩
  | get getInfo =>
    change (dispatchGet services getInfo world).outcome=_ at h
    by_cases hmsg : getInfo.msg=.getNewToken
    · unfold dispatchGet at h
      rw [hmsg] at h
      exact absurd h hunguarded
    · rw [dispatchGet_guarded services hmsg] at h
      obtain ⟨e,he⟩ := guarded_continued services h
      exact ⟨_,e,requiredToken_get hmsg,he⟩

end dispatching

end Photogram.AuthDispatch
