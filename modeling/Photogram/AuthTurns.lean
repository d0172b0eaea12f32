import Photogram.AuthGuard
import Photogram.AuthProcess
import Photogram.Causality

/-!
# What a turn asks of the database

A turn either only reads, or it makes one call that writes, and acknowledges it
exactly when the call has returned. The calls of a turn come up one after the
other: each depends on what those before it have found.
-/

namespace Photogram.AuthTurns

open CxxString EffectLog Causality JsonValue QueryString JwtToken AuthResponse AuthHttpParser
open AuthConnection AuthDispatch AuthGuard AuthReceive AuthStore AuthProcess

section calls

/-- The database call an event makes. -/
def asked : Event → Option DbCall
  | .dbCall call => some call
  | _ => none

/-- Database calls among the events, in order. -/
def calls (events : List Event) : List DbCall := questions asked events

/-- The answer to a write. -/
def acknowledges : Event → Bool
  | .sent (.answerEmpty _) => true
  | _ => false

/-- A call that cannot change the tables. -/
def Reading : DbCall → Prop
  | .addNewUser _ => False
  | call => ¬Writing call

/-- Events of a turn that only reads. -/
def ReadsOnly : Event → Prop
  | .dbCall call => Reading call
  | event => acknowledges event=false

/-- What the events of a turn ask of the database: nothing but reads; or one
call that writes, which is acknowledged when it returns. -/
def Asks (installation : Installation) (world : Surroundings) (events : List Event) : Prop :=
  (∀ event ∈ events,ReadsOnly event) ∨
    ∃ call,¬Reading call ∧ calls events=[call] ∧
      events.any acknowledges=(installation.services.call call world).1.isOk

variable {installation : Installation} {world : Surroundings} {events : List Event}

/-- Calls of events that only read. -/
theorem reading_of_calls (h : ∀ event ∈ events,ReadsOnly event) {call : DbCall}
    (hcall : call ∈ calls events) : Reading call := by
  obtain ⟨event,hmem,hasked⟩ := List.mem_filterMap.mp hcall
  cases event with
  | dbCall made =>
    cases hasked
    exact h _ hmem
  | _ => cases hasked

/-- They acknowledge nothing. -/
theorem unacknowledged (h : ∀ event ∈ events,ReadsOnly event) :
    events.any acknowledges=false := by
  refine List.any_eq_false.mpr fun event hmem => ?_
  have hreads := h event hmem
  cases event with
  | dbCall made => exact Bool.false_ne_true
  | _ => exact fun hnot => Bool.false_ne_true (hreads.symm.trans hnot)

/-- An event in front that is neither a call nor the answer to a write. -/
theorem Asks.behind (h : Asks installation world events) {event : Event} (hasked : asked event=none)
    (hanswer : acknowledges event=false) : Asks installation world (event::events) := by
  rcases h with h|⟨call,hwrites,hcalls,hdone⟩
  · refine Or.inl (List.forall_mem_cons.mpr ⟨?_,h⟩)
    cases event with
    | dbCall made => cases hasked
    | _ => exact hanswer
  · refine Or.inr ⟨call,hwrites,(List.filterMap_cons_none hasked).trans hcalls,?_⟩
    rw [List.any_cons,hanswer,Bool.false_or]
    exact hdone

end calls

section cases

variable (installation : Installation) {world : Surroundings}

/-- Sending a reply that acknowledges nothing only reads. -/
theorem readsOnly_sendReply {reply : Reply} (h : acknowledges (.sent reply)=false) :
    Emits (sendReply installation.services reply) ReadsOnly := emits_sendReply _ reply h

/-- A call that cannot change the tables, and its answer, only read. -/
theorem readsOnly_callAndReply (call : DbCall) (h : Reading call) {reply : call.Answer → Reply}
    (hreply : ∀ answer,acknowledges (.sent (reply answer))=false) :
    Emits (callDb installation.services call>>=fun answer =>
      sendReply installation.services (reply answer)) ReadsOnly :=
  emits_bind (emits_callDb _ call h) fun answer => readsOnly_sendReply installation (hreply answer)

/-- A case only reads when its body does. -/
theorem readsOnly_answering {origin : Bytes} {errors : CxxException → ErrorAnswer}
    {body : Handler Surroundings Unit} (h : Emits body ReadsOnly) :
    Emits (answering installation.services origin errors body) ReadsOnly :=
  emits_attempt h fun _ => readsOnly_sendReply installation rfl

/-- What a case that makes one call does: the call, and its answer sent; or an
error sent at most, for the exception of the call or of the answer. -/
theorem answering_call {σ : Type} (services : Services σ) (origin : Bytes)
    (errors : CxxException → ErrorAnswer) (call : DbCall) (reply : call.Answer → Reply) (world : σ) :
    let ran := answering services origin errors (callDb services call>>=fun answer =>
      sendReply services (reply answer)) world
    ran.world=(services.call call world).2 ∧
      ((∃ answer,(services.call call world).1=.ok answer ∧
          ran.events=[.dbCall call,.sent (reply answer)]) ∨
        ∃ e,((services.call call world).1=.error e ∨ e=.jsonType ∧ ∃ answer,
            (services.call call world).1=.ok answer ∧
            (reply answer).render (dumpText services.dump)=.error (.thrown .jsonType)) ∧
          ∃ back,ran.events=.dbCall call::back ∧
            ∀ event ∈ back,event=.sent (.sendError origin (errors e).1 (errors e).2)) := by
  intro ran
  have hcalled : callDb services call world=
      ⟨(services.call call world).1.mapError Failure.thrown,(services.call call world).2,
        [.dbCall call]⟩ := record_bind_run _ _ _
  have hran : ran=attempt (callDb services call>>=fun answer => sendReply services (reply answer))
      (fun e => sendReply services (.sendError origin (errors e).1 (errors e).2)) world := rfl
  have hback : ∀ e,∃ outcome back,sendReply services (.sendError origin (errors e).1 (errors e).2)
      (services.call call world).2=⟨outcome,(services.call call world).2,back⟩ ∧
        ∀ event ∈ back,event=.sent (.sendError origin (errors e).1 (errors e).2) := by
    intro e
    rcases sendReply_run services (.sendError origin (errors e).1 (errors e).2)
      (services.call call world).2 with hs|hs
    · exact ⟨_,_,hs,fun event hmem => List.mem_singleton.mp hmem⟩
    · exact ⟨_,_,hs,fun _ hmem => absurd hmem List.not_mem_nil⟩
  unfold attempt at hran
  dsimp only at hran
  cases hanswer : (services.call call world).1 with
  | ok answer =>
    have hok : (callDb services call world).outcome=.ok answer := by
      rw [hcalled,hanswer]
      rfl
    rw [bind_run_ok hok,hcalled] at hran
    dsimp only at hran
    unfold sendReply at hran
    cases hrender : (reply answer).render (dumpText services.dump) with
    | ok sends =>
      rw [hrender,compute_ok_bind_run rfl] at hran
      rw [hran]
      exact ⟨rfl,Or.inl ⟨answer,rfl,rfl⟩⟩
    | error failure =>
      cases render_error services hrender
      rw [hrender,compute_error_bind_run rfl] at hran
      obtain ⟨outcome,back,hsent,hevents⟩ := hback .jsonType
      unfold sendReply at hsent
      dsimp only at hran
      rw [hsent] at hran
      rw [hran]
      exact ⟨rfl,Or.inr ⟨.jsonType,Or.inr ⟨rfl,answer,rfl,hrender⟩,back,rfl,hevents⟩⟩
  | error e =>
    have herror : (callDb services call world).outcome=.error (.thrown e) := by
      rw [hcalled,hanswer]
      rfl
    obtain ⟨outcome,back,hsent,hevents⟩ := hback e
    rw [bind_run_error herror,hcalled] at hran
    dsimp only at hran
    rw [hsent] at hran
    rw [hran]
    exact ⟨rfl,Or.inr ⟨e,Or.inl rfl,back,rfl,hevents⟩⟩

/-- A case that is left at the bottom of the loop does what its body does. -/
theorem bottom_run {σ : Type} (body : Handler σ Unit) (world : σ) :
    ((body>>=fun _ => pure Exit.bottom) world).world=(body world).world ∧
      ((body>>=fun _ => pure Exit.bottom) world).events=(body world).events := by
  cases hout : (body world).outcome with
  | error failure =>
    rw [bind_run_error hout]
    exact ⟨rfl,rfl⟩
  | ok value =>
    rw [bind_run_ok hout]
    exact ⟨rfl,List.append_nil _⟩

/-- A case with a write acknowledges it exactly when it has returned. -/
theorem asks_write (origin : Bytes) (errors : CxxException → ErrorAnswer) {call : DbCall}
    (hwrites : ¬Reading call) :
    Asks installation world (answering installation.services origin errors
      (callDb installation.services call>>=fun _ =>
        sendReply installation.services (.answerEmpty origin)) world).events := by
  refine Or.inr ⟨call,hwrites,?_⟩
  obtain ⟨_,⟨answer,hok,hevents⟩|⟨e,hfailed,back,hevents,hback⟩⟩ :=
    answering_call installation.services origin errors call (fun _ => .answerEmpty origin) world
  · rw [hevents,hok]
    exact ⟨rfl,rfl⟩
  · have hraised : (installation.services.call call world).1.isOk=false := by
      rcases hfailed with herror|⟨_,_,_,hrender⟩
      · exact congrArg Except.isOk herror
      · cases hrender
    have hcalls : calls back=[] := by
      refine List.filterMap_eq_nil_iff.mpr fun event hmem => ?_
      rw [hback event hmem]
      rfl
    have hnone : back.any acknowledges=false := by
      refine List.any_eq_false.mpr fun event hmem => ?_
      rw [hback event hmem]
      exact Bool.false_ne_true
    rw [hevents,hraised]
    exact ⟨congrArg (call::·) hcalls,hnone⟩

/-- A guarded case asks what its body asks. -/
theorem asks_guarded {origin token : Bytes} {body : Bytes → Handler Surroundings Unit}
    (h : ∀ id,Asks installation world (body id world).events) :
    Asks installation world (guarded installation.services origin token body world).events := by
  cases hcheck : checkAccessToken installation.jwt token secret (installation.services.now world) with
  | error e =>
    obtain ⟨events,hrun,hsent⟩ := guarded_error installation.services origin body hcheck
    rw [hrun]
    refine Or.inl fun event hmem => ?_
    rw [hsent event hmem]
    rfl
  | ok id =>
    rw [guarded_ok installation.services body hcheck]
    exact (h id).behind rfl rfl

/-- What a POST message asks. -/
theorem asks_post (postInfo : PostTInfo) :
    Asks installation world (dispatchPost installation.services postInfo world).events := by
  unfold dispatchPost
  cases hmsg : postInfo.msg with
  | login =>
    dsimp only
    refine Or.inl ((emits_bind (readsOnly_answering installation ?_) fun _ =>
      emits_pure _ _).events world)
    exact emits_bind (emits_compute _ _) fun _ => emits_bind (emits_compute _ _) fun _ =>
      emits_bind (emits_callDb _ _ False.elim) fun id =>
      emits_bind (emits_newToken _ _ _ _) fun _ => emits_bind (emits_newToken _ _ _ _) fun _ =>
      readsOnly_callAndReply installation (.getNicknameById id) False.elim fun _ => rfl
  | registration =>
    dsimp only
    rw [(bottom_run _ world).2]
    exact asks_write installation _ _ (fun h : Reading (.addNewUser postInfo) => h)
  | updateProfilePhoto =>
    exact asks_guarded installation fun id => asks_write installation _ _ fun h => h trivial
  | updateProfileData =>
    exact asks_guarded installation fun id => asks_write installation _ _ fun h => h trivial
  | updateProfilePassword =>
    dsimp only
    cases hpassword : postInfo.jsonBody.getString with
    | error failure =>
      rw [compute_error_bind_run rfl]
      exact Or.inl fun _ hmem => absurd hmem List.not_mem_nil
    | ok hashedPassword =>
      rw [compute_ok_bind_run rfl]
      exact asks_guarded installation fun id => asks_write installation _ _ fun h => h trivial

/-- What a GET message asks. -/
theorem asks_get (getInfo : GetTInfo) (id : Bytes) :
    Asks installation world (getCase installation.services getInfo id world).events := by
  unfold getCase
  cases hmsg : getInfo.msg with
  | getNewToken =>
    refine Or.inl ((readsOnly_answering installation ?_).events world)
    exact emits_bind (emits_readWorld _ _) fun _ => emits_bind (emits_compute _ _) fun id =>
      emits_bind (emits_newToken _ _ _ _) fun _ =>
      readsOnly_callAndReply installation (.getNicknameById id) False.elim fun _ => rfl
  | getProfileByNickname =>
    exact Or.inl ((readsOnly_answering installation (readsOnly_callAndReply installation
      (.getProfileInformation _) False.elim fun _ => rfl)).events world)
  | getProfilePhoto =>
    exact Or.inl ((readsOnly_answering installation (readsOnly_callAndReply installation
      (.getProfilePhoto _) False.elim fun _ => rfl)).events world)
  | getUsersList =>
    exact Or.inl ((readsOnly_answering installation (readsOnly_callAndReply installation
      (.getUsers _ id) False.elim fun _ => rfl)).events world)
  | getPhotoById =>
    exact Or.inl ((readsOnly_answering installation (emits_bind (emits_compute _ _) fun _ =>
      readsOnly_callAndReply installation (.getPhotoById _) False.elim fun _ => rfl)).events world)
  | makeFriend => exact asks_write installation _ _ fun h => h trivial
  | deleteFriend => exact asks_write installation _ _ fun h => h trivial
  | getStatus =>
    exact Or.inl ((readsOnly_answering installation (emits_bind (emits_compute _ _) fun _ =>
      readsOnly_callAndReply installation (.getStatus id _) False.elim fun _ => rfl)).events world)
  | getIdFsByAccess =>
    exact Or.inl ((readsOnly_answering installation
      (readsOnly_sendReply installation rfl)).events world)

/-- What a request asks. -/
theorem asks_dispatch (info : HttpTypesInfo) :
    Asks installation world (dispatch installation.services info world).events := by
  cases info with
  | monostate => exact Or.inl fun _ hmem => absurd hmem List.not_mem_nil
  | options optionsInfo =>
    refine Or.inl (Emits.events ?_ world)
    exact emits_bind (readsOnly_sendReply installation rfl) fun _ => emits_pure _ _
  | post postInfo => exact asks_post installation postInfo
  | get getInfo =>
    change Asks installation world (dispatchGet installation.services getInfo world).events
    by_cases hmsg : getInfo.msg=.getNewToken
    · unfold dispatchGet
      rw [hmsg]
      dsimp only
      rw [(bottom_run _ world).2]
      exact asks_get installation getInfo []
    · rw [dispatchGet_guarded installation.services hmsg]
      exact asks_guarded installation fun id => asks_get installation getInfo id

/-- A turn only reads, or it makes one call that writes and acknowledges it
exactly when the call has returned. -/
theorem asks_turn (buffer chunk : Bytes) :
    Asks installation world (turn installation.services buffer chunk world).events := by
  rcases turn_events installation.services buffer chunk world with hjudged|⟨info,_,_,hevents⟩
  · refine Or.inl fun event hmem => ?_
    rcases hjudged event hmem with rfl|rfl
    · rfl
    · rfl
  · rw [hevents]
    exact (asks_dispatch installation info).behind rfl rfl

end cases

section order

/-- What two turns find is the same up to a call. -/
def Agree (count : ℕ) (world other : Surroundings) : Prop :=
  other.coming=world.coming ∧ ∀ number<count,other.found number=world.found number

/-- A turn of which the next call depends on what its calls before have found. -/
abbrev Ordered {α : Type} (handler : Handler Surroundings α) : Prop := Causal asked Agree handler

variable (installation : Installation)

/-- Sending a reply asks nothing. -/
theorem ordered_sendReply (reply : Reply) : Ordered (sendReply installation.services reply) :=
  causal_bind (causal_compute _) fun _ => causal_record rfl

/-- The clock is the same. -/
theorem ordered_now : Ordered (readWorld installation.services.now) :=
  causal_readWorld fun _ world other h => by
    change (other.coming 0).2=(world.coming 0).2
    rw [h.1]

/-- So are the tokens. -/
theorem ordered_newToken (create : JwtLibrary → Bytes → Bytes → ℕ → Except CxxException Bytes)
    (id : Bytes) : Ordered (newToken installation.services create id) :=
  causal_bind (ordered_now installation) fun _ => causal_compute _

/-- A call is answered from the tables it finds. -/
theorem ordered_callDb (call : DbCall) : Ordered (callDb installation.services call) := by
  refine causal_ask (show asked (.dbCall call)=some call from rfl) fun count world other hagree => ?_
  obtain ⟨hcoming,hfound⟩ := hagree
  have hfirst := hfound 0 (Nat.succ_pos count)
  refine ⟨?_,?_,fun number hnumber => hfound (number+1) (Nat.succ_lt_succ hnumber)⟩
  · change (callStore installation.dialect (other.coming 0).1 call (other.found 0)).1=_
    rw [hcoming,hfirst]
    rfl
  · change (fun number => other.coming (number+1))=fun number => world.coming (number+1)
    rw [hcoming]

/-- A call and its answer. -/
theorem ordered_callAndReply (call : DbCall) (reply : call.Answer → Reply) :
    Ordered (callDb installation.services call>>=fun answer =>
      sendReply installation.services (reply answer)) :=
  causal_bind (ordered_callDb installation call) fun _ => ordered_sendReply installation _

/-- A case is ordered when its body is. -/
theorem ordered_answering {origin : Bytes} {errors : CxxException → ErrorAnswer}
    {body : Handler Surroundings Unit} (h : Ordered body) :
    Ordered (answering installation.services origin errors body) :=
  causal_attempt h fun _ => ordered_sendReply installation _

/-- So is the check of a token. -/
theorem ordered_checkAccesstoken (origin token : Bytes) :
    Ordered (checkAccesstoken installation.services origin token) := by
  refine causal_attempt (causal_bind (ordered_now installation) fun _ =>
    causal_bind (causal_compute _) fun _ => causal_bind (causal_record rfl) fun _ => causal_pure _)
    fun e => ?_
  have hsent : ∀ reply,Ordered (sendReply installation.services reply>>=fun _ =>
      (compute (.error (.thrown e)) : Handler Surroundings Bytes)) := fun reply =>
    causal_bind (ordered_sendReply installation reply) fun _ => causal_compute _
  dsimp only
  split
  · refine causal_bind (ordered_sendReply installation _) fun _ => ?_
    split <;> exact hsent _
  · split <;> exact hsent _

/-- A guarded case is ordered when its body is. -/
theorem ordered_guarded {origin token : Bytes} {body : Bytes → Handler Surroundings Unit}
    (h : ∀ id,Ordered (body id)) : Ordered (guarded installation.services origin token body) := by
  refine causal_bind (causal_attempt (causal_bind (ordered_checkAccesstoken installation _ _)
    fun _ => causal_pure _) fun _ => causal_pure _) fun checked => ?_
  cases checked with
  | none => exact causal_pure _
  | some id => exact causal_bind (h id) fun _ => causal_pure _

/-- A case with a write is ordered. -/
theorem ordered_write (origin : Bytes) (errors : CxxException → ErrorAnswer) (call : DbCall) :
    Ordered (answering installation.services origin errors (callDb installation.services call>>=
      fun _ => sendReply installation.services (.answerEmpty origin))) :=
  ordered_answering installation (ordered_callAndReply installation call _)

/-- Every POST message is ordered. -/
theorem ordered_post (postInfo : PostTInfo) :
    Ordered (dispatchPost installation.services postInfo) := by
  unfold dispatchPost
  cases postInfo.msg with
  | login =>
    refine causal_bind (ordered_answering installation ?_) fun _ => causal_pure _
    exact causal_bind (causal_compute _) fun _ => causal_bind (causal_compute _) fun _ =>
      causal_bind (ordered_callDb installation _) fun _ =>
      causal_bind (ordered_newToken installation _ _) fun _ =>
      causal_bind (ordered_newToken installation _ _) fun _ =>
      ordered_callAndReply installation _ _
  | registration =>
    exact causal_bind (ordered_write installation _ _ _) fun _ => causal_pure _
  | updateProfilePhoto =>
    exact ordered_guarded installation fun id => ordered_write installation _ _ _
  | updateProfileData =>
    exact ordered_guarded installation fun id => ordered_write installation _ _ _
  | updateProfilePassword =>
    exact causal_bind (causal_compute _) fun _ =>
      ordered_guarded installation fun id => ordered_write installation _ _ _

/-- Every GET message is ordered. -/
theorem ordered_get (getInfo : GetTInfo) (id : Bytes) :
    Ordered (getCase installation.services getInfo id) := by
  unfold getCase
  cases getInfo.msg with
  | getNewToken =>
    refine ordered_answering installation (causal_bind (ordered_now installation) fun _ => ?_)
    exact causal_bind (causal_compute _) fun _ =>
      causal_bind (ordered_newToken installation _ _) fun _ => ordered_callAndReply installation _ _
  | getProfileByNickname =>
    exact ordered_answering installation (ordered_callAndReply installation _ _)
  | getProfilePhoto => exact ordered_answering installation (ordered_callAndReply installation _ _)
  | getUsersList => exact ordered_answering installation (ordered_callAndReply installation _ _)
  | getPhotoById =>
    exact ordered_answering installation (causal_bind (causal_compute _) fun _ =>
      ordered_callAndReply installation _ _)
  | makeFriend => exact ordered_write installation _ _ _
  | deleteFriend => exact ordered_write installation _ _ _
  | getStatus =>
    exact ordered_answering installation (causal_bind (causal_compute _) fun _ =>
      ordered_callAndReply installation _ _)
  | getIdFsByAccess => exact ordered_answering installation (ordered_sendReply installation _)

/-- Every request is ordered. -/
theorem ordered_dispatch (info : HttpTypesInfo) : Ordered (dispatch installation.services info) := by
  cases info with
  | monostate => exact causal_pure _
  | options optionsInfo =>
    exact causal_bind (ordered_sendReply installation _) fun _ => causal_pure _
  | post postInfo => exact ordered_post installation postInfo
  | get getInfo =>
    change Ordered (dispatchGet installation.services getInfo)
    by_cases hmsg : getInfo.msg=.getNewToken
    · unfold dispatchGet
      rw [hmsg]
      exact causal_bind (ordered_get installation getInfo []) fun _ => causal_pure _
    · rw [dispatchGet_guarded installation.services hmsg]
      exact ordered_guarded installation fun id => ordered_get installation getInfo id

/-- The next call of a turn depends on what its calls before have found. -/
theorem ordered_turn (buffer chunk : Bytes) :
    Ordered (turn installation.services buffer chunk) := by
  refine causal_bind (causal_compute _) fun request => causal_bind (causal_compute _) fun answer => ?_
  split
  · exact causal_bind (causal_record rfl) fun _ => causal_pure _
  · exact causal_bind (causal_record rfl) fun _ => causal_pure _
  · exact causal_bind (causal_record rfl) fun _ => causal_pure _
  · exact causal_bind (causal_record rfl) fun _ =>
      causal_bind (ordered_dispatch installation _) fun _ => causal_pure _

end order

end Photogram.AuthTurns
