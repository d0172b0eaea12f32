import Photogram.ContentHandlers
import Photogram.TwoServers

/-!
# Served once

However the receives, writes and callbacks of all connections are ordered, a
connection of the content server handles one request, invokes one callback
behind it, and so runs one operation and answers once. The state of its
inquiry tells how much of this has happened already.
-/

namespace Photogram.ServedOnce

open CxxString EffectLog AuthConnection AnotherServerConnection ContentConnection ContentHandlers
open ServerInquiry Schedule TwoServers

/-- The event is a call of the database client. -/
def isOperation : ContentEvent → Bool
  | .operation _ => true
  | .responded _ => false

section callbacks

variable {τ : Type} (services : ContentServices τ)

/-- Calling an operation calls one. -/
theorem atMost_operate (op : DbOperation) : AtMost isOperation (operate services op) 1 :=
  atMost_bind (atMost_record _) fun _ => atMost_act _

/-- The target of a GET calls one operation at most. -/
theorem atMost_getTarget (request : ClientRequest) (id : Bytes) :
    AtMost isOperation (getTarget services request id) 1 := by
  unfold getTarget
  split
  · exact (atMost_pure _).mono (Nat.zero_le 1)
  split
  · exact atMost_bind (atMost_compute _) fun _ => atMost_bind (atMost_operate services _) fun _ =>
      atMost_bind (atMost_compute _) fun _ => atMost_pure _
  split
  · exact atMost_bind (atMost_compute _) fun _ => atMost_bind (atMost_operate services _) fun _ =>
      atMost_bind (atMost_compute _) fun _ => atMost_pure _
  split
  · exact atMost_bind (atMost_compute _) fun _ => atMost_bind (atMost_operate services _) fun _ =>
      atMost_pure _
  · exact (atMost_pure _).mono (Nat.zero_le 1)

/-- So does the target of a POST. -/
theorem atMost_postTarget (request : ClientRequest) (id : Bytes) :
    AtMost isOperation (postTarget services request id) 1 := by
  unfold postTarget
  split
  · exact atMost_bind (atMost_compute _) fun data => atMost_operate services (.addNewPost id data)
  split
  · exact atMost_bind (atMost_compute _) fun urlStrArg =>
      atMost_operate services (.delPostById (QueryString.property urlStrArg (ascii "post_id")) id)
  split
  · exact atMost_bind (atMost_compute _) fun urlStrArg =>
      atMost_operate services (.likeClicked (QueryString.property urlStrArg (ascii "post_id")) id)
  · exact (atMost_pure _).mono (Nat.zero_le 1)

/-- Sending an answer calls no operation. -/
theorem atMost_respond (response : Response) :
    AtMost isOperation (respond response : Call τ ContentEvent Unit) 0 := atMost_record _

/-- The callback calls one operation at most. -/
theorem atMost_onGetId (request : ClientRequest) (id : Bytes) :
    AtMost isOperation (onGetId services request id) 1 := by
  have hserve : AtMost isOperation (serveTarget services request id) 1 := by
    unfold serveTarget
    cases request.method with
    | get =>
      exact atMost_bind (atMost_act _) fun _ =>
        atMost_bind (atMost_attempt (atMost_getTarget services request id) fun _ => atMost_pure _)
          atMost_respond
    | post =>
      refine atMost_bind (atMost_attempt ?_ fun _ => atMost_pure _) atMost_respond
      exact atMost_bind (atMost_act _) fun _ =>
        atMost_bind (atMost_postTarget services request id) fun _ => atMost_pure _
    | options => exact (atMost_pure _).mono (Nat.zero_le 1)
    | other => exact (atMost_pure _).mono (Nat.zero_le 1)
  unfold onGetId
  split
  · exact (atMost_respond _).mono (Nat.zero_le 1)
  split
  · exact (atMost_respond _).mono (Nat.zero_le 1)
  split
  · exact (atMost_respond _).mono (Nat.zero_le 1)
  · exact hserve

/-- The callback answers once at most. -/
theorem atMost_onGetId_response (request : ClientRequest) (id : Bytes) :
    AtMost isResponse (onGetId services request id) 1 := by
  have hserve : AtMost isResponse (serveTarget services request id) 1 := by
    unfold serveTarget
    cases hmethod : request.method with
    | get =>
      exact atMost_bind (atMost_act _) fun _ =>
        (delivers_answered request (attempts_getTarget services request id)).attempts.atMost
    | post =>
      have hpost := delivers_serveTarget_post services hmethod id
      unfold serveTarget at hpost
      rw [hmethod] at hpost
      exact hpost.attempts.atMost
    | options => exact (atMost_pure _).mono (Nat.zero_le 1)
    | other => exact (atMost_pure _).mono (Nat.zero_le 1)
  unfold onGetId
  split
  · exact (delivers_respond _).attempts.atMost
  split
  · exact (delivers_respond _).attempts.atMost
  split
  · exact (delivers_respond _).attempts.atMost
  · exact hserve

/-- Handling a request answers once at most, and not when an inquiry follows. -/
theorem handleRequest_shown (request : ClientRequest) (world : τ) :
    let ran := handleRequest services request world
    ran.events.countP isResponse ≤ 1 ∧ (ran.outcome=.ok true → ran.events=[]) := by
  unfold handleRequest
  cases request.method with
  | options => exact ⟨Nat.le_refl 1,nofun⟩
  | get =>
    dsimp only
    cases hout : (act services.connect world : Ran τ ContentEvent Unit).outcome with
    | error failure =>
      rw [bind_run_error hout]
      exact ⟨Nat.zero_le 1,nofun⟩
    | ok value =>
      rw [bind_run_ok hout]
      exact ⟨Nat.zero_le 1,fun _ => rfl⟩
  | post => exact ⟨Nat.zero_le 1,fun _ => rfl⟩
  | other => exact ⟨Nat.zero_le 1,nofun⟩

end callbacks

section steps

variable {σ τ : Type}

/-- Everything a step of the servers can do, with what makes it possible. -/
inductive Stepped (env : Environment σ τ) (servers : Servers σ) :
    Action σ τ → Servers σ → Prop where
  /-- Bytes are on their way. -/
  | sent (client : ℕ) (bytes : Bytes) :
    Stepped env servers (.sends client bytes)
      {servers with
        links := Function.update servers.links (.client client)
          {servers.links (.client client) with
            inflight := (servers.links (.client client)).inflight++bytes}}
  /-- A turn over received bytes. -/
  | served (peer : Peer) (count : ℕ) (world : σ) (hopen : (servers.links peer).ended=false)
    (hpos : 0<count) (hcount : count ≤ (servers.links peer).inflight.length)
    (hbuffer : count ≤ bufferSize) :
    Stepped env servers (.receives peer count world)
      {servers with
        links := Function.update servers.links peer ((servers.links peer).served count
          (turn env.auth (servers.links peer).buffer ((servers.links peer).inflight.take count)
            world))
        log := .turn peer
          ((servers.links peer).buffer++(servers.links peer).inflight.take count) world
          (turn env.auth (servers.links peer).buffer ((servers.links peer).inflight.take count)
            world).events::servers.log}
  /-- The first request of a connection is handled. -/
  | asked (number : ℕ) (request : ClientRequest) (world : τ)
    (hidle : servers.inquiries number=.idle) :
    Stepped env servers (.asks number request world)
      {servers with
        inquiries := Function.update servers.inquiries number
          (inquiryAfter request (handleRequest env.content request world).outcome)
        log := .handled number request (handleRequest env.content request world).events::servers.log}
  /-- An inquiry is written. -/
  | written (number : ℕ) (request : ClientRequest)
    (hasking : servers.inquiries number=.asking request) :
    Stepped env servers (.writes number)
      {servers with
        links := Function.update servers.links (.content number)
          (.opened (request.inquiry env.userAgent))
        inquiries := Function.update servers.inquiries number (.awaiting request)}
  /-- An inquiry fails while it is written. -/
  | broken (number count : ℕ) (request : ClientRequest)
    (hasking : servers.inquiries number=.asking request) :
    Stepped env servers (.breaks number count)
      {servers with
        links := Function.update servers.links (.content number)
          (.opened ((request.inquiry env.userAgent).take count))
        inquiries := Function.update servers.inquiries number .rest}
  /-- An inquiry fails later, or its reply leads to no verdict. -/
  | dropped (number : ℕ) (action : Action σ τ) (request : ClientRequest)
    (hsends : ∀ client bytes,action≠.sends client bytes)
    (hawaiting : servers.inquiries number=.awaiting request) :
    Stepped env servers action
      {servers with inquiries := Function.update servers.inquiries number .rest}
  /-- The callback acts on the verdict of the first reply. -/
  | called (number : ℕ) (world : τ) (request : ClientRequest) (reply : AuthResponse.Reply)
    (later : List AuthResponse.Reply) (serverReply : ServerReply) (id : Bytes)
    (hawaiting : servers.inquiries number=.awaiting request)
    (hreplies : (servers.links (.content number)).replies=reply::later)
    (hdelivered : delivered env.auth.dump reply=some serverReply)
    (hverdict : verdict env.content.jsonParse serverReply=.ok id) :
    Stepped env servers (.reads number world)
      {servers with
        inquiries := Function.update servers.inquiries number .rest
        log := .called number request id (onGetId env.content request id world).events::servers.log}

/-- A step is one of these. -/
theorem stepped_of_step {env : Environment σ τ} {servers next : Servers σ} {action : Action σ τ}
    (h : step env servers action=some next) : Stepped env servers action next := by
  unfold step at h
  cases action with
  | sends client bytes =>
    cases h
    exact .sent client bytes
  | receives peer count world =>
    dsimp only at h
    split at h
    · next hready =>
      obtain ⟨hopen,hpos,hcount,hbuffer⟩ := hready
      cases h
      exact .served peer count world hopen hpos hcount hbuffer
    · cases h
  | asks number request world =>
    dsimp only at h
    split at h
    · next hidle =>
      cases h
      exact .asked number request world hidle
    · cases h
  | writes number =>
    dsimp only at h
    split at h
    · next request hasking =>
      cases h
      exact .written number request hasking
    · cases h
  | breaks number count =>
    dsimp only at h
    split at h
    · next request hasking =>
      cases h
      exact .broken number count request hasking
    · next request hawaiting =>
      cases h
      exact .dropped number _ request nofun hawaiting
    · cases h
  | reads number world =>
    dsimp only at h
    split at h
    · next request reply later hawaiting hreplies =>
      obtain ⟨serverReply,hdelivered,h⟩ := Option.bind_eq_some_iff.mp h
      split at h
      · next id hverdict =>
        cases h
        exact .called number world request reply later serverReply id hawaiting hreplies hdelivered
          hverdict
      · cases h
        exact .dropped number _ request nofun hawaiting
    · cases h

end steps

section entries

variable {σ : Type}

/-- The entry is about a connection of the content server. -/
def isAbout (number : ℕ) : Entry σ → Bool
  | .turn _ _ _ _ => false
  | .handled other _ _ => other==number
  | .called other _ _ _ => other==number

/-- What a log keeps of a connection, the latest first. -/
def about (number : ℕ) (log : List (Entry σ)) : List (Entry σ) := log.filter (isAbout number)

/-- What the content server shows in an entry. -/
def shown : Entry σ → List ContentEvent
  | .turn _ _ _ _ => []
  | .handled _ _ events => events
  | .called _ _ _ events => events

/-- Events of a kind in a log that belong to a connection. -/
def total (counted : ContentEvent → Bool) (number : ℕ) (log : List (Entry σ)) : ℕ :=
  ((about number log).flatMap shown).countP counted

/-- All a connection shows of a request: what its handler shows without an
inquiry, or what its callback shows behind a handler that shows nothing. -/
inductive Over (number : ℕ) (request : ClientRequest) : List (Entry σ) → Prop where
  /-- No callback was invoked. -/
  | handled (events : List ContentEvent) (hoperation : events.countP isOperation=0)
    (hresponse : events.countP isResponse ≤ 1) : Over number request [.handled number request events]
  /-- The callback was invoked. -/
  | called (id : Bytes) (events : List ContentEvent) (hoperation : events.countP isOperation ≤ 1)
    (hresponse : events.countP isResponse ≤ 1) :
    Over number request [.called number request id events,.handled number request []]

/-- What a connection has shown, by the state of its inquiry. -/
def Told (number : ℕ) (entries : List (Entry σ)) : Inquiry → Prop
  | .idle => entries=[]
  | .asking request => entries=[.handled number request []]
  | .awaiting request => entries=[.handled number request []]
  | .rest => ∃ request,Over number request entries

/-- Whatever the state, one operation and one answer have been shown at most. -/
theorem Told.total_le {number : ℕ} {log : List (Entry σ)} {inquiry : Inquiry}
    (h : Told number (about number log) inquiry) :
    total isOperation number log ≤ 1 ∧ total isResponse number log ≤ 1 := by
  unfold total
  cases inquiry with
  | idle =>
    rw [show about number log=[] from h]
    exact ⟨Nat.zero_le 1,Nat.zero_le 1⟩
  | asking request =>
    rw [show about number log=_ from h]
    exact ⟨Nat.zero_le 1,Nat.zero_le 1⟩
  | awaiting request =>
    rw [show about number log=_ from h]
    exact ⟨Nat.zero_le 1,Nat.zero_le 1⟩
  | rest =>
    obtain ⟨request,hover⟩ := h
    generalize about number log=entries at hover ⊢
    cases hover with
    | handled events hoperation hresponse =>
      rw [List.flatMap_singleton]
      exact ⟨hoperation.le.trans (Nat.zero_le 1),hresponse⟩
    | called id events hoperation hresponse =>
      change ((events++([]++[]) : List ContentEvent).countP isOperation ≤ 1) ∧
        (events++([]++[]) : List ContentEvent).countP isResponse ≤ 1
      rw [List.append_nil,List.append_nil]
      exact ⟨hoperation,hresponse⟩

end entries

section runs

variable {σ τ : Type} {env : Environment σ τ} {servers next : Servers σ}

/-- What a step of the servers does to one connection of the content server. -/
inductive Advanced (env : Environment σ τ) (servers next : Servers σ) (number : ℕ) : Prop where
  /-- Nothing. -/
  | stayed (hinquiry : next.inquiries number=servers.inquiries number)
    (habout : about number next.log=about number servers.log)
  /-- Its request is handled. -/
  | handled (request : ClientRequest) (world : τ) (hidle : servers.inquiries number=.idle)
    (hinquiry : next.inquiries number=
      inquiryAfter request (handleRequest env.content request world).outcome)
    (habout : about number next.log=.handled number request
      (handleRequest env.content request world).events::about number servers.log)
  /-- Its inquiry is written. -/
  | written (request : ClientRequest) (hasking : servers.inquiries number=.asking request)
    (hinquiry : next.inquiries number=.awaiting request)
    (habout : about number next.log=about number servers.log)
  /-- Its inquiry ends without a callback. -/
  | ended (request : ClientRequest)
    (hpending : servers.inquiries number=.asking request ∨ servers.inquiries number=.awaiting request)
    (hinquiry : next.inquiries number=.rest)
    (habout : about number next.log=about number servers.log)
  /-- Its callback is invoked. -/
  | called (request : ClientRequest) (id : Bytes) (world : τ)
    (hawaiting : servers.inquiries number=.awaiting request)
    (hinquiry : next.inquiries number=.rest)
    (habout : about number next.log=
      .called number request id (onGetId env.content request id world).events::
        about number servers.log)

/-- An entry about the connection stays in front. -/
theorem about_cons {number : ℕ} {entry : Entry σ} (log : List (Entry σ))
    (h : isAbout number entry=true) : about number (entry::log)=entry::about number log :=
  List.filter_cons_of_pos h

/-- An entry about something else is left out. -/
theorem about_cons_other {number : ℕ} {entry : Entry σ} (log : List (Entry σ))
    (h : isAbout number entry=false) : about number (entry::log)=about number log :=
  List.filter_cons_of_neg (by rw [h]; exact Bool.false_ne_true)

/-- A step advances the connection it is about and leaves the others. -/
theorem step_advanced {action : Action σ τ} (hstep : step env servers action=some next)
    (number : ℕ) : Advanced env servers next number := by
  have hother : ∀ {other : ℕ} {links : Peer → Link} {inquiry : Inquiry} {log : List (Entry σ)},
      other≠number → about number log=about number servers.log →
        Advanced env servers ⟨links,Function.update servers.inquiries other inquiry,log⟩ number :=
    fun hne habout => .stayed (Function.update_of_ne (Ne.symm hne) _ _) habout
  cases stepped_of_step hstep with
  | sent client bytes => exact .stayed rfl rfl
  | served peer count world hopen hpos hcount hbuffer => exact .stayed rfl rfl
  | asked other request world hidle =>
    by_cases hne : other=number
    · cases hne
      exact .handled request world hidle (Function.update_self _ _ _)
        (about_cons _ (beq_self_eq_true number))
    · exact hother hne (about_cons_other _ (beq_eq_false_iff_ne.mpr hne))
  | written other request hasking =>
    by_cases hne : other=number
    · cases hne
      exact .written request hasking (Function.update_self _ _ _) rfl
    · exact hother hne rfl
  | broken other count request hasking =>
    by_cases hne : other=number
    · cases hne
      exact .ended request (Or.inl hasking) (Function.update_self _ _ _) rfl
    · exact hother hne rfl
  | dropped other action request _ hawaiting =>
    by_cases hne : other=number
    · cases hne
      exact .ended request (Or.inr hawaiting) (Function.update_self _ _ _) rfl
    · exact hother hne rfl
  | called other world request reply later serverReply id hawaiting _ _ _ =>
    by_cases hne : other=number
    · cases hne
      exact .called request id world hawaiting (Function.update_self _ _ _)
        (about_cons _ (beq_self_eq_true number))
    · exact hother hne (about_cons_other _ (beq_eq_false_iff_ne.mpr hne))

/-- A handled request leaves its connection asking after showing nothing, or at
rest after one answer at most. -/
theorem handled_told (number : ℕ) (request : ClientRequest) (world : τ) :
    Told (σ:=σ) number [.handled number request (handleRequest env.content request world).events]
      (inquiryAfter request (handleRequest env.content request world).outcome) := by
  obtain ⟨hresponse,hnothing⟩ := handleRequest_shown env.content request world
  have hsilent := (handleRequest_emits env.content request).events world
  have hrest : Told (σ:=σ) number
      [.handled number request (handleRequest env.content request world).events] .rest := by
    refine ⟨request,.handled _ (List.countP_eq_zero.mpr fun event hmem => ?_) hresponse⟩
    cases event with
    | operation op => exact (hsilent _ hmem).elim
    | responded response => exact Bool.false_ne_true
  unfold inquiryAfter
  split
  · next houtcome =>
    rw [hnothing houtcome]
    exact rfl
  · exact hrest

/-- Every step keeps what a connection has shown in line with its inquiry. -/
theorem step_told {action : Action σ τ}
    (h : ∀ number,Told number (about number servers.log) (servers.inquiries number))
    (hstep : step env servers action=some next) :
    ∀ number,Told number (about number next.log) (next.inquiries number) := by
  intro number
  have htold := h number
  cases step_advanced hstep number with
  | stayed hinquiry habout =>
    rw [hinquiry,habout]
    exact htold
  | handled request world hidle hinquiry habout =>
    rw [hidle] at htold
    rw [hinquiry,habout,show about number servers.log=[] from htold]
    exact handled_told number request world
  | written request hasking hinquiry habout =>
    rw [hasking] at htold
    rw [hinquiry,habout]
    exact htold
  | ended request hpending hinquiry habout =>
    have hshown : about number servers.log=[.handled number request []] := by
      rcases hpending with hasking|hawaiting
      · rw [hasking] at htold
        exact htold
      · rw [hawaiting] at htold
        exact htold
    rw [hinquiry,habout,hshown]
    exact ⟨request,.handled [] rfl (Nat.zero_le 1)⟩
  | called request id world hawaiting hinquiry habout =>
    rw [hawaiting] at htold
    rw [hinquiry,habout,show about number servers.log=_ from htold]
    exact ⟨request,.called id _ (atMost_onGetId env.content request id world)
      (atMost_onGetId_response env.content request id world)⟩

/-- In every run of the two servers each connection of the content server tells
a story of one request: it is handled once, its callback is invoked behind that
and once at most, and so one operation is called and one answer sent at most. -/
theorem served_once {actions : List (Action σ τ)} {final : Servers σ}
    (hrun : run (step env) fresh actions=some final) (number : ℕ) :
    Told number (about number final.log) (final.inquiries number) ∧
      total isOperation number final.log ≤ 1 ∧ total isResponse number final.log ≤ 1 := by
  have hkeep : ∀ (servers : Servers σ) (action : Action σ τ) (next : Servers σ),
      (∀ number,Told number (about number servers.log) (servers.inquiries number)) → True →
        step env servers action=some next →
          ∀ number,Told number (about number next.log) (next.inquiries number) :=
    fun _ _ _ h _ hstep => step_told h hstep
  have hfresh : ∀ number,Told number (about number (fresh : Servers σ).log)
      ((fresh : Servers σ).inquiries number) := fun _ => rfl
  have htold := run_invariant hkeep hfresh (eachMeets_always (fun _ _ => trivial) _ _) hrun number
  exact ⟨htold,htold.total_le⟩

/-- Two inquiries whose parts, replies and callbacks overtake each other. -/
def crossing : List (TwoServers.Action ℕ Unit) :=
  [.asks 0 (postsRequest honestField) (),.asks 1 (postsRequest honestField) (),.writes 1,.writes 0,
    .receives (.content 0) 10 0,.receives (.content 1) 195 0,.receives (.content 0) 185 0,
    .reads 1 (),.reads 0 ()]

/-- Both are served, and each of them once. -/
theorem served_once_crossing :
    ∃ final,run (step withBob) fresh crossing=some final ∧
      (total isOperation 0 final.log=1 ∧ total isResponse 0 final.log=1) ∧
      (total isOperation 1 final.log=1 ∧ total isResponse 1 final.log=1) ∧
      ∀ number,Told number (about number final.log) (final.inquiries number) := by
  have hmap : (run (step withBob) fresh crossing).map (fun final =>
      ((total isOperation 0 final.log,total isResponse 0 final.log),
        (total isOperation 1 final.log,total isResponse 1 final.log)))=some ((1,1),(1,1)) := by
    decide +kernel
  obtain ⟨final,hrun,hseen⟩ := Option.map_eq_some_iff.mp hmap
  obtain ⟨hfirst,hsecond⟩ := Prod.mk.inj hseen
  exact ⟨final,hrun,Prod.mk.inj hfirst,Prod.mk.inj hsecond,fun number =>
    (served_once hrun number).1⟩

end runs

end Photogram.ServedOnce
