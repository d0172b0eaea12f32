import Photogram.ServedOnce

/-!
# Connections of the two servers run the receive loop

Seen from one of its connections, a run of the two servers is a run of the
receive loop over chunks that cut what the peer sent. Whatever happens on the
other connections reaches it through the worlds its receives find, and through
nothing else.
-/

namespace Photogram.LinkRuns

open CxxString EffectLog AuthResponse AuthConnection AuthReceive ContentConnection Schedule
open TwoServers ServedOnce

section definitions

variable {σ τ : Type}

/-- Events of a turn of a peer. -/
def eventsIn (peer : Peer) : Entry σ → List Event
  | .turn other _ _ events => if other=peer then events else []
  | _ => []

/-- Events of the turns of a peer, in order. -/
def eventsOf (peer : Peer) (log : List (Entry σ)) : List Event :=
  log.reverse.flatMap (eventsIn peer)

/-- Bytes an action sends for a client. -/
def sentIn (client : ℕ) : Action σ τ → Bytes
  | .sends other bytes => if other=client then bytes else []
  | _ => []

/-- Bytes a client sends. -/
def sentBy (client : ℕ) (actions : List (Action σ τ)) : Bytes := actions.flatMap (sentIn client)

/-- A connection is where the receive loop is behind some chunks of the bytes
sent to it. -/
structure RunsLoop (services : Services σ) (chunks : List (σ×Bytes)) (sent : Bytes) (link : Link)
    (events : List Event) : Prop where
  /-- The chunks cut what has been received. -/
  bytes : chunks.flatMap Prod.snd++link.inflight=sent
  /-- Each is what one recv can return. -/
  sizes : ∀ chunk ∈ chunks,0<chunk.2.length ∧ chunk.2.length ≤ bufferSize
  /-- The replies are those of the loop. -/
  replies : link.replies=AuthRequestRuns.replies events
  /-- So are all events. -/
  shown : ∀ world,(runLoop services [] (received chunks) world).events=events
  /-- The loop goes on with the buffer of the connection, or has ended with it. -/
  outcome : ∀ world,match (runLoop services [] (received chunks) world).outcome with
    | .ok buffer => link.buffer=buffer ∧ link.ended=false
    | .error _ => link.ended=true

end definitions

section loop

variable {σ : Type} {services : Services σ} {chunks : List (σ×Bytes)} {sent : Bytes} {link : Link}
  {events : List Event}

/-- A new connection has received nothing. -/
theorem runsLoop_opened (services : Services σ) (bytes : Bytes) :
    RunsLoop services [] bytes (.opened bytes) [] :=
  ⟨rfl,fun _ hmem => absurd hmem List.not_mem_nil,rfl,fun _ => rfl,fun _ => ⟨rfl,rfl⟩⟩

/-- Bytes on their way change nothing else. -/
theorem RunsLoop.sends (h : RunsLoop services chunks sent link events) (bytes : Bytes) :
    RunsLoop services chunks (sent++bytes) {link with inflight := link.inflight++bytes} events where
  bytes := by
    rw [←h.bytes,List.append_assoc]
  sizes := h.sizes
  replies := h.replies
  shown := h.shown
  outcome := h.outcome

/-- One more chunk takes one more turn. -/
theorem runLoop_snoc {start : σ} {buffer : Bytes}
    (h : (runLoop services [] (received chunks) start).outcome=.ok buffer) (chunk : σ×Bytes) :
    runLoop services [] (received (chunks++[chunk])) start=
      ⟨(turn services buffer chunk.2 chunk.1).outcome,(turn services buffer chunk.2 chunk.1).world,
        (runLoop services [] (received chunks) start).events++
          (turn services buffer chunk.2 chunk.1).events⟩ := by
  have hsplit : received (chunks++[chunk])=received chunks++received [chunk] := List.map_append
  have hlast : runLoop services buffer (received [chunk])=
      inWorld chunk.1 (turn services buffer chunk.2) := bind_pure _
  rw [hsplit,AuthRequestRuns.runLoop_append,bind_run_ok h,hlast]
  rfl

/-- What a turn leaves of the bytes on their way, and the replies behind it. -/
theorem served_link (link : Link) (count : ℕ) (ran : Ran σ Event Bytes) :
    (link.served count ran).inflight=link.inflight.drop count ∧
      (link.served count ran).replies=link.replies++AuthRequestRuns.replies ran.events := by
  unfold Link.served
  cases ran.outcome <;> exact ⟨rfl,rfl⟩

/-- A turn over received bytes is one more turn of the loop. -/
theorem RunsLoop.receives (h : RunsLoop services chunks sent link events) (hopen : link.ended=false)
    {count : ℕ} (hpos : 0<count) (hcount : count ≤ link.inflight.length)
    (hbuffer : count ≤ bufferSize) (world : σ) :
    RunsLoop services (chunks++[(world,link.inflight.take count)]) sent
      (link.served count (turn services link.buffer (link.inflight.take count) world))
      (events++(turn services link.buffer (link.inflight.take count) world).events) := by
  have hrun : ∀ start,runLoop services []
      (received (chunks++[(world,link.inflight.take count)])) start=
        ⟨(turn services link.buffer (link.inflight.take count) world).outcome,
          (turn services link.buffer (link.inflight.take count) world).world,
          events++(turn services link.buffer (link.inflight.take count) world).events⟩ := by
    intro start
    have houtcome := h.outcome start
    cases hloop : (runLoop services [] (received chunks) start).outcome with
    | error failure =>
      rw [hloop,hopen] at houtcome
      cases houtcome
    | ok buffer =>
      rw [hloop] at houtcome
      rw [runLoop_snoc hloop,h.shown start,houtcome.1]
  generalize turn services link.buffer (link.inflight.take count) world=ran at hrun ⊢
  obtain ⟨hinflight,hreplies⟩ := served_link link count ran
  refine ⟨?_,?_,?_,fun start => by rw [hrun start],fun start => ?_⟩
  · rw [hinflight,List.flatMap_append,List.flatMap_singleton,List.append_assoc,
      List.take_append_drop,h.bytes]
  · intro chunk hmem
    rcases List.mem_append.mp hmem with hold|hnew
    · exact h.sizes chunk hold
    · rw [List.mem_singleton.mp hnew]
      dsimp only
      rw [List.length_take,Nat.min_eq_left hcount]
      exact ⟨hpos,hbuffer⟩
  · rw [hreplies,h.replies]
    exact (List.filterMap_append ..).symm
  · rw [hrun start]
    unfold Link.served
    dsimp only
    cases ran.outcome with
    | ok buffer => exact ⟨rfl,rfl⟩
    | error failure => exact rfl

end loop

section runs

variable {σ τ : Type} {env : Environment σ τ} {servers next : Servers σ}

/-- The latest entry shows its events behind the earlier ones. -/
theorem eventsOf_cons (peer : Peer) (entry : Entry σ) (log : List (Entry σ)) :
    eventsOf peer (entry::log)=eventsOf peer log++eventsIn peer entry := by
  unfold eventsOf
  rw [List.reverse_cons,List.flatMap_append,List.flatMap_singleton]

/-- A turn of the peer shows its events. -/
theorem eventsOf_turn (peer : Peer) (buffered : Bytes) (world : σ) (events : List Event)
    (log : List (Entry σ)) :
    eventsOf peer (.turn peer buffered world events::log)=eventsOf peer log++events := by
  rw [eventsOf_cons]
  exact congrArg _ (if_pos rfl)

/-- Another entry shows nothing of the peer. -/
theorem eventsOf_other {peer : Peer} {entry : Entry σ} (log : List (Entry σ))
    (h : eventsIn peer entry=[]) : eventsOf peer (entry::log)=eventsOf peer log := by
  rw [eventsOf_cons,h,List.append_nil]

/-- The connection of a peer runs the loop over what was sent to it. -/
def Runs (env : Environment σ τ) (servers : Servers σ) (peer : Peer) (sent : Bytes) : Prop :=
  ∃ chunks,RunsLoop env.auth chunks sent (servers.links peer) (eventsOf peer servers.log)

/-- What happens elsewhere leaves a connection where it is. -/
theorem Runs.elsewhere {peer : Peer} {sent : Bytes} (h : Runs env servers peer sent)
    (hlink : next.links peer=servers.links peer)
    (hevents : eventsOf peer next.log=eventsOf peer servers.log) : Runs env next peer sent := by
  unfold Runs
  rw [hlink,hevents]
  exact h

/-- A turn of a connection is one of its loop. -/
theorem Runs.turned {peer : Peer} {sent : Bytes} (h : Runs env servers peer sent) {count : ℕ}
    {world : σ} (hopen : (servers.links peer).ended=false) (hpos : 0<count)
    (hcount : count ≤ (servers.links peer).inflight.length) (hbuffer : count ≤ bufferSize)
    {entry : Entry σ}
    (hentry : entry=.turn peer
      ((servers.links peer).buffer++(servers.links peer).inflight.take count) world
      (turn env.auth (servers.links peer).buffer ((servers.links peer).inflight.take count)
        world).events) :
    Runs env {servers with
      links := Function.update servers.links peer ((servers.links peer).served count
        (turn env.auth (servers.links peer).buffer ((servers.links peer).inflight.take count) world))
      log := entry::servers.log} peer sent := by
  obtain ⟨chunks,hloop⟩ := h
  refine ⟨chunks++[(world,(servers.links peer).inflight.take count)],?_⟩
  dsimp only
  rw [hentry,Function.update_self,eventsOf_turn]
  exact hloop.receives hopen hpos hcount hbuffer world

/-- A step keeps the connection of a client at its loop. -/
theorem step_client {client : ℕ} {sent : Bytes} {action : Action σ τ}
    (h : Runs env servers (.client client) sent) (hstep : step env servers action=some next) :
    Runs env next (.client client) (sent++sentIn client action) := by
  have hsame : ∀ {next : Servers σ} {action : Action σ τ},Runs env next (.client client) sent →
      sentIn client action=[] → Runs env next (.client client) (sent++sentIn client action) := by
    intro next action hruns hnothing
    rw [hnothing,List.append_nil]
    exact hruns
  have hcontent : ∀ number : ℕ,Peer.client client≠.content number := by simp
  cases stepped_of_step hstep with
  | sent other bytes =>
    by_cases hne : other=client
    · cases hne
      obtain ⟨chunks,hloop⟩ := h
      have hbytes : sentIn client (.sends client bytes : Action σ τ)=bytes := if_pos rfl
      refine ⟨chunks,?_⟩
      dsimp only
      rw [hbytes,Function.update_self]
      exact hloop.sends bytes
    · refine hsame (h.elsewhere (Function.update_of_ne ?_ _ _) rfl) (if_neg hne)
      exact fun heq => hne (Peer.client.inj heq).symm
  | served peer count world hopen hpos hcount hbuffer =>
    refine hsame ?_ rfl
    by_cases hne : peer=.client client
    · cases hne
      exact h.turned hopen hpos hcount hbuffer rfl
    · exact h.elsewhere (Function.update_of_ne (Ne.symm hne) _ _) (eventsOf_other _ (if_neg hne))
  | asked number request world hidle => exact hsame (h.elsewhere rfl (eventsOf_other _ rfl)) rfl
  | written number request hasking =>
    refine hsame (h.elsewhere ?_ rfl) rfl
    dsimp only
    rw [Function.update_of_ne (hcontent number)]
  | broken number count request hasking =>
    refine hsame (h.elsewhere ?_ rfl) rfl
    dsimp only
    rw [Function.update_of_ne (hcontent number)]
  | dropped number action request hsends hawaiting =>
    refine hsame (h.elsewhere rfl rfl) ?_
    cases action with
    | sends other bytes => exact absurd rfl (hsends other bytes)
    | receives peer count world => rfl
    | asks number request world => rfl
    | writes number => rfl
    | breaks number count => rfl
    | reads number world => rfl
  | called number world request reply later serverReply id hawaiting hreplies hdelivered hverdict =>
    exact hsame (h.elsewhere rfl (eventsOf_other _ rfl)) rfl

/-- A run keeps the connection of a client at its loop. -/
theorem run_client {client : ℕ} {sent : Bytes} {actions : List (Action σ τ)} {final : Servers σ}
    (h : Runs env servers (.client client) sent) (hrun : run (step env) servers actions=some final) :
    Runs env final (.client client) (sent++sentBy client actions) := by
  induction actions generalizing servers sent with
  | nil =>
    cases hrun
    exact (List.append_nil sent).symm ▸ h
  | cons action rest ih =>
    unfold run at hrun
    cases hstep : step env servers action with
    | none =>
      rw [hstep] at hrun
      cases hrun
    | some next =>
      rw [hstep] at hrun
      have hrest := ih (step_client h hstep) hrun
      rw [List.append_assoc] at hrest
      exact hrest

/-- What is sent on the connection of an inquiry, by how far it has come: nothing,
the inquiry, or a part of it. -/
def Inquires (env : Environment σ τ) (servers : Servers σ) (number : ℕ) : Prop :=
  match servers.inquiries number with
  | .idle => servers.links (.content number)=.opened [] ∧
      eventsOf (.content number) servers.log=[]
  | .asking request => servers.links (.content number)=.opened [] ∧
      eventsOf (.content number) servers.log=[] ∧
      ∃ events,.handled number request events ∈ servers.log
  | .awaiting request => Runs env servers (.content number) (request.inquiry env.userAgent) ∧
      ∃ events,.handled number request events ∈ servers.log
  | .rest => ∃ sent,Runs env servers (.content number) sent ∧
      (sent=[] ∨ ∃ request events,.handled number request events ∈ servers.log ∧
        sent<+:request.inquiry env.userAgent)

/-- What happens elsewhere leaves an inquiry where it is. -/
theorem Inquires.elsewhere {number : ℕ} (h : Inquires env servers number)
    (hlink : next.links (.content number)=servers.links (.content number))
    (hinquiry : next.inquiries number=servers.inquiries number)
    (hevents : eventsOf (.content number) next.log=eventsOf (.content number) servers.log)
    (hlog : ∀ entry ∈ servers.log,entry ∈ next.log) : Inquires env next number := by
  unfold Inquires at h ⊢
  rw [hinquiry]
  cases hstate : servers.inquiries number with
  | idle =>
    rw [hstate] at h
    dsimp only at h ⊢
    rw [hlink,hevents]
    exact h
  | asking request =>
    rw [hstate] at h
    obtain ⟨hopened,hnone,events,hmem⟩ := h
    dsimp only
    rw [hlink,hevents]
    exact ⟨hopened,hnone,events,hlog _ hmem⟩
  | awaiting request =>
    rw [hstate] at h
    obtain ⟨hruns,events,hmem⟩ := h
    exact ⟨hruns.elsewhere hlink hevents,events,hlog _ hmem⟩
  | rest =>
    rw [hstate] at h
    obtain ⟨sent,hruns,hsent⟩ := h
    refine ⟨sent,hruns.elsewhere hlink hevents,hsent.imp_right ?_⟩
    rintro ⟨request,events,hmem,hpart⟩
    exact ⟨request,events,hlog _ hmem,hpart⟩

/-- A connection without turns runs the loop over nothing received. -/
theorem runs_opened {peer : Peer} {bytes : Bytes} (hlink : servers.links peer=.opened bytes)
    (hevents : eventsOf peer servers.log=[]) : Runs env servers peer bytes := by
  unfold Runs
  rw [hlink,hevents]
  exact ⟨[],runsLoop_opened env.auth bytes⟩

/-- A turn of the connection of an inquiry is one of its loop. -/
theorem Inquires.turned {number : ℕ} (h : Inquires env servers number) {count : ℕ} {world : σ}
    (hopen : (servers.links (.content number)).ended=false) (hpos : 0<count)
    (hcount : count ≤ (servers.links (.content number)).inflight.length)
    (hbuffer : count ≤ bufferSize) {entry : Entry σ}
    (hentry : entry=.turn (.content number)
      ((servers.links (.content number)).buffer++
        (servers.links (.content number)).inflight.take count) world
      (turn env.auth (servers.links (.content number)).buffer
        ((servers.links (.content number)).inflight.take count) world).events) :
    Inquires env {servers with
      links := Function.update servers.links (.content number)
        ((servers.links (.content number)).served count
          (turn env.auth (servers.links (.content number)).buffer
            ((servers.links (.content number)).inflight.take count) world))
      log := entry::servers.log} number := by
  -- nothing is on its way in front of the inquiry
  have hunwritten : servers.links (.content number)≠.opened [] := by
    intro hlink
    rw [hlink] at hcount
    exact absurd (hpos.trans_le hcount) (Nat.lt_irrefl 0)
  unfold Inquires at h ⊢
  dsimp only
  cases hstate : servers.inquiries number with
  | idle =>
    rw [hstate] at h
    exact absurd h.1 hunwritten
  | asking request =>
    rw [hstate] at h
    exact absurd h.1 hunwritten
  | awaiting request =>
    rw [hstate] at h
    obtain ⟨hruns,events,hmem⟩ := h
    exact ⟨hruns.turned hopen hpos hcount hbuffer hentry,events,List.mem_cons_of_mem _ hmem⟩
  | rest =>
    rw [hstate] at h
    obtain ⟨sent,hruns,hsent⟩ := h
    refine ⟨sent,hruns.turned hopen hpos hcount hbuffer hentry,hsent.imp_right ?_⟩
    rintro ⟨request,events,hmem,hpart⟩
    exact ⟨request,events,List.mem_cons_of_mem _ hmem,hpart⟩

/-- A handled request leaves its connection asking or at rest. -/
theorem inquiryAfter_cases (request : ClientRequest) (outcome : Except Failure Bool) :
    inquiryAfter request outcome=.asking request ∨ inquiryAfter request outcome=.rest := by
  unfold inquiryAfter
  split
  · exact Or.inl rfl
  · exact Or.inr rfl

/-- A step keeps the connection of every inquiry at its loop. -/
theorem step_inquires {action : Action σ τ} {number : ℕ} (h : Inquires env servers number)
    (hstep : step env servers action=some next) : Inquires env next number := by
  have hlinks : ∀ {other : ℕ} (link : Link),other≠number →
      Function.update servers.links (.content other) link (.content number)=
        servers.links (.content number) := fun link hne =>
    Function.update_of_ne (fun heq => hne (Peer.content.inj heq).symm) _ _
  have hinquiries : ∀ {other : ℕ} (inquiry : Inquiry),other≠number →
      Function.update servers.inquiries other inquiry number=servers.inquiries number :=
    fun inquiry hne => Function.update_of_ne (Ne.symm hne) _ _
  have hgrow : ∀ (entry : Entry σ),∀ old ∈ servers.log,old ∈ entry::servers.log :=
    fun entry old hmem => List.mem_cons_of_mem entry hmem
  cases stepped_of_step hstep with
  | sent client bytes =>
    have hne : Peer.content number≠.client client := by simp
    refine h.elsewhere ?_ rfl rfl fun _ hmem => hmem
    dsimp only
    rw [Function.update_of_ne hne]
  | served peer count world hopen hpos hcount hbuffer =>
    by_cases hne : peer=.content number
    · cases hne
      exact h.turned hopen hpos hcount hbuffer rfl
    · exact h.elsewhere (Function.update_of_ne (Ne.symm hne) _ _) rfl
        (eventsOf_other _ (if_neg hne)) (hgrow _)
  | asked other request world hidle =>
    by_cases hne : other=number
    · cases hne
      unfold Inquires at h ⊢
      rw [hidle] at h
      obtain ⟨hopened,hnone⟩ := h
      have hevents : eventsOf (.content number)
          (.handled number request (handleRequest env.content request world).events::servers.log)=
            [] := (eventsOf_other _ rfl).trans hnone
      dsimp only
      rw [Function.update_self]
      rcases inquiryAfter_cases request (handleRequest env.content request world).outcome with
        hafter|hafter
      · rw [hafter]
        exact ⟨hopened,hevents,_,List.mem_cons_self⟩
      · rw [hafter]
        exact ⟨[],runs_opened hopened hevents,Or.inl rfl⟩
    · exact h.elsewhere rfl (hinquiries _ hne) (eventsOf_other _ rfl) (hgrow _)
  | written other request hasking =>
    by_cases hne : other=number
    · cases hne
      unfold Inquires at h ⊢
      rw [hasking] at h
      obtain ⟨_,hnone,hhandled⟩ := h
      dsimp only
      rw [Function.update_self]
      exact ⟨runs_opened (Function.update_self _ _ _) hnone,hhandled⟩
    · exact h.elsewhere (hlinks _ hne) (hinquiries _ hne) rfl fun _ hmem => hmem
  | broken other count request hasking =>
    by_cases hne : other=number
    · cases hne
      unfold Inquires at h ⊢
      rw [hasking] at h
      obtain ⟨_,hnone,events,hmem⟩ := h
      dsimp only
      rw [Function.update_self]
      exact ⟨_,runs_opened (Function.update_self _ _ _) hnone,
        Or.inr ⟨request,events,hmem,List.take_prefix _ _⟩⟩
    · exact h.elsewhere (hlinks _ hne) (hinquiries _ hne) rfl fun _ hmem => hmem
  | dropped other action request hsends hawaiting =>
    by_cases hne : other=number
    · cases hne
      unfold Inquires at h ⊢
      rw [hawaiting] at h
      obtain ⟨hruns,events,hmem⟩ := h
      dsimp only
      rw [Function.update_self]
      exact ⟨_,hruns.elsewhere rfl rfl,Or.inr ⟨request,events,hmem,List.prefix_rfl⟩⟩
    · exact h.elsewhere rfl (hinquiries _ hne) rfl fun _ hmem => hmem
  | called other world request reply later serverReply id hawaiting hreplies hdelivered hverdict =>
    by_cases hne : other=number
    · cases hne
      unfold Inquires at h ⊢
      rw [hawaiting] at h
      obtain ⟨hruns,events,hmem⟩ := h
      dsimp only
      rw [Function.update_self]
      exact ⟨_,hruns.elsewhere rfl (eventsOf_other _ rfl),
        Or.inr ⟨request,events,List.mem_cons_of_mem _ hmem,List.prefix_rfl⟩⟩
    · exact h.elsewhere rfl (hinquiries _ hne) (eventsOf_other _ rfl) (hgrow _)

/-- What was sent on the connection of an inquiry is a part of the inquiry of a
request its client sent. -/
theorem Inquires.runs {number : ℕ} (h : Inquires env servers number) :
    ∃ sent,Runs env servers (.content number) sent ∧
      (sent=[] ∨ ∃ request events,.handled number request events ∈ servers.log ∧
        sent<+:request.inquiry env.userAgent) := by
  unfold Inquires at h
  split at h
  · exact ⟨[],runs_opened h.1 h.2,Or.inl rfl⟩
  · exact ⟨[],runs_opened h.1 h.2.1,Or.inl rfl⟩
  · next request _ =>
    obtain ⟨hruns,events,hmem⟩ := h
    exact ⟨_,hruns,Or.inr ⟨request,events,hmem,List.prefix_rfl⟩⟩
  · exact h

/-- In every run the connection of each inquiry is at its loop. -/
theorem inquires_of_run {actions : List (Action σ τ)} {final : Servers σ}
    (hrun : run (step env) fresh actions=some final) (number : ℕ) : Inquires env final number :=
  run_invariant (fun _ _ _ h (_ : True) hstep => step_inquires h hstep)
    (show Inquires env fresh number from ⟨rfl,rfl⟩) (eachMeets_always (fun _ _ => trivial) _ _) hrun

/-- In every run of the two servers each connection of the authentication
server is where its receive loop is behind some chunks: those of a client cut
the bytes it sent, and those of the content server a part of an inquiry. -/
theorem links_run_loop {actions : List (Action σ τ)} {final : Servers σ}
    (hrun : run (step env) fresh actions=some final) :
    (∀ client,∃ chunks,RunsLoop env.auth chunks (sentBy client actions)
        (final.links (.client client)) (eventsOf (.client client) final.log)) ∧
      ∀ number,∃ chunks sent,RunsLoop env.auth chunks sent (final.links (.content number))
          (eventsOf (.content number) final.log) ∧
        (sent=[] ∨ ∃ request events,.handled number request events ∈ final.log ∧
          sent<+:request.inquiry env.userAgent) := by
  constructor
  · intro client
    have hfresh : Runs env fresh (.client client) [] := runs_opened rfl rfl
    exact run_client hfresh hrun
  · intro number
    obtain ⟨sent,⟨chunks,hloop⟩,hsent⟩ := (inquires_of_run hrun number).runs
    exact ⟨chunks,sent,hloop,hsent⟩

/-- A client whose request is cut, between the parts of an inquiry. -/
def sharing : List (TwoServers.Action ℕ Unit) :=
  [.sends 7 (ascii "OPTIONS / HTTP/1.1\r\nOrigin: o\r\n\r\n"),.asks 0 (postsRequest honestField) (),
    .receives (.client 7) 20 0,.writes 0,.receives (.content 0) 10 0,.receives (.client 7) 13 0,
    .receives (.content 0) 185 0,.reads 0 ()]

/-- Its connection is where the loop is behind two chunks of its request. -/
theorem links_run_loop_sharing :
    ∃ final,run (step withBob) fresh sharing=some final ∧
      (final.links (.client 7)).replies.length=1 ∧
      ∃ chunks,RunsLoop withBob.auth chunks (ascii "OPTIONS / HTTP/1.1\r\nOrigin: o\r\n\r\n")
        (final.links (.client 7)) (eventsOf (.client 7) final.log) := by
  have hmap : (run (step withBob) fresh sharing).map (fun final =>
      (final.links (.client 7)).replies.length)=some 1 := by decide +kernel
  obtain ⟨final,hrun,hreplies⟩ := Option.map_eq_some_iff.mp hmap
  exact ⟨final,hrun,hreplies,(links_run_loop hrun).1 7⟩

end runs

end Photogram.LinkRuns
