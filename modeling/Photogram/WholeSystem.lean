import Photogram.ContentAnswers
import Photogram.FormDataRoundTrip
import Photogram.LinkRuns
import Photogram.TurnsUnderWay
import Photogram.Verdicts

/-!
# Both servers on one database

The connections of both servers, the tables under them, and the turns of the
authentication server under way: a thread for each connection, all on the same
tables, between any two transactions of which others take theirs. The content
server has one thread, and a callback of it makes one transaction at most.
Every change of the tables is that of a turn or of a callback, and a turn that
replies has made what it acknowledges.
-/

namespace Photogram.WholeSystem

open CxxString EffectLog JsonValue AuthResponse AuthConnection AuthReceive AnotherServerConnection
open ContentConnection ContentHandlers ContentPosts ListPages PagedQuery RowTable Schedule AuthStore
open SocialNetwork SharedStore StoreNetwork AuthProcess AuthTurns TurnsUnderWay ContentAnswers TwoServers

section system

/-- Both servers with their connections, the tables, and the turns. -/
structure System where
  /-- The servers. -/
  servers : Servers Surroundings
  /-- The tables, and the registrations under way. -/
  site : Site
  /-- The turn under way on a connection of the authentication server. -/
  serving : Peer → Option Serving
  /-- The turns that have ended, in order. -/
  turns : List (Peer×Serving)

/-- What happens next. -/
inductive Deed where
  /-- A client sends bytes to the authentication server. -/
  | sends (client : ℕ) (bytes : Bytes)
  /-- A recv of the authentication server returns, and a turn begins. -/
  | receives (peer : Peer) (count : ℕ) (coming : ℕ → Conditions×ℕ)
  /-- A turn comes to its next transaction, which ends. -/
  | transacts (peer : Peer)
  /-- A turn has no transaction before it any more, and ends with its reply. -/
  | replies (peer : Peer)
  /-- The content server has read a request. -/
  | asks (number : ℕ) (request : ClientRequest) (found : Circumstances×Arrangement latestFirst)
  /-- An inquiry is connected and written. -/
  | writes (number : ℕ)
  /-- An inquiry fails, with a part of it written. -/
  | breaks (number written : ℕ)
  /-- An inquiry reads its reply. -/
  | reads (number : ℕ) (found : Circumstances×Arrangement latestFirst)

/-- Both servers on the tables. -/
def environment (deployment : Deployment) : Environment Surroundings Scene :=
  ⟨deployment.installation.services,deployment.content,deployment.userAgent⟩

/-- Request and text that the callback of an inquiry is invoked with, once its
reply can be read. -/
def calledWith (deployment : Deployment) (servers : Servers Surroundings) (number : ℕ) :
    Option (ClientRequest×Bytes) :=
  match servers.inquiries number,(servers.links (.content number)).replies with
  | .awaiting request,reply::_ => do
    let serverReply ← delivered deployment.installation.dump reply
    let id ← (verdict deployment.jsonParse serverReply).toOption
    return (request,id)
  | _,_ => none

variable (deployment : Deployment) (system : System)

/-- What the content server finds. -/
def sceneOf (found : Circumstances×Arrangement latestFirst) : Scene :=
  ⟨system.site.store,found.1,found.2⟩

/-- What a deed is on the connections of the servers; a turn is taken as it ends. -/
def actionOf : Deed → Option (TwoServers.Action Surroundings Scene)
  | .sends client bytes => some (.sends client bytes)
  | .receives _ _ _ | .transacts _ => none
  | .replies peer => (system.serving peer).map fun serving =>
    .receives peer serving.received.length serving.world
  | .asks number request found => some (.asks number request (sceneOf system found))
  | .writes number => some (.writes number)
  | .breaks number written => some (.breaks number written)
  | .reads number found => some (.reads number (sceneOf system found))

/-- The tables behind a deed of the content server. -/
def storeBehind : Deed → Store
  | .asks _ request found =>
    (handleRequest deployment.content request (sceneOf system found)).world.store
  | .reads number found =>
    match calledWith deployment system.servers number with
    | some (request,id) => (onGetId deployment.content request id (sceneOf system found)).world.store
    | none => system.site.store
  | _ => system.site.store

/-- What the recv of a turn has returned is still in front of its connection. -/
def Fronts (link : Link) (serving : Serving) : Prop :=
  link.buffer=serving.buffer ∧ link.inflight.take serving.received.length=serving.received

instance (link : Link) (serving : Serving) : Decidable (Fronts link serving) :=
  inferInstanceAs (Decidable (_ ∧ _))

/-- One deed, if it is possible. -/
def step : Deed → Option System
  | .receives peer count coming =>
    let link := system.servers.links peer
    if (system.serving peer).isNone ∧ link.ended=false ∧ 0<count ∧ count ≤ link.inflight.length ∧
        count ≤ bufferSize then
      some {system with
        serving := Function.update system.serving peer
          (some (.begun link.buffer (link.inflight.take count) coming))}
    else none
  | .transacts peer => do
    let serving ← system.serving peer
    let move ← serving.next deployment.installation system.site
    let site ← SharedStore.step deployment.installation.dialect system.site move
    return {system with
      site := site
      serving := Function.update system.serving peer
        (some (serving.behind deployment.installation.dialect system.site site move))}
  | .replies peer => do
    let serving ← system.serving peer
    if (serving.next deployment.installation system.site).isNone ∧
        Fronts (system.servers.links peer) serving then
      let servers ← TwoServers.step (environment deployment) system.servers
        (.receives peer serving.received.length serving.world)
      return {system with
        servers := servers
        serving := Function.update system.serving peer none
        turns := system.turns++[(peer,serving)]}
    else none
  | deed => do
    let action ← actionOf system deed
    let servers ← TwoServers.step (environment deployment) system.servers action
    return {system with
      servers := servers
      site := {system.site with store := storeBehind deployment system deed}}

/-- Before the first connection, on empty tables. -/
def opened : System := ⟨fresh,Site.opened emptyStore,fun _ => none,[]⟩

/-- Who changes the tables. -/
inductive Source where
  /-- A turn on a connection of the authentication server. -/
  | turn (peer : Peer)
  /-- The callback of an inquiry of the content server. -/
  | callback (number : ℕ)
  deriving DecidableEq

/-- Changes of the tables by a deed: those its transaction commits, and those
its callback confirms or leaves behind unconfirmed. -/
def reported : Deed → List (Source×Change)
  | .transacts peer =>
    match (system.serving peer).bind (Serving.next deployment.installation system.site) with
    | some move => (committed deployment.installation.dialect system.site move).map
      (Prod.mk (.turn peer))
    | none => []
  | .reads number found =>
    match calledWith deployment system.servers number with
    | some (request,id) => (callbackChanges deployment.installation.dialect (sceneOf system found)
        (onGetId deployment.content request id (sceneOf system found)).events).map
      (Prod.mk (.callback number))
    | none => []
  | _ => []

/-- Changes that a run has made, in the order of their transactions. -/
def reportedBy (deeds : List Deed) : List (Source×Change) :=
  ledger (step deployment) (reported deployment) opened deeds

/-- The network that a run has made. -/
def networkBy (deeds : List Deed) : Network :=
  Network.empty.replay ((reportedBy deployment deeds).map Prod.snd)

/-- The first recv for an inquiry returns at least seven bytes. -/
def WholeStart (deed : Deed) : Prop := ∀ action ∈ actionOf system deed,StartsWhole system.servers action

instance (deed : Deed) : Decidable (WholeStart system deed) :=
  inferInstanceAs (Decidable (∀ action ∈ actionOf system deed,_))

end system

section steps

/-- Everything a deed can do. -/
inductive Stepped (deployment : Deployment) (system : System) : Deed → System → Prop where
  /-- A turn begins. -/
  | began (peer : Peer) (count : ℕ) (coming : ℕ → Conditions×ℕ) (hidle : system.serving peer=none)
    (hopen : (system.servers.links peer).ended=false) (hpos : 0<count)
    (hcount : count ≤ (system.servers.links peer).inflight.length) (hbuffer : count ≤ bufferSize) :
    Stepped deployment system (.receives peer count coming) {system with
      serving := Function.update system.serving peer (some (.begun (system.servers.links peer).buffer
        ((system.servers.links peer).inflight.take count) coming))}
  /-- A transaction of a turn ends. -/
  | transacted (peer : Peer) (serving : Serving) (move : Move) (site : Site)
    (hserving : system.serving peer=some serving)
    (hnext : serving.next deployment.installation system.site=some move)
    (hstep : SharedStore.step deployment.installation.dialect system.site move=some site) :
    Stepped deployment system (.transacts peer) {system with
      site := site
      serving := Function.update system.serving peer
        (some (serving.behind deployment.installation.dialect system.site site move))}
  /-- A turn ends. -/
  | replied (peer : Peer) (serving : Serving) (servers : Servers Surroundings)
    (hserving : system.serving peer=some serving)
    (hnext : serving.next deployment.installation system.site=none)
    (hfronts : Fronts (system.servers.links peer) serving)
    (hservers : TwoServers.step (environment deployment) system.servers
      (.receives peer serving.received.length serving.world)=some servers) :
    Stepped deployment system (.replies peer) {system with
      servers := servers
      serving := Function.update system.serving peer none
      turns := system.turns++[(peer,serving)]}
  /-- A client, the network or the content server does something. -/
  | acted (deed : Deed) (action : TwoServers.Action Surroundings Scene)
    (servers : Servers Surroundings) (hreceives : ∀ peer count coming,deed≠.receives peer count coming)
    (htransacts : ∀ peer,deed≠.transacts peer) (hreplies : ∀ peer,deed≠.replies peer)
    (haction : actionOf system deed=some action)
    (hservers : TwoServers.step (environment deployment) system.servers action=some servers) :
    Stepped deployment system deed {system with
      servers := servers
      site := {system.site with store := storeBehind deployment system deed}}

variable {deployment : Deployment} {system next final : System} {deed : Deed} {deeds : List Deed}

/-- A step is one of these. -/
theorem stepped_of_step (h : step deployment system deed=some next) :
    Stepped deployment system deed next := by
  have hacted : ∀ {action : TwoServers.Action Surroundings Scene},
      (∀ peer count coming,deed≠.receives peer count coming) → (∀ peer,deed≠.transacts peer) →
      (∀ peer,deed≠.replies peer) → actionOf system deed=some action →
      (TwoServers.step (environment deployment) system.servers action).bind (fun servers =>
        some {system with
          servers := servers
          site := {system.site with store := storeBehind deployment system deed}})=some next →
      Stepped deployment system deed next := by
    intro action hreceives htransacts hreplies haction hbound
    obtain ⟨servers,hservers,hend⟩ := Option.bind_eq_some_iff.mp hbound
    cases hend
    exact .acted deed action servers hreceives htransacts hreplies haction hservers
  cases deed with
  | receives peer count coming =>
    unfold step at h
    dsimp only at h
    split at h
    · next hready =>
      obtain ⟨hidle,hopen,hpos,hcount,hbuffer⟩ := hready
      cases h
      exact .began peer count coming (Option.isNone_iff_eq_none.mp hidle) hopen hpos hcount hbuffer
    · cases h
  | transacts peer =>
    obtain ⟨serving,hserving,h⟩ := Option.bind_eq_some_iff.mp h
    obtain ⟨move,hnext,h⟩ := Option.bind_eq_some_iff.mp h
    obtain ⟨site,hstep,h⟩ := Option.bind_eq_some_iff.mp h
    cases h
    exact .transacted peer serving move site hserving hnext hstep
  | replies peer =>
    obtain ⟨serving,hserving,h⟩ := Option.bind_eq_some_iff.mp h
    split at h
    · next hready =>
      obtain ⟨servers,hservers,h⟩ := Option.bind_eq_some_iff.mp h
      cases h
      exact .replied peer serving servers hserving (Option.isNone_iff_eq_none.mp hready.1) hready.2
        hservers
    · cases h
  | sends client bytes => exact hacted nofun nofun nofun rfl h
  | asks number request found => exact hacted nofun nofun nofun rfl h
  | writes number => exact hacted nofun nofun nofun rfl h
  | breaks number written => exact hacted nofun nofun nofun rfl h
  | reads number found => exact hacted nofun nofun nofun rfl h

/-- A step is one of the servers, or none of theirs. -/
theorem step_servers (h : step deployment system deed=some next) :
    run (TwoServers.step (environment deployment)) system.servers (actionOf system deed).toList=
      some next.servers := by
  have hone : ∀ {action : TwoServers.Action Surroundings Scene} {servers : Servers Surroundings},
      TwoServers.step (environment deployment) system.servers action=some servers →
      run (TwoServers.step (environment deployment)) system.servers [action]=some servers :=
    fun hservers => @run_concat _ _ _ _ _ _ [] _ rfl hservers
  cases stepped_of_step h with
  | began peer count coming hidle hopen hpos hcount hbuffer => rfl
  | transacted peer serving move site hserving hnext hstep => rfl
  | replied peer serving servers hserving hnext hfronts hservers =>
    unfold actionOf
    dsimp only
    rw [hserving]
    exact hone hservers
  | acted deed action servers hreceives htransacts hreplies haction hservers =>
    rw [haction]
    exact hone hservers

/-- A run is a run of the two servers. -/
theorem run_servers (hrun : run (step deployment) system deeds=some final) :
    ∃ actions,run (TwoServers.step (environment deployment)) system.servers actions=
        some final.servers ∧ (EachMeets (step deployment) WholeStart system deeds →
          EachMeets (TwoServers.step (environment deployment)) StartsWhole system.servers actions) :=
  run_simulated (fun _ _ _ hstep => step_servers hstep) hrun

end steps

section callbacks

variable {deployment : Deployment} {system next : System} {number : ℕ}
  {found : Circumstances×Arrangement latestFirst} {request : ClientRequest} {id : Bytes}
  {events : List ContentEvent}

/-- A callback is invoked for the reply in front, with its verdict. -/
theorem calledWith_reply {servers : Servers Surroundings}
    (h : calledWith deployment servers number=some (request,id)) :
    ∃ reply rest serverReply,servers.inquiries number=.awaiting request ∧
      (servers.links (.content number)).replies=reply::rest ∧
      delivered deployment.installation.dump reply=some serverReply ∧
      verdict deployment.jsonParse serverReply=.ok id := by
  unfold calledWith at h
  split at h
  · next asking reply rest hinquiry hreplies =>
    obtain ⟨serverReply,hdelivered,h⟩ := Option.bind_eq_some_iff.mp h
    obtain ⟨text,hverdict,h⟩ := Option.bind_eq_some_iff.mp h
    cases h
    refine ⟨reply,rest,serverReply,hinquiry,hreplies,hdelivered,?_⟩
    cases hanswer : verdict deployment.jsonParse serverReply with
    | error failure =>
      rw [hanswer] at hverdict
      cases hverdict
    | ok judged =>
      rw [hanswer] at hverdict
      exact congrArg Except.ok (Option.some.inj hverdict)
  · cases h

/-- Reading a reply with a verdict invokes the callback with it. -/
theorem reads_called (h : calledWith deployment system.servers number=some (request,id))
    (found : Circumstances×Arrangement latestFirst) :
    ∃ next,step deployment system (.reads number found)=some next ∧
      next.servers.log=.called number request id (onGetId deployment.content request id
        (sceneOf system found)).events::system.servers.log := by
  obtain ⟨reply,rest,serverReply,hinquiry,hreplies,hdelivered,hverdict⟩ := calledWith_reply h
  have hread : delivered (environment deployment).auth.dump reply=some serverReply := hdelivered
  have hid : verdict (environment deployment).content.jsonParse serverReply=.ok id := hverdict
  unfold step actionOf TwoServers.step
  dsimp only
  simp only [Option.bind_eq_bind,Option.bind_some]
  rw [hinquiry,hreplies]
  dsimp only
  rw [hread]
  simp only [Option.bind_some,hid]
  exact ⟨_,rfl,rfl⟩

/-- Reading a reply is a step of the servers, and leaves the tables behind. -/
theorem reads_parts (h : step deployment system (.reads number found)=some next) :
    TwoServers.step (environment deployment) system.servers (.reads number (sceneOf system found))=
        some next.servers ∧
      next.site={system.site with store := storeBehind deployment system (.reads number found)} := by
  cases stepped_of_step h with
  | acted deed action servers hreceives htransacts hreplies haction hservers =>
    cases haction
    exact ⟨hservers,rfl⟩

/-- A callback that is logged is that of the reply that is read, and leaves its tables behind. -/
theorem called_of_log (hstep : step deployment system (.reads number found)=some next) {other : ℕ}
    (hlog : next.servers.log=.called other request id events::system.servers.log) :
    other=number ∧ calledWith deployment system.servers number=some (request,id) ∧
      events=(onGetId deployment.content request id (sceneOf system found)).events ∧
      next.site.store=
        (onGetId deployment.content request id (sceneOf system found)).world.store := by
  obtain ⟨servers,site,serving,turns⟩ := next
  obtain ⟨hservers,hsite⟩ := reads_parts hstep
  dsimp only at hservers hsite hlog
  cases ServedOnce.stepped_of_step hservers with
  | dropped number action request hsends hawaiting =>
    exact absurd (congrArg List.length hlog) (Nat.ne_of_lt (Nat.lt_succ_self _))
  | called number world asked reply later serverReply judged hawaiting hreplies hdelivered hverdict =>
    cases hlog
    have hread : delivered deployment.installation.dump reply=some serverReply := hdelivered
    have hjudged : verdict deployment.jsonParse serverReply=.ok id := hverdict
    have hcalled : calledWith deployment system.servers number=some (request,id) := by
      unfold calledWith
      rw [hawaiting,hreplies]
      dsimp only
      rw [hread]
      simp only [Option.bind_eq_bind,Option.bind_some,hjudged]
      rfl
    refine ⟨rfl,hcalled,rfl,?_⟩
    rw [hsite]
    unfold storeBehind
    dsimp only
    rw [hcalled]

end callbacks

section order

/-- A turn that has ended, as the log shows it. -/
def turnEntry (deployment : Deployment) (turn : Peer×Serving) : Entry Surroundings :=
  .turn turn.1 (turn.2.buffer++turn.2.received) turn.2.world
    (turn.2.ran deployment.installation).events

/-- The entry is a turn. -/
def isTurn : Entry Surroundings → Bool
  | .turn _ _ _ _ => true
  | _ => false

/-- The tables are sound, no two turns register one user, every turn under way
has committed what it has come to, and every other one what it acknowledged. -/
structure Orderly (deployment : Deployment) (system : System) : Prop where
  /-- The tables. -/
  sound : Sound system.site
  /-- Turns register users of their own. -/
  distinct : ∀ peer other serving another userId,system.serving peer=some serving →
    system.serving other=some another → serving.registering=some userId →
    another.registering=some userId → peer=other
  /-- The turns under way. -/
  progress : ∀ peer serving,system.serving peer=some serving →
    Progress deployment.installation system.site serving
  /-- The turns that have ended. -/
  settled : ∀ turn ∈ system.turns,Settles deployment.installation turn.2
  /-- They are those of the log. -/
  logged : (system.servers.log.filter isTurn).reverse=system.turns.map (turnEntry deployment)

variable {deployment : Deployment} {system next final : System} {deed : Deed} {deeds : List Deed}

/-- Nothing has happened yet. -/
theorem orderly_opened : Orderly deployment opened where
  sound := sound_empty
  distinct _ _ _ _ _ h := nomatch h
  progress _ _ h := nomatch h
  settled _ hmem := absurd hmem List.not_mem_nil
  logged := rfl

/-- A turn of another connection is the same. -/
theorem serving_update {peer other : Peer} {serving : Serving} {replaced : Option Serving}
    (h : Function.update system.serving peer replaced other=some serving) :
    (other=peer ∧ replaced=some serving) ∨ other≠peer ∧ system.serving other=some serving := by
  by_cases heq : other=peer
  · subst heq
    rw [Function.update_self] at h
    exact Or.inl ⟨rfl,h⟩
  · rw [Function.update_of_ne heq] at h
    exact Or.inr ⟨heq,h⟩

/-- A turn that ends is the latest of the log. -/
theorem log_replied {peer : Peer} {serving : Serving} {servers : Servers Surroundings}
    (hfronts : Fronts (system.servers.links peer) serving)
    (h : TwoServers.step (environment deployment) system.servers
      (.receives peer serving.received.length serving.world)=some servers) :
    servers.log=turnEntry deployment (peer,serving)::system.servers.log := by
  obtain ⟨hbuffer,hreceived⟩ := hfronts
  unfold TwoServers.step at h
  dsimp only at h
  split at h
  · cases h
    dsimp only
    rw [hbuffer,hreceived]
    rfl
  · cases h

/-- Nothing but the end of a turn is a turn of the log. -/
theorem log_acted {action : TwoServers.Action Surroundings Scene} {servers : Servers Surroundings}
    (haction : ∀ peer count world,action≠.receives peer count world)
    (h : TwoServers.step (environment deployment) system.servers action=some servers) :
    servers.log.filter isTurn=system.servers.log.filter isTurn := by
  cases moved_of_step h with
  | served peer count world => exact absurd rfl (haction peer count world)
  | _ => rfl

/-- Changes with a source are the changes. -/
theorem map_source (source : Source) (changes : List Change) :
    (changes.map (Prod.mk source)).map Prod.snd=changes := by
  rw [List.map_map]
  exact List.map_id changes

/-- A request that is handled leaves the tables as they are. -/
theorem storeBehind_asks (number : ℕ) (request : ClientRequest)
    (found : Circumstances×Arrangement latestFirst) :
    storeBehind deployment system (.asks number request found)=system.site.store := by
  have hkept : Changes SameScene (handleRequest deployment.content request) := by
    unfold handleRequest
    cases request.method with
    | get => exact changes_bind sameScene_trans (fun _ => rfl) fun _ _ => rfl
    | _ => exact fun _ => rfl
  exact hkept (sceneOf system found)

/-- What the content server changes in the tables is what its callbacks report. -/
theorem acted_refined (h : Sound system.site) (htransacts : ∀ peer,deed≠.transacts peer) :
    Refined system.site {system.site with store := storeBehind deployment system deed}
      ((reported deployment system deed).map Prod.snd) := by
  have hsame : Refined system.site system.site [] := ⟨h,rfl⟩
  cases deed with
  | transacts peer => exact absurd rfl (htransacts peer)
  | asks number request found =>
    rw [storeBehind_asks]
    exact hsame
  | reads number found =>
    unfold storeBehind reported
    dsimp only
    split
    · next request user hcalled =>
      rw [map_source]
      exact callback_refined deployment h rfl user
    · exact hsame
  | _ => exact hsame

/-- Every step keeps the tables sound and changes the network by what it reports. -/
theorem step_refined (h : Sound system.site) (hstep : step deployment system deed=some next) :
    Refined system.site next.site ((reported deployment system deed).map Prod.snd) := by
  cases stepped_of_step hstep with
  | began peer count coming hidle hopen hpos hcount hbuffer => exact ⟨h,rfl⟩
  | transacted peer serving move site hserving hnext hmove =>
    unfold reported
    dsimp only
    rw [hserving]
    dsimp only [Option.bind]
    rw [hnext]
    dsimp only
    rw [map_source]
    exact StoreNetwork.step_refined h hmove
  | replied peer serving servers hserving hnext hfronts hservers => exact ⟨h,rfl⟩
  | acted deed action servers hreceives htransacts hreplies haction hservers =>
    exact acted_refined h htransacts

/-- So does a run. -/
theorem run_keeps_sound (h : Sound system.site)
    (hrun : run (step deployment) system deeds=some final) : Sound final.site :=
  run_invariant (fun _ _ _ hsound (_ : True) hstep => (step_refined hsound hstep).sound) h
    (eachMeets_always (fun _ _ => trivial) _ _) hrun

/-- A transaction of a turn leads it on and leaves the others where they are. -/
theorem transacted_progress (h : Orderly deployment system) {peer : Peer} {serving : Serving}
    {move : Move} {site : Site} (hserving : system.serving peer=some serving)
    (hnext : serving.next deployment.installation system.site=some move)
    (hmove : SharedStore.step deployment.installation.dialect system.site move=some site)
    {other : Peer} {another : Serving} (hother : Function.update system.serving peer
      (some (serving.behind deployment.installation.dialect system.site site move)) other=
        some another) : Progress deployment.installation site another := by
  rcases serving_update hother with ⟨rfl,hlater⟩|⟨hne,hother⟩
  · cases hlater
    exact (h.progress _ serving hserving).behind hnext hmove
  · refine (h.progress other another hother).kept fun userId stage hregisters hstage => ?_
    refine registering_kept h.sound hstage (fun hstaged => ?_) hmove
    rw [next_stagedUser hnext] at hstaged
    exact hne (h.distinct other peer another serving userId hother hserving hregisters hstaged)

/-- No other turn registers the user that a turn has just inserted. -/
theorem transacted_distinct (h : Orderly deployment system) {peer : Peer} {serving : Serving}
    (hserving : system.serving peer=some serving) {move : Move} {site : Site} {other : Peer}
    {another : Serving} {userId : ℕ} (hother : system.serving other=some another)
    (hregisters : another.registering=some userId)
    (hlater : (serving.behind deployment.installation.dialect system.site site move).registering=
      some userId) : other=peer := by
  rcases behind_registering hlater with hsame|hinserted
  · exact h.distinct other peer another serving userId hother hserving hregisters hsame
  · obtain ⟨stage,hstage⟩ := (h.progress other another hother).stage hregisters
    obtain ⟨user,huser,_⟩ := h.sound.begun userId stage hstage
    exact absurd hinserted (Nat.ne_of_lt (lt_next_of_lookup huser))

/-- Every step keeps the system in order. -/
theorem step_orderly (h : Orderly deployment system)
    (hstep : step deployment system deed=some next) : Orderly deployment next := by
  have hsound := (step_refined h.sound hstep).sound
  cases stepped_of_step hstep with
  | began peer count coming hidle hopen hpos hcount hbuffer =>
    refine ⟨hsound,fun first second serving another userId hfirst hsecond hleft hright => ?_,
      fun other serving hother => ?_,h.settled,h.logged⟩
    · rcases serving_update hfirst with ⟨_,hnew⟩|⟨_,hone⟩
      · cases hnew
        cases hleft
      · rcases serving_update hsecond with ⟨_,hnew⟩|⟨_,hanother⟩
        · cases hnew
          cases hright
        · exact h.distinct first second serving another userId hone hanother hleft hright
    · rcases serving_update hother with ⟨_,hnew⟩|⟨_,hother⟩
      · cases hnew
        exact progress_begun _ _ _
      · exact h.progress other serving hother
  | transacted peer serving move site hserving hnext hmove =>
    refine ⟨hsound,fun first second one another userId hfirst hsecond hleft hright => ?_,
      fun other another hother => transacted_progress h hserving hnext hmove hother,h.settled,h.logged⟩
    rcases serving_update hfirst with ⟨hpeer,hnew⟩|⟨_,hone⟩
    · rcases serving_update hsecond with ⟨hsame,_⟩|⟨_,hanother⟩
      · exact hpeer.trans hsame.symm
      · cases hnew
        exact hpeer.trans (transacted_distinct h hserving hanother hright hleft).symm
    · rcases serving_update hsecond with ⟨hpeer,hnew⟩|⟨_,hanother⟩
      · cases hnew
        exact (transacted_distinct h hserving hone hleft hright).trans hpeer.symm
      · exact h.distinct first second one another userId hone hanother hleft hright
  | replied peer serving servers hserving hnext hfronts hservers =>
    have hkept : ∀ {other : Peer} {another : Serving},
        Function.update system.serving peer none other=some another →
          system.serving other=some another := by
      intro other another hother
      rcases serving_update hother with ⟨_,hnone⟩|⟨_,hother⟩
      · cases hnone
      · exact hother
    refine ⟨hsound,fun first second one another userId hfirst hsecond =>
        h.distinct first second one another userId (hkept hfirst) (hkept hsecond),
      fun other another hother => h.progress other another (hkept hother),fun turn hmem => ?_,?_⟩
    · rcases List.mem_append.mp hmem with hmem|hmem
      · exact h.settled turn hmem
      · rw [List.mem_singleton.mp hmem]
        exact (h.progress peer serving hserving).settles hnext
    · dsimp only
      rw [log_replied hfronts hservers,List.map_append,←h.logged]
      exact List.reverse_cons
  | acted deed action servers hreceives htransacts hreplies haction hservers =>
    refine ⟨hsound,h.distinct,fun other another hother =>
      (h.progress other another hother).kept fun _ _ _ hstage => hstage,h.settled,?_⟩
    dsimp only
    rw [log_acted (fun peer count world heq => ?_) hservers]
    · exact h.logged
    · subst heq
      cases deed with
      | replies other => exact hreplies other rfl
      | _ => cases haction

/-- So does every run. -/
theorem run_orderly (hrun : run (step deployment) opened deeds=some final) :
    Orderly deployment final :=
  run_invariant (fun _ _ _ h (_ : True) hstep => step_orderly h hstep) orderly_opened
    (eachMeets_always (fun _ _ => trivial) _ _) hrun

end order

section progress

/-- What the recv of a turn has returned stays in front of its connection. -/
structure Underway (link : Link) (serving : Serving) : Prop where
  /-- It is there. -/
  fronts : Fronts link serving
  /-- The connection is open. -/
  goesOn : link.ended=false
  /-- It has returned some bytes. -/
  received : 0<serving.received.length
  /-- They were on their way. -/
  inside : serving.received.length ≤ link.inflight.length
  /-- They fit the receive buffer. -/
  small : serving.received.length ≤ bufferSize

variable {deployment : Deployment} {system next : System} {deed : Deed} {deeds : List Deed}
  {peer : Peer} {serving : Serving}

/-- More bytes on their way are behind it. -/
theorem Underway.sends {link : Link} (h : Underway link serving) (bytes : Bytes) :
    Underway {link with inflight := link.inflight++bytes} serving where
  fronts := ⟨h.fronts.1,(List.take_append_of_le_length h.inside).trans h.fronts.2⟩
  goesOn := h.goesOn
  received := h.received
  inside := h.inside.trans (by rw [List.length_append]; exact Nat.le_add_right _ _)
  small := h.small

/-- A connection with nothing on its way has no turn. -/
theorem Underway.opened {link : Link} (h : Underway link serving) : link≠.opened [] := by
  rintro rfl
  exact absurd (h.received.trans_le h.inside) (Nat.lt_irrefl 0)

/-- What the servers do otherwise leaves the connection of a turn there. -/
theorem underway_acted {action : TwoServers.Action Surroundings Scene} {servers : Servers Surroundings}
    (h : Underway (system.servers.links peer) serving)
    (hinquires : ∀ number,LinkRuns.Inquires (environment deployment) system.servers number)
    (haction : ∀ count world,action≠.receives peer count world)
    (hstep : TwoServers.step (environment deployment) system.servers action=some servers) :
    Underway (servers.links peer) serving := by
  have hother : ∀ {number : ℕ} {link : Link},system.servers.links (.content number)=.opened [] →
      Underway (Function.update system.servers.links (.content number) link peer) serving := by
    intro number link hopened
    by_cases hpeer : peer=.content number
    · subst hpeer
      exact absurd hopened h.opened
    · rwa [Function.update_of_ne hpeer]
  have hasking : ∀ {number : ℕ} {request : ClientRequest},
      system.servers.inquiries number=.asking request →
        system.servers.links (.content number)=.opened [] := by
    intro number request hasks
    have hinquiry := hinquires number
    unfold LinkRuns.Inquires at hinquiry
    rw [hasks] at hinquiry
    exact hinquiry.1
  cases ServedOnce.stepped_of_step hstep with
  | sent client bytes =>
    by_cases hpeer : peer=.client client
    · subst hpeer
      dsimp only
      rw [Function.update_self]
      exact h.sends bytes
    · dsimp only
      rwa [Function.update_of_ne hpeer]
  | served other count world hopen hpos hcount hbuffer =>
    dsimp only
    rwa [Function.update_of_ne]
    rintro rfl
    exact haction count world rfl
  | written number request hasks => exact hother (hasking hasks)
  | broken number count request hasks => exact hother (hasking hasks)
  | _ => exact h

/-- In every run each turn under way has what its recv returned in front of it. -/
theorem run_underway (hrun : run (step deployment) opened deeds=some system) :
    ∀ peer serving,system.serving peer=some serving →
      Underway (system.servers.links peer) serving := by
  have hopened : ∀ peer serving,opened.serving peer=some serving →
      Underway (opened.servers.links peer) serving := by
    intro peer serving h
    cases h
  refine @run_history System Deed (step deployment) opened system (fun _ system =>
    ∀ peer serving,system.serving peer=some serving →
      Underway (system.servers.links peer) serving) hopened ?_ deeds hrun
  intro taken state deed next htaken h hstep
  have hinquires : ∀ number,LinkRuns.Inquires (environment deployment) state.servers number := by
    obtain ⟨actions,hactions,_⟩ := run_servers htaken
    exact fun number => LinkRuns.inquires_of_run hactions number
  cases stepped_of_step hstep with
  | began other count coming hidle hopen hpos hcount hbuffer =>
    intro peer serving hserving
    rcases serving_update hserving with ⟨rfl,hnew⟩|⟨_,hserving⟩
    · cases hnew
      have hlength : ((state.servers.links peer).inflight.take count).length=count := by
        rw [List.length_take,Nat.min_eq_left hcount]
      refine ⟨⟨rfl,?_⟩,hopen,?_,?_,?_⟩
      all_goals dsimp only [Serving.begun]
      all_goals rw [hlength]
      · exact hpos
      · exact hcount
      · exact hbuffer
    · exact h peer serving hserving
  | transacted other another move site hother hnext hmove =>
    intro peer serving hserving
    rcases serving_update hserving with ⟨rfl,hnew⟩|⟨_,hserving⟩
    · cases hnew
      have hbefore := h peer another hother
      unfold Serving.behind
      cases another.registering <;>
        exact ⟨hbefore.fronts,hbefore.goesOn,hbefore.received,hbefore.inside,hbefore.small⟩
    · exact h peer serving hserving
  | replied other another servers hother hnext hfronts hservers =>
    intro peer serving hserving
    rcases serving_update hserving with ⟨_,hnone⟩|⟨hne,hserving⟩
    · cases hnone
    · refine underway_acted (h peer serving hserving) hinquires (fun count world heq => ?_) hservers
      cases heq
      exact hne rfl
  | acted deed action servers hreceives htransacts hreplies haction hservers =>
    intro peer serving hserving
    refine underway_acted (h peer serving hserving) hinquires (fun count world heq => ?_) hservers
    subst heq
    cases deed with
    | replies other => exact hreplies other rfl
    | _ => cases haction

/-- The next transaction of a turn can end. -/
theorem next_possible {installation : Installation} {site : Site} {move : Move}
    (h : serving.next installation site=some move) :
    ∃ after,SharedStore.step installation.dialect site move=some after := by
  unfold Serving.next at h
  cases hserving : serving.registering with
  | some userId =>
    rw [hserving] at h
    obtain ⟨stage,hstage,rfl⟩ := Option.map_eq_some_iff.mp h
    unfold SharedStore.step
    cases stage with
    | inserted userProperties binaryData =>
      dsimp only [stageMove]
      rw [hstage]
      dsimp only
      split <;> exact ⟨_,rfl⟩
    | pictured userProperties binaryData photoId =>
      dsimp only [stageMove]
      rw [hstage]
      dsimp only
      split <;> exact ⟨_,rfl⟩
    | undoing photoId =>
      cases photoId <;> dsimp only [stageMove] <;> rw [hstage] <;> exact ⟨_,rfl⟩
  | none =>
    rw [hserving] at h
    obtain ⟨call,_,rfl⟩ := Option.map_eq_some_iff.mp h
    unfold SharedStore.step
    cases call with
    | addNewUser postInfo =>
      dsimp only [callMove]
      split <;> exact ⟨_,rfl⟩
    | _ => exact ⟨_,rfl⟩

/-- Whatever others do, a turn under way can take its next transaction, or end:
no guard of a step keeps it from going on. -/
theorem turns_go_on (hrun : run (step deployment) opened deeds=some system)
    (hserving : system.serving peer=some serving) :
    (∃ next,step deployment system (.transacts peer)=some next) ∨
      ∃ next,step deployment system (.replies peer)=some next := by
  have hunder := run_underway hrun peer serving hserving
  cases hnext : serving.next deployment.installation system.site with
  | some move =>
    obtain ⟨site,hsite⟩ := next_possible hnext
    refine Or.inl (Option.isSome_iff_exists.mp ?_)
    unfold step
    dsimp only
    rw [hserving]
    simp only [Option.bind_eq_bind,Option.bind_some,hnext,hsite]
    rfl
  | none =>
    obtain ⟨servers,hservers⟩ : ∃ servers,TwoServers.step (environment deployment) system.servers
        (.receives peer serving.received.length serving.world)=some servers := by
      unfold TwoServers.step
      dsimp only
      rw [if_pos ⟨hunder.goesOn,hunder.received,hunder.inside,hunder.small⟩]
      exact ⟨_,rfl⟩
    refine Or.inr (Option.isSome_iff_exists.mp ?_)
    unfold step
    dsimp only
    rw [hserving]
    simp only [Option.bind_eq_bind,Option.bind_some,hnext,hservers]
    rw [if_pos ⟨rfl,hunder.fronts⟩]
    rfl

end progress

section ledgers

variable {deployment : Deployment} {system next final : System} {deed : Deed} {deeds : List Deed}

/-- Changes that the turns of a peer have made, in order. -/
def madeBy (system : System) (peer : Peer) : List Change :=
  (system.turns.flatMap fun turn => if turn.1=peer then turn.2.made else [])++
    ((system.serving peer).map Serving.made).getD []

/-- A change, if it has a source. -/
def changeFrom (source : Source) (change : Source×Change) : Option Change :=
  if change.1=source then some change.2 else none

/-- Changes of one source have it. -/
theorem changeFrom_self (source : Source) (changes : List Change) :
    (changes.map (Prod.mk source)).filterMap (changeFrom source)=changes := by
  rw [List.filterMap_map]
  refine (List.filterMap_congr fun change _ => ?_).trans (List.filterMap_some (l := changes))
  exact if_pos rfl

/-- They have no other. -/
theorem changeFrom_other {source other : Source} (h : source≠other) (changes : List Change) :
    (changes.map (Prod.mk source)).filterMap (changeFrom other)=[] := by
  rw [List.filterMap_map]
  exact List.filterMap_eq_nil_iff.mpr fun change _ => if_neg h

/-- A turn behind a transaction has committed its changes as well. -/
theorem behind_made (dialect : Dialect) (site after : Site) (move : Move) (serving : Serving) :
    (serving.behind dialect site after move).made=serving.made++committed dialect site move := by
  unfold Serving.behind
  cases serving.registering <;> rfl

/-- A step adds what it reports for a peer to what the turns of the peer have made. -/
theorem step_made (hstep : step deployment system deed=some next) (peer : Peer) :
    madeBy next peer=madeBy system peer++
      (reported deployment system deed).filterMap (changeFrom (.turn peer)) := by
  unfold madeBy
  cases stepped_of_step hstep with
  | began other count coming hidle hopen hpos hcount hbuffer =>
    by_cases hpeer : peer=other
    · subst hpeer
      dsimp only
      rw [Function.update_self,hidle]
      exact (List.append_nil _).symm
    · dsimp only
      rw [Function.update_of_ne hpeer]
      exact (List.append_nil _).symm
  | transacted other serving move site hserving hnext hmove =>
    have hreported : reported deployment system (.transacts other)=
        (committed deployment.installation.dialect system.site move).map
          (Prod.mk (Source.turn other)) := by
      unfold reported
      dsimp only
      rw [hserving]
      dsimp only [Option.bind]
      rw [hnext]
    rw [hreported]
    by_cases hpeer : peer=other
    · subst hpeer
      dsimp only
      rw [Function.update_self,hserving,changeFrom_self,List.append_assoc]
      exact congrArg _ (behind_made _ _ _ _ _)
    · have hsource : Source.turn other≠.turn peer := fun heq => hpeer (Source.turn.inj heq).symm
      dsimp only
      rw [Function.update_of_ne hpeer,changeFrom_other hsource,List.append_nil]
  | replied other serving servers hserving hnext hfronts hservers =>
    have hreported : reported deployment system (.replies other)=[] := rfl
    dsimp only
    rw [hreported,List.filterMap_nil,List.append_nil,List.flatMap_append,List.flatMap_singleton]
    by_cases hpeer : peer=other
    · subst hpeer
      dsimp only
      rw [if_pos rfl,Function.update_self,hserving]
      exact List.append_nil _
    · dsimp only
      rw [if_neg (Ne.symm hpeer),Function.update_of_ne hpeer,List.append_nil]
  | acted deed action servers hreceives htransacts hreplies haction hservers =>
    have hnone : (reported deployment system deed).filterMap (changeFrom (.turn peer))=[] := by
      cases deed with
      | transacts other => exact absurd rfl (htransacts other)
      | reads number found =>
        unfold reported
        dsimp only
        split
        · exact changeFrom_other Source.noConfusion _
        · rfl
      | _ => rfl
    dsimp only
    rw [hnone,List.append_nil]

/-- The tables behind a run stand for the network that it has made. -/
theorem run_network (hrun : run (step deployment) opened deeds=some final) :
    networkOf final.site.store=networkBy deployment deeds := by
  have hledger := @run_ledger System Deed (step deployment) (Source×Change) Network (reported deployment)
    (fun system => Sound system.site) (fun system => networkOf system.site.store)
    (fun network change => network.after change.2)
    (fun _ _ _ hsound hstep => (step_refined hsound hstep).sound)
    (fun state deed next hsound hstep => (step_refined hsound hstep).network.trans List.foldl_map)
    opened final deeds sound_empty hrun
  exact hledger.trans List.foldl_map.symm

/-- Wherever clients, the network and failures lead both servers, with the
transactions of all turns in any order: the tables stand for the network that
all changes make in the order of their transactions. Those of the turns of a
peer are what its turns have made, one after the other, and every turn that has
ended, as the log shows it, has made exactly what it acknowledged. -/
theorem acknowledged_by_both (hrun : run (step deployment) opened deeds=some final) :
    networkOf final.site.store=networkBy deployment deeds ∧
      (∀ peer,(reportedBy deployment deeds).filterMap (changeFrom (.turn peer))=madeBy final peer) ∧
      (final.servers.log.filter isTurn).reverse=final.turns.map (turnEntry deployment) ∧
      ∀ turn ∈ final.turns,Settles deployment.installation turn.2 := by
  have horderly := run_orderly hrun
  refine ⟨run_network hrun,fun peer => ?_,horderly.logged,horderly.settled⟩
  exact (run_recorded (fun _ _ _ hstep => step_made hstep peer) hrun).symm

/-- Both servers with the sample libraries. -/
def plainDeployment : Deployment := ⟨plainInstallation,parsePlain,dumpPlain,withBob.userAgent⟩

/-- The database works, and lists the latest posts first. -/
def working : Circumstances×Arrangement latestFirst :=
  (PostPhotos.healthy,Arrangement.ofSort latestFirst)

/-- A text part of a form. -/
def textPart (name value : Bytes) : Bytes :=
  ascii "----b\r\nContent-Disposition: form-data; name=\""++name++ascii "\"\r\n\r\n"++value++
    ascii "\r\n"

/-- A form with a nickname, an email, a password and a photo. -/
def nicknameForm (nickname email : Bytes) : Bytes :=
  textPart (ascii "nickname") nickname++textPart (ascii "email") email++
    textPart (ascii "password") (ascii "hash of p")++
    ascii "----b\r\nContent-Disposition: form-data; name=\"photo\"; filename=\"a\"\r\n"++
    ascii "Content-Type: image/png\r\n\r\nPNG\r\n----b--\r\n"

/-- A registration with it. -/
def registrationOf (nickname email : Bytes) : Bytes :=
  ascii "POST /registration HTTP/1.1\r\nOrigin: o\r\n"++
    ascii "Content-Type: multipart/form-data; boundary=--b\r\nContent-Length: "++
    HttpReader.numeral (nicknameForm nickname email).length++ascii "\r\n\r\n"++
    nicknameForm nickname email

/-- The link of a registration breaks down. -/
def unlinked : ℕ → Conditions×ℕ :=
  fun _ => ({intact with breakdowns := ⟨false,false,true,false,false⟩},0)

/-- A client sends a message, and its turn begins. -/
def begins (client : ℕ) (message : Bytes) (coming : ℕ → Conditions×ℕ) : List Deed :=
  [.sends client message,.receives (.client client) message.length coming]

/-- A message with so many transactions, which no others come between. -/
def exchanged (client : ℕ) (message : Bytes) (coming : ℕ → Conditions×ℕ) (count : ℕ) : List Deed :=
  begins client message coming++List.replicate count (.transacts (.client client))++
    [.replies (.client client)]

/-- The photo of a registration breaks down. -/
def unphotographed : ℕ → Conditions×ℕ :=
  fun _ => ({intact with breakdowns := ⟨false,true,false,false,false⟩},0)

/-- A registration, sixteen ones that are undone, and that of the user 18. -/
def eighteenth : List Deed :=
  exchanged 3 (registrationOf (ascii "bob") (ascii "b@b")) fine 3++
    (List.replicate 16
      (exchanged 3 (registrationOf (ascii "ann") (ascii "a@b")) unphotographed 3)).flatten++
    exchanged 3 (registrationOf (ascii "ann") (ascii "a@b")) fine 3

/-- A client's request to the content server, up to the turn over its inquiry. -/
def inquired (number : ℕ) (request : ClientRequest) : List Deed :=
  [.asks number request working,.writes number,
    .receives (.content number) (request.inquiry withBob.userAgent).length fine,
    .replies (.content number)]

/-- A new post, with the token of the user 1. -/
def publishRequest : ClientRequest :=
  ⟨.post,ascii "/addNewPost",ascii "o",honestField,
    ⟨FormDataParser.formContentType (ascii "--7"),by decide +kernel⟩,
    ⟨FormDataParser.encodeForm (ascii "--7") FormDataParser.lineEnd FormDataRoundTrip.sampleParts,
      by decide +kernel⟩⟩

/-- The photo of the first post, with the same token. -/
def photoRequest : ClientRequest :=
  ⟨.get,ascii "/getPostPhoto?photo_id=1",ascii "o",honestField,⟨[],Nat.zero_le _⟩,
    ⟨[],Nat.zero_le _⟩⟩

/-- Two clients register at once, and the registration of the second one is undone. -/
def registering : List Deed :=
  begins 3 (registrationOf (ascii "ann") (ascii "a@b")) fine++
    begins 4 (registrationOf (ascii "eve") (ascii "e@b")) unlinked++
    [.transacts (.client 3),.transacts (.client 4),.transacts (.client 4),.transacts (.client 3),
      .transacts (.client 4),.transacts (.client 3),.replies (.client 3),.transacts (.client 4),
      .transacts (.client 4),.replies (.client 4)]

/-- The first one publishes a post. -/
def publishing : List Deed := registering++inquired 0 publishRequest++[.reads 0 working]

/-- The post is the first user's, and the second one is gone. -/
theorem acknowledged_by_both_publishing :
    ∃ final,run (step plainDeployment) opened publishing=some final ∧
      networkOf final.site.store=networkBy plainDeployment publishing ∧
      ((networkOf final.site.store).publications 1).map Publication.owner=some 1 ∧
      (networkOf final.site.store).accounts 2=none ∧ final.turns.length=3 ∧
      ∀ turn ∈ final.turns,Settles plainInstallation turn.2 := by
  have hmap : (run (step plainDeployment) opened publishing).map (fun final =>
      (((networkOf final.site.store).publications 1).map Publication.owner,
        (networkOf final.site.store).accounts 2,final.turns.length))=some (some 1,none,3) := by
    decide +kernel
  obtain ⟨final,hrun,hseen⟩ := Option.map_eq_some_iff.mp hmap
  obtain ⟨howner,hrest⟩ := Prod.mk.inj hseen
  obtain ⟨haccount,hturns⟩ := Prod.mk.inj hrest
  have hboth := acknowledged_by_both hrun
  exact ⟨final,hrun,hboth.1,howner,haccount,hturns,hboth.2.2.2⟩

end ledgers

end Photogram.WholeSystem
