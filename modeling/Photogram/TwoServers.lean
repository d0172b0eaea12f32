import Mathlib.Data.List.TakeWhile
import Mathlib.Logic.Function.Basic
import Photogram.AuthRequestRuns
import Photogram.AuthSession
import Photogram.Schedule
import Photogram.ServerInquiry

/-!
# The two servers

Clients talk to both servers at once. Every connection of the content server
puts its inquiry on a connection of its own to the authentication server,
where the network cuts it anywhere, and acts on the first reply. The order of
all receives, writes and callbacks is free, and so are the worlds they find.
The log keeps what happened, the latest first.
-/

namespace Photogram.TwoServers

open CxxString EffectLog JsonValue JwtToken AuthResponse AuthConnection AuthGuard
open AnotherServerConnection ContentConnection ServerInquiry Schedule AuthSession

/-- Peers of the authentication server. -/
inductive Peer where
  /-- A client. -/
  | client (number : ℕ)
  /-- A connection of the content server. -/
  | content (number : ℕ)
  deriving DecidableEq

/-- A connection of the authentication server. -/
structure Link where
  /-- The buffered request. -/
  buffer : Bytes
  /-- Bytes sent to it that no recv has returned yet. -/
  inflight : Bytes
  /-- Replies it has sent. -/
  replies : List Reply
  /-- An exception ended it. -/
  ended : Bool

/-- A new connection with bytes on their way. -/
def Link.opened (inflight : Bytes) : Link := ⟨[],inflight,[],false⟩

/-- How far a connection of the content server has come. -/
inductive Inquiry where
  /-- No request is read yet. -/
  | idle
  /-- The inquiry is not written yet. -/
  | asking (request : ClientRequest)
  /-- The inquiry is written, and its reply awaited. -/
  | awaiting (request : ClientRequest)
  /-- Nothing is pending any more. -/
  | rest

/-- What happened. -/
inductive Entry (σ : Type) where
  /-- A turn of the authentication server over its buffered bytes. -/
  | turn (peer : Peer) (buffered : Bytes) (world : σ) (events : List Event)
  /-- The content server handled a request. -/
  | handled (number : ℕ) (request : ClientRequest) (events : List ContentEvent)
  /-- The callback of an inquiry was invoked with a text. -/
  | called (number : ℕ) (request : ClientRequest) (id : Bytes) (events : List ContentEvent)

/-- Both servers with their connections. -/
structure Servers (σ : Type) where
  /-- Connections of the authentication server. -/
  links : Peer → Link
  /-- Connections of the content server. -/
  inquiries : ℕ → Inquiry
  /-- The log. -/
  log : List (Entry σ)

/-- What happens next. -/
inductive Action (σ τ : Type) where
  /-- A client sends bytes to the authentication server. -/
  | sends (client : ℕ) (bytes : Bytes)
  /-- A recv of the authentication server returns some bytes. -/
  | receives (peer : Peer) (count : ℕ) (world : σ)
  /-- The content server has read a request. -/
  | asks (number : ℕ) (request : ClientRequest) (world : τ)
  /-- An inquiry is connected and written. -/
  | writes (number : ℕ)
  /-- An inquiry fails, with a part of it written. -/
  | breaks (number written : ℕ)
  /-- An inquiry reads its reply. -/
  | reads (number : ℕ) (world : τ)

/-- What both servers take from outside. -/
structure Environment (σ τ : Type) where
  /-- Surroundings of the authentication server. -/
  auth : Services σ
  /-- Surroundings of the content server. -/
  content : ContentServices τ
  /-- Name the client library gives itself. -/
  userAgent : FieldValue

/-- Size of the receive buffer. -/
def bufferSize : ℕ := 2048

/-- A reply as the content server's client library delivers it. -/
def delivered (dump : Json → Option Bytes) : Reply → Option ServerReply
  | .answerJson _ body => (dump body).map fun text => ⟨200,text⟩
  | .answerEmpty _ => some ⟨200,[]⟩
  | .answerTokens _ _ accessToken nickname =>
    (dump (tokensBody accessToken nickname)).map fun text => ⟨200,text⟩
  | .answerBinData _ _ binData => some ⟨200,binData⟩
  | .answerOptions _ => some ⟨204,[]⟩
  | .sendError _ errorCode textError =>
    (dump (errorBody textError)).map fun text => ⟨decimalValue errorCode,text⟩

variable {σ τ : Type}

/-- A connection after a turn over some of its bytes. -/
def Link.served (link : Link) (count : ℕ) (ran : Ran σ Event Bytes) : Link :=
  match ran.outcome with
  | .ok buffer => ⟨buffer,link.inflight.drop count,link.replies++AuthRequestRuns.replies ran.events,false⟩
  | .error _ => ⟨[],link.inflight.drop count,link.replies++AuthRequestRuns.replies ran.events,true⟩

/-- Where a handled request leaves its connection. -/
def inquiryAfter (request : ClientRequest) : Except Failure Bool → Inquiry
  | .ok true => .asking request
  | _ => .rest

/-- One action, if it is possible. -/
def step (env : Environment σ τ) (servers : Servers σ) : Action σ τ → Option (Servers σ)
  | .sends client bytes =>
    let link := servers.links (.client client)
    some {servers with
      links := Function.update servers.links (.client client)
        {link with inflight := link.inflight++bytes}}
  | .receives peer count world =>
    let link := servers.links peer
    if link.ended=false ∧ 0<count ∧ count ≤ link.inflight.length ∧ count ≤ bufferSize then
      let received := link.inflight.take count
      let ran := turn env.auth link.buffer received world
      some {servers with
        links := Function.update servers.links peer (link.served count ran)
        log := .turn peer (link.buffer++received) world ran.events::servers.log}
    else none
  | .asks number request world =>
    match servers.inquiries number with
    | .idle =>
      let ran := handleRequest env.content request world
      some {servers with
        inquiries := Function.update servers.inquiries number (inquiryAfter request ran.outcome)
        log := .handled number request ran.events::servers.log}
    | _ => none
  | .writes number =>
    match servers.inquiries number with
    | .asking request =>
      some {servers with
        links := Function.update servers.links (.content number)
          (.opened (request.inquiry env.userAgent))
        inquiries := Function.update servers.inquiries number (.awaiting request)}
    | _ => none
  | .breaks number written =>
    match servers.inquiries number with
    | .asking request =>
      some {servers with
        links := Function.update servers.links (.content number)
          (.opened ((request.inquiry env.userAgent).take written))
        inquiries := Function.update servers.inquiries number .rest}
    | .awaiting _ =>
      some {servers with inquiries := Function.update servers.inquiries number .rest}
    | _ => none
  | .reads number world =>
    match servers.inquiries number,(servers.links (.content number)).replies with
    | .awaiting request,reply::_ => do
      let serverReply ← delivered env.auth.dump reply
      let rested := Function.update servers.inquiries number .rest
      match verdict env.content.jsonParse serverReply with
      | .ok id =>
        let ran := onGetId env.content request id world
        some {servers with
          inquiries := rested
          log := .called number request id ran.events::servers.log}
      | .error _ => some {servers with inquiries := rested}
    | _,_ => none

/-- Before the first connection. -/
def fresh : Servers σ := ⟨fun _ => .opened [],fun _ => .idle,[]⟩

/-- The possible actions with the servers they lead to. -/
inductive Moved (env : Environment σ τ) (servers : Servers σ) : Action σ τ → Servers σ → Prop where
  /-- Bytes are on their way. -/
  | sent (client : ℕ) (bytes : Bytes) (link : Link) :
    Moved env servers (.sends client bytes)
      {servers with links := Function.update servers.links (.client client) link}
  /-- A turn over received bytes. -/
  | served (peer : Peer) (count : ℕ) (world : σ) (link : Link) (hlink : link=servers.links peer)
    (hopen : link.ended=false) (hpos : 0<count) (hcount : count ≤ link.inflight.length) :
    Moved env servers (.receives peer count world)
      {servers with
        links := Function.update servers.links peer
          (link.served count (turn env.auth link.buffer (link.inflight.take count) world))
        log := .turn peer (link.buffer++link.inflight.take count) world
          (turn env.auth link.buffer (link.inflight.take count) world).events::servers.log}
  /-- A request is handled. -/
  | asked (number : ℕ) (request : ClientRequest) (world : τ) :
    Moved env servers (.asks number request world)
      {servers with
        inquiries := Function.update servers.inquiries number
          (inquiryAfter request (handleRequest env.content request world).outcome)
        log := .handled number request (handleRequest env.content request world).events::servers.log}
  /-- An inquiry is written. -/
  | written (number : ℕ) (request : ClientRequest) :
    Moved env servers (.writes number)
      {servers with
        links := Function.update servers.links (.content number)
          (.opened (request.inquiry env.userAgent))
        inquiries := Function.update servers.inquiries number (.awaiting request)}
  /-- An inquiry fails while it is written. -/
  | broken (number written : ℕ) (link : Link) :
    Moved env servers (.breaks number written)
      {servers with
        links := Function.update servers.links (.content number) link
        inquiries := Function.update servers.inquiries number .rest}
  /-- An inquiry fails later, or its reply leads to no verdict. -/
  | rested (number : ℕ) (action : Action σ τ) :
    Moved env servers action
      {servers with inquiries := Function.update servers.inquiries number .rest}
  /-- The callback acts on the verdict of the first reply. -/
  | called (number : ℕ) (world : τ) (request : ClientRequest) (reply : Reply)
    (serverReply : ServerReply) (id : Bytes)
    (hinquiry : servers.inquiries number=.awaiting request)
    (hreply : reply ∈ (servers.links (.content number)).replies)
    (hdelivered : delivered env.auth.dump reply=some serverReply)
    (hverdict : verdict env.content.jsonParse serverReply=.ok id) :
    Moved env servers (.reads number world)
      {servers with
        inquiries := Function.update servers.inquiries number .rest
        log := .called number request id (onGetId env.content request id world).events::servers.log}

/-- A step is one of the possible actions. -/
theorem moved_of_step {env : Environment σ τ} {servers next : Servers σ} {action : Action σ τ}
    (h : step env servers action=some next) : Moved env servers action next := by
  unfold step at h
  cases action with
  | sends client bytes =>
    cases h
    exact .sent client bytes _
  | receives peer count world =>
    dsimp only at h
    split at h
    · next hready =>
      obtain ⟨hopen,hpos,hcount,_⟩ := hready
      cases h
      exact .served peer count world _ rfl hopen hpos hcount
    · cases h
  | asks number request world =>
    dsimp only at h
    split at h
    · cases h
      exact .asked number request world
    · cases h
  | writes number =>
    dsimp only at h
    split at h
    · cases h
      exact .written number _
    · cases h
  | breaks number written =>
    dsimp only at h
    split at h
    · cases h
      exact .broken number written _
    · cases h
      exact .rested number _
    · cases h
  | reads number world =>
    dsimp only at h
    split at h
    · next request reply others hinquiry hreplies =>
      obtain ⟨serverReply,hdelivered,h⟩ := Option.bind_eq_some_iff.mp h
      split at h
      · next id hverdict =>
        cases h
        exact .called number world request reply serverReply id hinquiry
          (hreplies ▸ List.mem_cons_self) hdelivered hverdict
      · cases h
        exact .rested number _
    · cases h

section statements

variable (env : Environment σ τ)

/-- Every database call of a turn is guarded. -/
def Guarded (auth : Services σ) : Entry σ → Prop
  | .turn _ buffered world events => GuardedTurn auth buffered world events
  | _ => True

/-- The content server calls operations for a user only behind a turn of the
authentication server that answered the inquiry of that connection, which
carries the Authorization field of its request, for that user. -/
def VouchedBy (earlier : List (Entry σ)) : Entry σ → Prop
  | .turn _ _ _ _ => True
  | .handled _ _ events => ∀ op,.operation op ∉ events
  | .called number request id events =>
    ∀ op,.operation op ∈ events → (op.actingUser=none ∨ op.actingUser=some id) ∧
      ∃ world answered,.turn (.content number) (request.inquiry env.userAgent) world answered ∈ earlier ∧
        AnswersInquiry env.auth world answered id

/-- Every entry of a log is vouched for by what happened before it. -/
def Vouched : List (Entry σ) → Prop
  | [] => True
  | entry::earlier => VouchedBy env earlier entry ∧ Vouched earlier

/-- The first recv for an inquiry returns at least seven bytes. -/
def StartsWhole (servers : Servers σ) : Action σ τ → Prop
  | .receives (.content number) count _ =>
    (servers.links (.content number)).buffer=[] → 7 ≤ count
  | _ => True

/-- The content server reads back the answer of an inquiry. -/
def ReadsBack : Prop :=
  ∀ id text,(∀ digit ∈ id,isDigit digit) → env.auth.dump (idBody id)=some text →
    env.content.jsonParse text=some (idBody id)

/-- Subjects of accepted tokens are decimal numerals. -/
def DecimalSubjects (auth : Services σ) : Prop :=
  ∀ token now id,checkAccessToken auth.jwt token secret now=.ok id → ∀ digit ∈ id,isDigit digit

/-- Ids that the turns of a log answer inquiries with are decimal numerals. -/
def DecimalAnswers (auth : Services σ) (log : List (Entry σ)) : Prop :=
  ∀ peer buffered world events id,.turn peer buffered world events ∈ log →
    AnswersInquiry auth world events id → ∀ digit ∈ id,isDigit digit

end statements

section runs

variable {env : Environment σ τ}

/-- Every turn of a run is guarded. -/
theorem step_guarded {servers next : Servers σ} {action : Action σ τ}
    (h : ∀ entry ∈ servers.log,Guarded env.auth entry) (hstep : step env servers action=some next) :
    ∀ entry ∈ next.log,Guarded env.auth entry := by
  cases moved_of_step hstep with
  | sent client bytes link => exact h
  | served peer count world link hlink hopen hpos hcount =>
    exact List.forall_mem_cons.mpr ⟨turn_guarded env.auth _ _ world,h⟩
  | asked number request world => exact List.forall_mem_cons.mpr ⟨trivial,h⟩
  | written number request => exact h
  | broken number written link => exact h
  | rested number => exact h
  | called number world request reply serverReply id hinquiry hreply hdelivered hverdict =>
    exact List.forall_mem_cons.mpr ⟨trivial,h⟩

/-- A step keeps what the log holds. -/
theorem log_subset {servers next : Servers σ} {action : Action σ τ}
    (hstep : step env servers action=some next) : servers.log ⊆ next.log := by
  cases moved_of_step hstep with
  | served peer count world link hlink hopen hpos hcount => exact List.subset_cons_self _ _
  | asked number request world => exact List.subset_cons_self _ _
  | called number world request reply serverReply id hinquiry hreply hdelivered hverdict =>
    exact List.subset_cons_self _ _
  | _ => exact List.Subset.refl _

end runs

section replies

variable (env : Environment σ τ)

/-- A reply to an inquiry: an error, or the id a logged turn answered it with. -/
def ReplyFor (log : List (Entry σ)) (number : ℕ) (request : ClientRequest) (reply : Reply) : Prop :=
  ErrorReply reply ∨ ∃ origin id,reply=.answerJson origin (idBody id) ∧
    ∃ world events,.turn (.content number) (request.inquiry env.userAgent) world events ∈ log ∧
      AnswersInquiry env.auth world events id

variable {env} {log : List (Entry σ)} {number : ℕ} {request : ClientRequest} {reply : Reply}

/-- A reply accounted for stays so while the log grows. -/
theorem ReplyFor.cons (h : ReplyFor env log number request reply) (entry : Entry σ) :
    ReplyFor env (entry::log) number request reply := by
  rcases h with h|⟨origin,id,hreply,world,events,hmem,hanswers⟩
  · exact Or.inl h
  · exact Or.inr ⟨origin,id,hreply,world,events,List.mem_cons_of_mem _ hmem,hanswers⟩

/-- A reply is among the replies of some events when it was sent in them. -/
theorem mem_replies {events : List Event} (h : reply ∈ AuthRequestRuns.replies events) :
    .sent reply ∈ events := by
  obtain ⟨event,hmem,hreply⟩ := List.mem_filterMap.mp h
  split at hreply <;> cases hreply
  exact hmem

/-- The id in the answer to an inquiry is a text without a null character. -/
theorem idMember_idBody {id : Bytes} (h : ∀ digit ∈ id,isDigit digit) :
    idMember (idBody id)=.ok id := by
  have hstring : cString id=id := by
    refine List.takeWhile_eq_self_iff.mpr fun digit hmem => decide_eq_true fun hzero => ?_
    have hdigit := h digit hmem
    rw [hzero] at hdigit
    exact absurd hdigit (by decide)
  unfold idMember idBody Json.at
  dsimp only
  rw [List.lookup_cons_self,ok_bind]
  change Except.ok (cString id)=_
  rw [hstring]

/-- An error reply is handed on as an error word. -/
theorem verdict_errorReply {dump : Json → Option Bytes} {jsonParse : Bytes → Option Json}
    {serverReply : ServerReply} {id : Bytes} (h : ErrorReply reply)
    (hdelivered : delivered dump reply=some serverReply)
    (hverdict : verdict jsonParse serverReply=.ok id) :
    id=unauthorized ∨ id=badRequest ∨ id=internalServerError := by
  cases reply with
  | sendError origin errorCode textError =>
    obtain ⟨text,_,htext⟩ := Option.map_eq_some_iff.mp hdelivered
    rw [←htext] at hverdict
    rcases h with rfl|rfl
    · have hcode : decimalValue (ascii "401")=401 := by decide +kernel
      rw [hcode] at hverdict
      cases hverdict
      exact Or.inl rfl
    · have hcode : decimalValue (ascii "500")=500 := by decide +kernel
      rw [hcode] at hverdict
      cases hverdict
      exact Or.inr (Or.inr rfl)
  | answerJson origin body => exact h.elim
  | answerEmpty origin => exact h.elim
  | answerTokens origin refreshToken accessToken nickname => exact h.elim
  | answerBinData origin type binData => exact h.elim
  | answerOptions origin => exact h.elim

/-- Where all subjects are decimal numerals, so are the ids of answers. -/
theorem DecimalSubjects.answers (h : DecimalSubjects env.auth) (log : List (Entry σ)) :
    DecimalAnswers env.auth log := by
  rintro peer buffered world events id _ ⟨getInfo,_,_,_,haccepted,_⟩
  exact h _ _ _ haccepted

/-- The callback acts on a reply only for the id a logged turn answered with. -/
theorem called_vouched (hread : ReadsBack env) (hdecimal : DecimalAnswers env.auth log)
    {serverReply : ServerReply} {id : Bytes} (h : ReplyFor env log number request reply)
    (hdelivered : delivered env.auth.dump reply=some serverReply)
    (hverdict : verdict env.content.jsonParse serverReply=.ok id) (world : τ) :
    VouchedBy env log (.called number request id (onGetId env.content request id world).events) := by
  intro op hop
  rcases h with herror|⟨origin,subject,rfl,found,events,hmem,hanswers⟩
  · have hword := verdict_errorReply herror hdelivered hverdict
    exact ((onGetId_word env.content request hword).events world _ hop).elim
  · obtain ⟨text,hdump,htext⟩ := Option.map_eq_some_iff.mp hdelivered
    have hdigits := hdecimal _ _ _ _ _ hmem hanswers
    have hparsed := hread subject text hdigits hdump
    rw [←htext] at hverdict
    unfold verdict at hverdict
    rw [if_pos rfl] at hverdict
    dsimp only at hverdict
    rw [hparsed] at hverdict
    dsimp only at hverdict
    rw [idMember_idBody hdigits] at hverdict
    cases hverdict
    exact ⟨(onGetId_emits env.content request id).events world _ hop,found,events,hmem,hanswers⟩

end replies

section inquiries

variable (env : Environment σ τ)

/-- What is known of the connection of an awaited inquiry: its bytes are all
there and waited for, or its turns are over and its replies accounted for. -/
def Expects (log : List (Entry σ)) (number : ℕ) (inquiry : Inquiry) (link : Link) : Prop :=
  match inquiry with
  | .awaiting request =>
    (link.buffer++link.inflight=request.inquiry env.userAgent ∧ link.inflight≠[] ∧
        (link.buffer=[] ∨ 7 ≤ link.buffer.length) ∧ link.replies=[]) ∨
      ((link.ended=true ∨ link.inflight=[]) ∧
        ∀ reply ∈ link.replies,ReplyFor env log number request reply)
  | _ => True

variable {env} {log : List (Entry σ)} {number : ℕ}

/-- What is known stays known while the log grows. -/
theorem Expects.cons {inquiry : Inquiry} {link : Link} (h : Expects env log number inquiry link)
    (entry : Entry σ) : Expects env (entry::log) number inquiry link := by
  cases inquiry with
  | awaiting request =>
    rcases h with h|⟨hover,hreplies⟩
    · exact Or.inl h
    · exact Or.inr ⟨hover,fun reply hmem => (hreplies reply hmem).cons entry⟩
  | idle => trivial
  | asking request => trivial
  | rest => trivial

/-- The first turn that replies leaves its replies alone. -/
theorem replies_served {link : Link} {count : ℕ} {ran : Ran σ Event Bytes} (h : link.replies=[]) :
    (link.served count ran).replies=AuthRequestRuns.replies ran.events := by
  unfold Link.served
  rw [h]
  cases ran.outcome <;> rfl

/-- A turn over the last bytes leaves nothing to receive. -/
theorem served_last {link : Link} {count : ℕ} (ran : Ran σ Event Bytes)
    (h : link.inflight.drop count=[]) :
    (link.served count ran).ended=true ∨ (link.served count ran).inflight=[] := by
  unfold Link.served
  cases ran.outcome with
  | ok next => exact Or.inr h
  | error failure => exact Or.inl rfl

/-- The turn that completes an inquiry ends its turns, with replies that are
accounted for. -/
theorem served_whole {request : ClientRequest} {link : Link} {count : ℕ}
    (hwhole : link.buffer++link.inflight.take count=request.inquiry env.userAgent)
    (hrest : link.inflight.drop count=[]) (hreplies : link.replies=[]) (world : σ) :
    Expects env
      (.turn (.content number) (link.buffer++link.inflight.take count) world
        (turn env.auth link.buffer (link.inflight.take count) world).events::log)
      number (.awaiting request)
      (link.served count (turn env.auth link.buffer (link.inflight.take count) world)) := by
  refine Or.inr ⟨served_last _ hrest,fun reply hmem => ?_⟩
  rw [replies_served hreplies] at hmem
  rcases turn_inquiry env.auth hwhole (mem_replies hmem) with herror|⟨origin,id,hreply,hanswers⟩
  · exact Or.inl herror
  · refine Or.inr ⟨origin,id,hreply,world,_,?_,hanswers⟩
    rw [hwhole]
    exact List.mem_cons_self

/-- A turn over a part of an inquiry waits for more of it, unless it fails. -/
theorem served_part {request : ClientRequest} {link : Link} {count : ℕ}
    (hsplit : link.buffer++link.inflight.take count++link.inflight.drop count=
      request.inquiry env.userAgent)
    (hrest : link.inflight.drop count≠[]) (hreplies : link.replies=[])
    (hseven : 7 ≤ (link.buffer++link.inflight.take count).length) (world : σ) :
    Expects env log number (.awaiting request)
      (link.served count (turn env.auth link.buffer (link.inflight.take count) world)) := by
  unfold Link.served
  rw [hreplies]
  rcases turn_inquiry_part env.auth hrest hsplit hseven world with hrun|hrun
  · rw [hrun]
    exact Or.inl ⟨hsplit,hrest,Or.inr hseven,rfl⟩
  · rw [hrun]
    exact Or.inr ⟨Or.inl rfl,fun reply hmem => absurd hmem List.not_mem_nil⟩

/-- A turn over some bytes of an awaited inquiry keeps its connection as expected. -/
theorem served_expects {request : ClientRequest} {link : Link} {count : ℕ}
    (h : Expects env log number (.awaiting request) link) (hopen : link.ended=false)
    (hpos : 0<count) (hcount : count ≤ link.inflight.length) (hstart : link.buffer=[] → 7 ≤ count)
    (world : σ) :
    Expects env
      (.turn (.content number) (link.buffer++link.inflight.take count) world
        (turn env.auth link.buffer (link.inflight.take count) world).events::log)
      number (.awaiting request)
      (link.served count (turn env.auth link.buffer (link.inflight.take count) world)) := by
  rcases h with ⟨hwritten,_,hseven,hreplies⟩|⟨hover|hover,_⟩
  · have hsplit : link.buffer++link.inflight.take count++link.inflight.drop count=
        request.inquiry env.userAgent := by
      rw [List.append_assoc,List.take_append_drop]
      exact hwritten
    by_cases hrest : link.inflight.drop count=[]
    · rw [hrest,List.append_nil] at hsplit
      exact served_whole hsplit hrest hreplies world
    · have hlength : 7 ≤ (link.buffer++link.inflight.take count).length := by
        rw [List.length_append,List.length_take]
        rcases hseven with hempty|hseven
        · have hfirst := hstart hempty
          omega
        · omega
      exact served_part hsplit hrest hreplies hlength world
  · rw [hopen] at hover
    cases hover
  · rw [hover,List.length_nil] at hcount
    omega

/-- The log is vouched for, and every connection is as expected. -/
structure Honest (env : Environment σ τ) (servers : Servers σ) : Prop where
  /-- The log. -/
  vouched : Vouched env servers.log
  /-- The connections. -/
  expects : ∀ number,
    Expects env servers.log number (servers.inquiries number) (servers.links (.content number))

/-- Connections that do not change are as expected while the log grows. -/
theorem Honest.grow {servers : Servers σ} (h : Honest env servers) {links : Peer → Link}
    {inquiries : ℕ → Inquiry} {entries : List (Entry σ)}
    (hvouched : Vouched env (entries++servers.log))
    (hothers : ∀ other,Expects env (entries++servers.log) other (inquiries other)
      (links (.content other)) ∨
        (links (.content other)=servers.links (.content other) ∧
          inquiries other=servers.inquiries other)) :
    Honest env ⟨links,inquiries,entries++servers.log⟩ where
  vouched := hvouched
  expects other := by
    rcases hothers other with hexpects|⟨hlink,hinquiry⟩
    · exact hexpects
    · dsimp only
      rw [hlink,hinquiry]
      clear hvouched hothers
      induction entries with
      | nil => exact h.expects other
      | cons entry entries ih => exact ih.cons entry

/-- A connection of the content server changes with its link, and the log grows. -/
theorem Honest.update {servers : Servers σ} (h : Honest env servers) (entries : List (Entry σ))
    (hvouched : Vouched env (entries++servers.log)) {inquiry : Inquiry} {link : Link}
    (hexpects : Expects env (entries++servers.log) number inquiry link) :
    Honest env ⟨Function.update servers.links (.content number) link,
      Function.update servers.inquiries number inquiry,entries++servers.log⟩ := by
  refine h.grow hvouched fun other => ?_
  by_cases hother : other=number
  · rw [hother,Function.update_self,Function.update_self]
    exact Or.inl hexpects
  · rw [Function.update_of_ne hother,
      Function.update_of_ne fun heq => hother (Peer.content.inj heq)]
    exact Or.inr ⟨rfl,rfl⟩

/-- Only the connection of the content server changes. -/
theorem Honest.updateInquiry {servers : Servers σ} (h : Honest env servers)
    (entries : List (Entry σ)) (hvouched : Vouched env (entries++servers.log)) {inquiry : Inquiry}
    (hexpects : Expects env (entries++servers.log) number inquiry (servers.links (.content number))) :
    Honest env ⟨servers.links,Function.update servers.inquiries number inquiry,
      entries++servers.log⟩ := by
  have hupdate := h.update entries hvouched hexpects
  rwa [Function.update_eq_self] at hupdate

/-- Only the link changes. -/
theorem Honest.updateLink {servers : Servers σ} (h : Honest env servers) (entries : List (Entry σ))
    (hvouched : Vouched env (entries++servers.log)) {link : Link}
    (hexpects : Expects env (entries++servers.log) number (servers.inquiries number) link) :
    Honest env ⟨Function.update servers.links (.content number) link,servers.inquiries,
      entries++servers.log⟩ := by
  have hupdate := h.update entries hvouched hexpects
  rwa [Function.update_eq_self] at hupdate

/-- A change of a client's link concerns no connection of the content server. -/
theorem Honest.updateClient {servers : Servers σ} (h : Honest env servers)
    (entries : List (Entry σ)) (hvouched : Vouched env (entries++servers.log)) (client : ℕ)
    (link : Link) :
    Honest env ⟨Function.update servers.links (.client client) link,servers.inquiries,
      entries++servers.log⟩ :=
  h.grow hvouched fun _ => Or.inr ⟨Function.update_of_ne (by simp) _ _,rfl⟩

/-- An inquiry is not empty. -/
theorem inquiry_ne_nil (userAgent : FieldValue) (request : ClientRequest) :
    request.inquiry userAgent≠[] := by
  intro h
  have hseven := (AuthHttpParser.getReqT_spec (inquiry_getReqT userAgent request)).1
  rw [h] at hseven
  exact absurd hseven (by decide)

/-- Every action keeps the servers honest, when inquiries start with seven bytes. -/
theorem step_honest (hread : ReadsBack env) {servers next : Servers σ}
    (hdecimal : DecimalAnswers env.auth servers.log) {action : Action σ τ} (h : Honest env servers)
    (hstart : StartsWhole servers action) (hstep : step env servers action=some next) :
    Honest env next := by
  cases moved_of_step hstep with
  | sent client bytes link => exact h.updateClient [] h.vouched client link
  | served peer count world link hlink hopen hpos hcount =>
    cases peer with
    | client client => exact h.updateClient [_] (by exact ⟨trivial,h.vouched⟩) client _
    | content number =>
      refine h.updateLink [_] (by exact ⟨trivial,h.vouched⟩) ?_
      have hexpects := h.expects number
      rw [←hlink] at hexpects
      change (servers.links (.content number)).buffer=[] → 7 ≤ count at hstart
      rw [←hlink] at hstart
      cases hinquiry : servers.inquiries number with
      | awaiting request =>
        rw [hinquiry] at hexpects
        exact served_expects hexpects hopen hpos hcount hstart world
      | idle => trivial
      | asking request => trivial
      | rest => trivial
  | asked number request world =>
    have hsilent := (handleRequest_emits env.content request).events world
    refine h.updateInquiry [_] (by exact ⟨fun op hop => hsilent _ hop,h.vouched⟩) ?_
    unfold inquiryAfter
    split <;> trivial
  | written number request =>
    exact h.update [] h.vouched
      (Or.inl ⟨rfl,inquiry_ne_nil env.userAgent request,Or.inl rfl,rfl⟩)
  | broken number written link => exact h.update [] h.vouched trivial
  | rested number => exact h.updateInquiry [] h.vouched trivial
  | called number world request reply serverReply id hinquiry hreply hdelivered hverdict =>
    have hexpects := h.expects number
    rw [hinquiry] at hexpects
    have haccounted : ReplyFor env servers.log number request reply := by
      rcases hexpects with ⟨_,_,_,hnone⟩|⟨_,haccounted⟩
      · rw [hnone] at hreply
        exact absurd hreply List.not_mem_nil
      · exact haccounted reply hreply
    have hcalled := called_vouched hread hdecimal haccounted hdelivered hverdict world
    exact h.updateInquiry [_] (by exact ⟨hcalled,h.vouched⟩) trivial

/-- Before the first connection the servers are honest. -/
theorem honest_fresh : Honest env fresh := ⟨trivial,fun _ => trivial⟩

/-- In every run of the two servers each database call of the authentication
server is guarded; and if the first recv for every inquiry returns at least
seven bytes, the content server acts only for users the authentication server
vouched for. -/
theorem authenticated (hread : ReadsBack env) (hdecimal : DecimalSubjects env.auth)
    {actions : List (Action σ τ)} {final : Servers σ} (hrun : run (step env) fresh actions=some final) :
    (∀ entry ∈ final.log,Guarded env.auth entry) ∧
      (EachMeets (step env) StartsWhole fresh actions → Vouched env final.log) := by
  constructor
  · have hkeep : ∀ (servers : Servers σ) (action : Action σ τ) (next : Servers σ),
        (∀ entry ∈ servers.log,Guarded env.auth entry) → True → step env servers action=some next →
          ∀ entry ∈ next.log,Guarded env.auth entry :=
      fun _ _ _ h _ hstep => step_guarded h hstep
    exact run_invariant hkeep (fun _ hmem => absurd hmem List.not_mem_nil)
      (eachMeets_always (fun _ _ => trivial) _ _) hrun
  · intro hstart
    exact (run_invariant
      (fun _ _ _ h hwhole hstep => step_honest hread (hdecimal.answers _) h hwhole hstep)
      honest_fresh hstart hrun).vouched

end inquiries

section subjects

/-- Subject of a token an event accepts. -/
def subjectAccepted : Event → Option Bytes
  | .tokenAccepted _ id => some id
  | _ => none

/-- User an event of the content server acts for. -/
def userServed : ContentEvent → Option Bytes
  | .operation op => op.actingUser
  | .responded _ => none

/-- Subjects the authentication server accepted tokens of. -/
def subjects (log : List (Entry σ)) : List Bytes :=
  log.flatMap fun
    | .turn _ _ _ events => events.filterMap subjectAccepted
    | _ => []

/-- Users the content server acted for behind an inquiry. -/
def users (log : List (Entry σ)) : List Bytes :=
  log.flatMap fun
    | .called _ _ _ events => events.filterMap userServed
    | _ => []

/-- Where the log is vouched for, every user acted for is the subject of an accepted token. -/
theorem users_subset_subjects {env : Environment σ τ} {log : List (Entry σ)} (h : Vouched env log) :
    ∀ user ∈ users log,user ∈ subjects log := by
  induction log with
  | nil => exact fun _ hmem => absurd hmem List.not_mem_nil
  | cons entry earlier ih =>
    obtain ⟨hentry,hearlier⟩ := h
    intro user hmem
    refine List.mem_append.mpr (Or.inr ?_)
    rcases List.mem_append.mp hmem with hnew|hold
    · cases entry with
      | called number request id events =>
        obtain ⟨event,hevent,huser⟩ := List.mem_filterMap.mp hnew
        cases event with
        | operation op =>
          obtain ⟨hacting,world,answered,hturn,_,_,_,haccepted,_⟩ := hentry op hevent
          change op.actingUser=some user at huser
          have hid : user=id := by
            rcases hacting with hnobody|hid
            · rw [hnobody] at huser
              cases huser
            · exact Option.some.inj (huser.symm.trans hid)
          rw [hid]
          exact List.mem_flatMap.mpr ⟨_,hturn,List.mem_filterMap.mpr ⟨_,haccepted,rfl⟩⟩
        | responded response => cases huser
      | turn peer buffered world events => exact absurd hnew List.not_mem_nil
      | handled number request events => exact absurd hnew List.not_mem_nil
    · exact ih hearlier user hold

end subjects

section runs

instance (servers : Servers σ) (action : Action σ τ) : Decidable (StartsWhole servers action) := by
  unfold StartsWhole
  split <;> infer_instance

/-- The profile of the user with the id 2. -/
def bobProfile : Json :=
  .object [(ascii "birthdate",.string (ascii "1999-09-09")),(ascii "email",.string (ascii "b@b")),
    (ascii "first_name",.string (ascii "Bob")),(ascii "id",.string (ascii "2")),
    (ascii "is_male",.boolean true),(ascii "last_name",.string (ascii "Bee")),
    (ascii "nickname",.string (ascii "bob"))]

/-- Both servers with that user, over the clock of the authentication server. -/
def withBob : Environment ℕ Unit where
  auth :=
    {setting := ⟨parsePlain,.lenient⟩
     jwt := lettersJwt
     now := id
     dump := dumpPlain
     call := fun
       | .getProfileInformation _,clock => (.ok bobProfile,clock)
       | _,clock => (.error (.runtimeError "500"),clock)}
  content :=
    {jsonParse := parsePlain
     dump := dumpPlain
     connect := fun world => (.ok (),world)
     operate := fun
       | .getPostsList _ _ _,world => (.ok .null,world)
       | _,world => (.error (.runtimeError "500"),world)}
  userAgent := ⟨ascii "Boost.Beast/330",by decide +kernel,by decide +kernel⟩

/-- A request for posts with an Authorization field. -/
def postsRequest (authorization : FieldValue) : ClientRequest :=
  ⟨.get,ascii "/getPostsList?LIMIT=10&OFFSET=0",ascii "o",authorization,⟨[],Nat.zero_le _⟩,
    ⟨[],Nat.zero_le _⟩⟩

/-- The access token of the user with the id 1. -/
def honestField : FieldValue :=
  ⟨ascii "Bearer "++annToken 0 accessLifetime,by decide +kernel,by decide +kernel⟩

/-- The same token behind the start of another message. -/
def forgedField : FieldValue :=
  ⟨ascii "GET /getProfileByNickname?nickname=bob HTTP/1.1 Bearer "++annToken 0 accessLifetime,
    by decide +kernel,by decide +kernel⟩

/-- A request whose inquiry arrives in parts of some sizes. -/
def servedInParts (request : ClientRequest) (sizes : List ℕ) : List (Action ℕ Unit) :=
  [.asks 0 request (),.writes 0]++sizes.map (fun size => .receives (.content 0) size 0)++[.reads 0 ()]

/-- The sample library reads every answer of an inquiry back. -/
theorem readsBack_withBob : ReadsBack withBob := by
  intro id text hdigits hdump
  refine parsePlain_dumpPlain (by decide) (fun hquote => ?_) hdump
  exact absurd (hdigits 34 hquote) (by decide)

/-- The sample tokens have decimal subjects. -/
theorem decimalSubjects_withBob : DecimalSubjects withBob.auth := by
  intro token now id haccepted digit hmem
  unfold checkAccessToken at haccepted
  split at haccepted
  · next decoded hdecoded =>
    cases haccepted
    change (if _ then _ else _)=_ at hdecoded
    split at hdecoded
    · cases hdecoded
      exact List.mem_takeWhile_imp hmem
    · cases hdecoded
  · cases haccepted

/-- Received behind its method token, the inquiry lets its client act for the token's subject. -/
theorem authenticated_posts :
    ∃ final,run (step withBob) fresh (servedInParts (postsRequest honestField) [10,185])=some final ∧
      users final.log=[ascii "1"] ∧ Vouched withBob final.log := by
  have hmap : (run (step withBob) fresh (servedInParts (postsRequest honestField) [10,185])).map
      (fun final => users final.log)=some [ascii "1"] := by decide +kernel
  have hstart : EachMeets (step withBob) StartsWhole fresh
      (servedInParts (postsRequest honestField) [10,185]) := by decide +kernel
  obtain ⟨final,hrun,husers⟩ := Option.map_eq_some_iff.mp hmap
  exact ⟨final,hrun,husers,
    (authenticated readsBack_withBob decimalSubjects_withBob hrun).2 hstart⟩

/-- Received in a part too short for its method token, the inquiry is thrown
away up to the field of its client, who so acts for another user. -/
theorem acts_for_another :
    ReadsBack withBob ∧ DecimalSubjects withBob.auth ∧
      ∃ final,run (step withBob) fresh (servedInParts (postsRequest forgedField) [6,64,173])=
          some final ∧
        subjects final.log=[ascii "1"] ∧ users final.log=[ascii "2"] ∧
          ¬Vouched withBob final.log := by
  have hmap : (run (step withBob) fresh (servedInParts (postsRequest forgedField) [6,64,173])).map
      (fun final => (subjects final.log,users final.log))=some ([ascii "1"],[ascii "2"]) := by
    decide +kernel
  obtain ⟨final,hrun,hseen⟩ := Option.map_eq_some_iff.mp hmap
  obtain ⟨hsubjects,husers⟩ := Prod.mk.inj hseen
  refine ⟨readsBack_withBob,decimalSubjects_withBob,final,hrun,hsubjects,husers,fun hvouched => ?_⟩
  have hmem := users_subset_subjects hvouched (ascii "2") (husers ▸ List.mem_singleton_self _)
  rw [hsubjects] at hmem
  exact absurd hmem (by decide)

end runs

end Photogram.TwoServers
