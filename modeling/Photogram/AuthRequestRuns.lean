import Photogram.AuthReceive

/-!
# Sequences of requests on one connection

Each request of a sequence comes with its own recv calls. The loop is cut at
the ends of the deliveries, and each delivery is handled from the buffer the
previous one left. A case that reaches the bottom of the loop body clears
the buffer; a refused token leaves the whole request in it, in front of
whatever comes next.
-/

namespace Photogram.AuthRequestRuns

open CxxString EffectLog JsonValue JwtToken AuthResponse AuthHttpParser AuthConnection
open AuthDispatch AuthReceive

/-- One request and the recv calls that delivered it. -/
structure Delivery (σ : Type) where
  /-- Chunks in front of the last, with the world each recv found. -/
  earlier : List (σ×Bytes)
  /-- The chunk that completes the request, with the world its recv found. -/
  last : σ×Bytes
  /-- No recv returned without bytes. -/
  chunks_ne : ∀ chunk ∈ earlier++[last],chunk.2≠[]
  /-- The request is a string of legal size. -/
  size_le : ((earlier++[last]).map Prod.snd).flatten.length ≤ maxSize

/-- Bytes of the delivered request. -/
def Delivery.request {σ : Type} (delivery : Delivery σ) : Bytes :=
  ((delivery.earlier++[delivery.last]).map Prod.snd).flatten

/-- Recv results of the delivery. -/
def Delivery.received {σ : Type} (delivery : Delivery σ) : List (σ×RecvResult) :=
  AuthReceive.received (delivery.earlier++[delivery.last])

/-- A handled delivery: the buffer it found and what the loop did. -/
structure Handled (σ : Type) where
  /-- The delivered request. -/
  delivery : Delivery σ
  /-- The buffer in front of its first chunk. -/
  start : Bytes
  /-- What the loop did with its chunks. -/
  ran : Ran σ Event Bytes

variable {σ : Type} (services : Services σ)

/-- Handle deliveries one after the other; a failure ends the connection. -/
def serve (buffer : Bytes) : List (Delivery σ) → List (Handled σ)
  | [] => []
  | delivery::rest =>
    let ran := runLoop services buffer delivery.received delivery.last.1
    ⟨delivery,buffer,ran⟩::
      match ran.outcome with
      | .ok next => serve next rest
      | .error _ => []

/-- Replies among the events, in order. -/
def replies (events : List Event) : List Reply :=
  events.filterMap fun
    | .sent reply => some reply
    | _ => none

/-- The request parses when given alone. -/
def Delivery.Accepted (delivery : Delivery σ) : Prop :=
  ∃ info,parse services.setting delivery.request=.ok (.success,info)

/-- Every part of the request that ends between two chunks is judged incomplete. -/
def Delivery.Waits (delivery : Delivery σ) : Prop :=
  ∀ before after,before++after=delivery.earlier → before≠[] →
    ∃ info,parse services.setting (before.map Prod.snd).flatten=.ok (.notFullReq,info)

/-- The access token the request has to present, if any, is accepted when it is dispatched. -/
def Delivery.Authorized (delivery : Delivery σ) : Prop :=
  ∀ info token,parse services.setting delivery.request=.ok (.success,info) →
    requiredToken info=some token →
      ∃ id,checkAccessToken services.jwt token secret (services.now delivery.last.1)=.ok id

/-- The loop over chunks and what follows them goes on from the buffer the chunks leave. -/
theorem runLoop_append (chunks : List (σ×Bytes)) (rest : List (σ×RecvResult)) (buffer : Bytes) :
    runLoop services buffer (received chunks++rest)=
      runLoop services buffer (received chunks)>>=fun next => runLoop services next rest := by
  induction chunks generalizing buffer with
  | nil => exact (pure_bind buffer fun next => runLoop services next rest).symm
  | cons chunk chunks ih =>
    change (inWorld chunk.1 (turn services buffer chunk.2)>>=fun next =>
        runLoop services next (received chunks++rest))=
      (inWorld chunk.1 (turn services buffer chunk.2)>>=fun next =>
        runLoop services next (received chunks))>>=fun next => runLoop services next rest
    simp only [ih]
    exact (bind_assoc _ _ _).symm

/-- Cutting the loop at the ends of the deliveries loses no event. -/
theorem serve_events (deliveries : List (Delivery σ)) (buffer : Bytes) (world : σ) :
    (runLoop services buffer (deliveries.map Delivery.received).flatten world).events=
      ((serve services buffer deliveries).map fun handled => handled.ran.events).flatten := by
  induction deliveries generalizing buffer world with
  | nil => rfl
  | cons delivery rest ih =>
    have hworld : runLoop services buffer delivery.received world=
        runLoop services buffer delivery.received delivery.last.1 := by
      unfold Delivery.received AuthReceive.received
      cases delivery.earlier <;> rfl
    rw [List.map_cons,List.flatten_cons]
    unfold serve
    dsimp only
    rw [List.map_cons,List.flatten_cons]
    have happend : runLoop services buffer
        (delivery.received++(rest.map Delivery.received).flatten)=
          runLoop services buffer delivery.received>>=fun next =>
            runLoop services next (rest.map Delivery.received).flatten :=
      runLoop_append services _ _ buffer
    rw [happend]
    cases hout : (runLoop services buffer delivery.received delivery.last.1).outcome with
    | error failure =>
      rw [bind_run_error (by rw [hworld]; exact hout),hworld]
      exact (List.append_nil _).symm
    | ok next =>
      rw [bind_run_ok (by rw [hworld]; exact hout),hworld,ih next]

/-- Chunks in front of the last of a waiting request leave it buffered as it is. -/
theorem runLoop_waiting (chunks : List (σ×Bytes)) (last : σ×Bytes) (buffer : Bytes) (world : σ)
    (hs : (buffer++((chunks++[last]).map Prod.snd).flatten).length ≤ maxSize)
    (hwait : ∀ before after,before++after=chunks → before≠[] →
      ∃ info,parse services.setting (buffer++(before.map Prod.snd).flatten)=
        .ok (.notFullReq,info)) :
    ∃ final,runLoop services buffer (received (chunks++[last])) world=
      ⟨final.outcome,final.world,List.replicate chunks.length .waited++final.events⟩ ∧
      final=serveBuffer services (buffer++((chunks++[last]).map Prod.snd).flatten) last.1 := by
  induction chunks generalizing buffer world with
  | nil =>
    refine ⟨_,?_,rfl⟩
    have hturn : turn services buffer last.2=
        serveBuffer services (buffer++(([]++[last]).map Prod.snd).flatten) := by
      simp only [List.nil_append,List.map_cons,List.map_nil,List.flatten_cons,List.flatten_nil,
        List.append_nil] at hs ⊢
      exact turn_eq services hs
    change (inWorld last.1 (turn services buffer last.2)>>=fun next => pure next) world=_
    rw [bind_pure,hturn]
    rfl
  | cons chunk chunks ih =>
    have hflat : ∀ tail : List (σ×Bytes),buffer++((chunk::tail).map Prod.snd).flatten=
        buffer++chunk.2++(tail.map Prod.snd).flatten := by
      intro tail
      rw [List.map_cons,List.flatten_cons,List.append_assoc]
    rw [List.cons_append,hflat] at hs ⊢
    obtain ⟨info,hparse⟩ := hwait [chunk] chunks rfl (List.cons_ne_nil _ _)
    rw [hflat,List.map_nil,List.flatten_nil,List.append_nil] at hparse
    have hlen : (buffer++chunk.2).length ≤ maxSize := by
      rw [List.length_append] at hs
      omega
    have hturn : turn services buffer chunk.2 chunk.1=
        ⟨.ok (buffer++chunk.2),chunk.1,[.waited]⟩ := by
      rw [turn_eq services hlen,serveBuffer_notFullReq services chunk.1 hparse]
    obtain ⟨final,hrun,hfinal⟩ := ih (buffer++chunk.2) chunk.1 hs (by
      intro before after hbefore _
      have hmore := hwait (chunk::before) after (by rw [List.cons_append,hbefore])
        (List.cons_ne_nil _ _)
      rwa [hflat] at hmore)
    refine ⟨final,?_,hfinal⟩
    change runLoop services buffer ((chunk.1,.data chunk.2)::received (chunks++[last])) world=_
    rw [runLoop_data_ok services _ world (by rw [hturn]),hturn]
    dsimp only
    rw [hrun]
    rfl

/-- A waiting request met by an empty buffer is handled as if it came in one piece. -/
theorem run_delivery {delivery : Delivery σ} (h : delivery.Waits services) :
    ∃ final,runLoop services [] delivery.received delivery.last.1=
      ⟨final.outcome,final.world,List.replicate delivery.earlier.length .waited++final.events⟩ ∧
      final=serveBuffer services delivery.request delivery.last.1 :=
  runLoop_waiting services delivery.earlier delivery.last [] delivery.last.1 delivery.size_le h

/-- An accepted request whose token is not refused leaves an empty buffer, if it returns. -/
theorem serveBuffer_cleared {delivery : Delivery σ} {next : Bytes}
    (haccepted : delivery.Accepted services) (hauthorized : delivery.Authorized services)
    (h : (serveBuffer services delivery.request delivery.last.1).outcome=.ok next) : next=[] := by
  obtain ⟨info,hparse⟩ := haccepted
  rw [serveBuffer_success services delivery.last.1 hparse] at h
  cases hout : (dispatch services info delivery.last.1).outcome with
  | error failure =>
    rw [hout] at h
    cases h
  | ok exit =>
    rw [hout] at h
    cases exit with
    | bottom => exact (Except.ok.inj h).symm
    | continued =>
      obtain ⟨token,e,htoken,hrefused⟩ := dispatch_continued services hout
      obtain ⟨id,hid⟩ := hauthorized info token hparse htoken
      rw [hrefused] at hid
      cases hid

/-- The replies of the loop body to a buffered request, as a fresh connection
gives them when the request comes in one piece. -/
def freshReplies (delivery : Delivery σ) : List Reply :=
  replies (turn services [] delivery.request delivery.last.1).events

/-- Each request was met by an empty buffer and answered as on a fresh connection. -/
def EachFresh (served : List (Handled σ)) : Prop :=
  ∀ handled ∈ served,
    handled.start=[] ∧ replies handled.ran.events=freshReplies services handled.delivery

/-- Waiting shows no reply. -/
theorem replies_waited (count : ℕ) (events : List Event) :
    replies (List.replicate count .waited++events)=replies events := by
  induction count with
  | zero => rfl
  | succ count ih => exact ih

/-- When every request waits for its end and none but the last is refused for
its token, each is handled from an empty buffer and answered as on a fresh
connection. A dispatch that raises ends the loop, and nothing behind it is
handled. -/
theorem serve_fresh (deliveries : List (Delivery σ))
    (haccepted : ∀ delivery ∈ deliveries,delivery.Accepted services)
    (hwaits : ∀ delivery ∈ deliveries,delivery.Waits services)
    (hauthorized : ∀ delivery ∈ deliveries.dropLast,delivery.Authorized services) :
    EachFresh services (serve services [] deliveries) := by
  induction deliveries with
  | nil => exact fun handled h => absurd h List.not_mem_nil
  | cons delivery rest ih =>
    obtain ⟨final,hrun,hfinal⟩ := run_delivery services (hwaits delivery List.mem_cons_self)
    intro handled hmem
    rcases List.mem_cons.mp hmem with rfl|htail
    · refine ⟨rfl,?_⟩
      rw [hrun,replies_waited,freshReplies,turn_eq services delivery.size_le]
      rw [hfinal]
      rfl
    · cases hout : final.outcome with
      | error failure =>
        rw [hrun,hout] at htail
        exact absurd htail List.not_mem_nil
      | ok next =>
        cases rest with
        | nil =>
          rw [hrun,hout] at htail
          exact absurd htail List.not_mem_nil
        | cons second others =>
          have hnext : next=[] := serveBuffer_cleared services
            (haccepted delivery List.mem_cons_self) (hauthorized delivery List.mem_cons_self)
            (by rw [←hfinal]; exact hout)
          rw [hrun,hout,hnext] at htail
          exact ih (fun d hd => haccepted d (List.mem_cons_of_mem _ hd))
            (fun d hd => hwaits d (List.mem_cons_of_mem _ hd))
            (fun d hd => hauthorized d (List.mem_cons_of_mem _ hd)) handled htail

section refusal

/-- The OPTIONS request, cut behind its method token. -/
def optionsDelivery : Delivery Unit where
  earlier := [((),optionsRequest.take 8)]
  last := ((),optionsRequest.drop 8)
  chunks_ne := by decide +kernel
  size_le := by decide +kernel

/-- A guarded request. -/
def statusRequest : Bytes :=
  ascii "GET /getStatus?friend_id=2 HTTP/1.1\r\nOrigin: o\r\nAuthorization: Bearer t\r\n\r\n"

/-- The guarded request in one piece. -/
def statusDelivery : Delivery Unit where
  earlier := []
  last := ((),statusRequest)
  chunks_ne := by decide +kernel
  size_le := by decide +kernel

/-- The cut OPTIONS request is waited for. -/
theorem optionsDelivery_waits : optionsDelivery.Waits refusing := by
  intro before after h hne
  rcases before with _|⟨chunk,_|⟨other,before⟩⟩
  · exact absurd rfl hne
  · cases h
    exact ⟨.monostate,rfl⟩
  · cases h

/-- A token library that accepts everything for the user 1, who has friends only. -/
def welcoming : Services Unit :=
  {refusing with
    jwt := ⟨refusing.jwt.sign,fun _ _ _ _ => .ok (claimsFor (ascii "1") 0 accessLifetime)⟩
    call
      | .getStatus _ _,world => (.ok (.object [(ascii "status",.string (ascii "friend"))]),world)
      | call,world => refusing.call call world}

/-- The guarded request, cut in its target. -/
def statusInParts : Delivery Unit where
  earlier := [((),statusRequest.take 20)]
  last := ((),statusRequest.drop 20)
  chunks_ne := by decide +kernel
  size_le := by decide +kernel

/-- It is waited for. -/
theorem statusInParts_waits : statusInParts.Waits welcoming := by
  intro before after h hne
  rcases before with _|⟨chunk,_|⟨other,before⟩⟩
  · exact absurd rfl hne
  · cases h
    exact ⟨.monostate,rfl⟩
  · cases h

/-- Behind a guarded request whose token is accepted, the OPTIONS request is
met by an empty buffer. -/
theorem serve_accepted_status :
    EachFresh welcoming (serve welcoming [] [statusInParts,optionsDelivery]) ∧
      (serve welcoming [] [statusInParts,optionsDelivery]).map
          (fun handled => replies handled.ran.events)=
        [[.answerJson (ascii " o") (.object [(ascii "status",.string (ascii "friend"))])],
          [.answerOptions (ascii " o")]] := by
  refine ⟨serve_fresh welcoming [statusInParts,optionsDelivery] ?_ ?_ ?_,by rfl⟩
  · exact List.forall_mem_cons.mpr ⟨⟨_,rfl⟩,List.forall_mem_singleton.mpr ⟨_,parse_optionsRequest⟩⟩
  · exact List.forall_mem_cons.mpr
      ⟨statusInParts_waits,List.forall_mem_singleton.mpr optionsDelivery_waits⟩
  · exact List.forall_mem_singleton.mpr fun _ _ _ _ => ⟨_,rfl⟩

/-- Behind a refused request the OPTIONS request finds it in the buffer, and
each of its two chunks is answered with the refusal once more. -/
theorem serve_behind_refusal :
    statusDelivery.Accepted refusing ∧ optionsDelivery.Accepted refusing ∧
      statusDelivery.Waits refusing ∧ optionsDelivery.Waits refusing ∧
      (serve refusing [] [statusDelivery,optionsDelivery]).map
          (fun handled => (handled.start,replies handled.ran.events))=
        [([],[.sendError (ascii " o") (ascii "401") (ascii "invalid access token")]),
          (statusRequest,List.replicate 2
            (.sendError (ascii " o") (ascii "401") (ascii "invalid access token")))] ∧
      freshReplies refusing optionsDelivery=[.answerOptions (ascii " o")] :=
  ⟨⟨_,rfl⟩,⟨_,parse_optionsRequest⟩,
    fun _ _ h hne => absurd (List.append_eq_nil_iff.mp h).1 hne,optionsDelivery_waits,by rfl,by rfl⟩

end refusal

end Photogram.AuthRequestRuns
