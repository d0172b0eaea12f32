import Mathlib.Logic.Function.Iterate
import Photogram.JsonValue

/-!
# The content server's inquiry at the authentication server

AnotherServerConnection.cpp. The inquiry is a chain of asynchronous
operations: each completion handler either starts the next operation or
leaves the chain at rest. The verdict for the waiting client is the string
handed to the stored callback. An exception that leaves a handler ends the
chain as well, and the server with it.
-/

namespace Photogram.AnotherServerConnection

open CxxString JsonValue

/-- Operation the chain is waiting for, or how it came to rest. -/
inductive Stage where
  | resolving
  | connecting
  | writing
  | reading
  | rest
  | raised (failure : Failure)
  deriving DecidableEq

/-- Reply of the authentication server as the client library delivers it. -/
structure ServerReply where
  /-- Status code. -/
  result : ℕ
  /-- Body. -/
  body : Bytes
  deriving DecidableEq

/-- The chain with the arguments its callback was invoked with. -/
structure Chain where
  /-- Pending operation. -/
  stage : Stage
  /-- Arguments of the callback so far, in order. -/
  calls : List Bytes
  deriving DecidableEq

/-- How the operations end: whether each fails, and what a read delivers. -/
structure Outcomes where
  /-- The name is not resolved. -/
  resolveError : Bool
  /-- The connection is not established. -/
  connectError : Bool
  /-- The request is not written. -/
  writeError : Bool
  /-- The reply is not read. -/
  readError : Bool
  /-- The reply, if it is read. -/
  reply : ServerReply

/-- The verdict for a token the authentication server rejects. -/
def unauthorized : Bytes := ascii "unauthorized"

/-- The verdict for a request the authentication server rejects. -/
def badRequest : Bytes := ascii "bad_request"

/-- The verdict for every other reply. -/
def internalServerError : Bytes := ascii "internal_server_error"

/-- A string read as a null-terminated one. -/
def cString (text : Bytes) : Bytes := text.takeWhile (·≠0)

/-- The id member of a JSON body. -/
def idMember (jsonBody : Json) : Except Failure Bytes := do
  let id ← jsonBody.at (ascii "id")
  let text ← id.getString
  return cString text

/-- Argument the callback gets for a reply. -/
def verdict (jsonParse : Bytes → Option Json) (reply : ServerReply) : Except Failure Bytes :=
  if reply.result=200 then
    match jsonParse reply.body with
    | some jsonBody => idMember jsonBody
    | none => .ok internalServerError
  else if reply.result=401 then .ok unauthorized
  else if reply.result=400 then .ok badRequest
  else .ok internalServerError

/-- Start the inquiry: resolve the host. -/
def checkAccesstoken : Chain := ⟨.resolving,[]⟩

/-- Handler of the resolver: an error is only logged. -/
def onResolve (error : Bool) (chain : Chain) : Chain :=
  if error then {chain with stage := .rest} else {chain with stage := .connecting}

/-- Handler of the connection: an error only closes the socket. -/
def onConnect (error : Bool) (chain : Chain) : Chain :=
  if error then {chain with stage := .rest} else {chain with stage := .writing}

/-- Handler of the write: an error only closes the socket. -/
def onWrite (error : Bool) (chain : Chain) : Chain :=
  if error then {chain with stage := .rest} else {chain with stage := .reading}

/-- Handler of the read: hand the verdict to the callback; an error only
closes the socket. -/
def onRead (jsonParse : Bytes → Option Json) (error : Bool) (reply : ServerReply) (chain : Chain) :
    Chain :=
  if error then {chain with stage := .rest}
  else match verdict jsonParse reply with
    | .ok id => ⟨.rest,chain.calls++[id]⟩
    | .error failure => {chain with stage := .raised failure}

/-- The pending operation completes. -/
def complete (jsonParse : Bytes → Option Json) (outcomes : Outcomes) (chain : Chain) : Chain :=
  match chain.stage with
  | .resolving => onResolve outcomes.resolveError chain
  | .connecting => onConnect outcomes.connectError chain
  | .writing => onWrite outcomes.writeError chain
  | .reading => onRead jsonParse outcomes.readError outcomes.reply chain
  | .rest | .raised _ => chain

/-- The inquiry behind a number of completions. -/
def after (jsonParse : Bytes → Option Json) (outcomes : Outcomes) (count : ℕ) : Chain :=
  (complete jsonParse outcomes)^[count] checkAccesstoken

/-- No operation is pending. -/
def Chain.AtRest (chain : Chain) : Prop :=
  match chain.stage with
  | .rest | .raised _ => True
  | _ => False

/-- The reply leads to a verdict: it has another status than 200, or a body
that is no JSON, or an object with a string member id. -/
def Answers (jsonParse : Bytes → Option Json) (reply : ServerReply) : Prop :=
  reply.result=200 → ∀ jsonBody,jsonParse reply.body=some jsonBody →
    ∃ members text,jsonBody=.object members ∧ members.lookup (ascii "id")=some (.string text)

/-- Every operation succeeds and the reply leads to a verdict. -/
def Succeeds (jsonParse : Bytes → Option Json) (outcomes : Outcomes) : Prop :=
  outcomes.resolveError=false ∧ outcomes.connectError=false ∧ outcomes.writeError=false ∧
    outcomes.readError=false ∧ Answers jsonParse outcomes.reply

section verdicts

variable (jsonParse : Bytes → Option Json)

/-- The id is read exactly from an object with a string member of that name. -/
theorem returns_idMember_iff (jsonBody : Json) :
    Returns (idMember jsonBody) ↔
      ∃ members text,jsonBody=.object members ∧
        members.lookup (ascii "id")=some (.string text) := by
  unfold idMember
  constructor
  · intro h
    obtain ⟨id,hid,htext⟩ := (returns_bind _ _).mp h
    cases jsonBody with
    | object members =>
      refine ⟨members,?_⟩
      unfold Json.at at hid
      dsimp only at hid
      cases hlookup : members.lookup (ascii "id") with
      | none =>
        rw [hlookup] at hid
        cases hid
      | some member =>
        rw [hlookup] at hid
        cases hid
        cases id with
        | string text => exact ⟨text,rfl,rfl⟩
        | null => exact absurd htext (not_returns_error _)
        | boolean value => exact absurd htext (not_returns_error _)
        | number value => exact absurd htext (not_returns_error _)
        | array elements => exact absurd htext (not_returns_error _)
        | object members => exact absurd htext (not_returns_error _)
    | null => cases hid
    | boolean value => cases hid
    | number value => cases hid
    | string text => cases hid
    | array elements => cases hid
  · rintro ⟨members,text,rfl,hlookup⟩
    refine ⟨cString text,?_⟩
    unfold Json.at
    dsimp only
    rw [hlookup]
    rfl

/-- A verdict is reached exactly for an answering reply. -/
theorem returns_verdict_iff (reply : ServerReply) :
    Returns (verdict jsonParse reply) ↔ Answers jsonParse reply := by
  unfold verdict Answers
  by_cases hresult : reply.result=200
  · rw [if_pos hresult]
    cases hjson : jsonParse reply.body with
    | none => simp [hresult]
    | some jsonBody =>
      dsimp only
      rw [returns_idMember_iff]
      exact ⟨fun h _ _ heq => Option.some.inj heq ▸ h,fun h => h hresult jsonBody rfl⟩
  · rw [if_neg hresult]
    constructor
    · exact fun _ h => absurd h hresult
    · intro _
      split
      · exact returns_ok _
      · split
        · exact returns_ok _
        · exact returns_ok _

end verdicts

section runs

variable (jsonParse : Bytes → Option Json) (outcomes : Outcomes)

/-- What is known of a chain at each stage: nothing was handed out before the
read, and at rest one verdict was exactly when everything succeeded. -/
def Consistent (chain : Chain) : Prop :=
  match chain.stage with
  | .resolving => chain.calls=[]
  | .connecting => chain.calls=[] ∧ outcomes.resolveError=false
  | .writing => chain.calls=[] ∧ outcomes.resolveError=false ∧ outcomes.connectError=false
  | .reading =>
    chain.calls=[] ∧ outcomes.resolveError=false ∧ outcomes.connectError=false ∧
      outcomes.writeError=false
  | .rest | .raised _ =>
    (chain.calls.length=1 ↔ Succeeds jsonParse outcomes) ∧ chain.calls.length ≤ 1

/-- A chain at rest without a verdict, after something failed. -/
theorem consistent_silent {calls : List Bytes} (hcalls : calls=[])
    (h : ¬Succeeds jsonParse outcomes) :
    (calls.length=1 ↔ Succeeds jsonParse outcomes) ∧ calls.length ≤ 1 := by
  rw [hcalls]
  exact ⟨⟨fun hlen => absurd hlen (by simp),fun hsucc => absurd hsucc h⟩,by simp⟩

/-- Every handler keeps the chain consistent. -/
theorem complete_consistent {chain : Chain} (h : Consistent jsonParse outcomes chain) :
    Consistent jsonParse outcomes (complete jsonParse outcomes chain) := by
  obtain ⟨stage,calls⟩ := chain
  unfold complete
  cases stage with
  | resolving =>
    cases herror : outcomes.resolveError with
    | true => exact consistent_silent jsonParse outcomes h (by simp [Succeeds,herror])
    | false => exact ⟨h,herror⟩
  | connecting =>
    obtain ⟨hcalls,hresolve⟩ := h
    cases herror : outcomes.connectError with
    | true => exact consistent_silent jsonParse outcomes hcalls (by simp [Succeeds,herror])
    | false => exact ⟨hcalls,hresolve,herror⟩
  | writing =>
    obtain ⟨hcalls,hresolve,hconnect⟩ := h
    cases herror : outcomes.writeError with
    | true => exact consistent_silent jsonParse outcomes hcalls (by simp [Succeeds,herror])
    | false => exact ⟨hcalls,hresolve,hconnect,herror⟩
  | reading =>
    obtain ⟨hcalls,hresolve,hconnect,hwrite⟩ := h
    dsimp only at hcalls ⊢
    cases herror : outcomes.readError with
    | true => exact consistent_silent jsonParse outcomes hcalls (by simp [Succeeds,herror])
    | false =>
      have hverdict := returns_verdict_iff jsonParse outcomes.reply
      unfold onRead
      rw [if_neg (by simp)]
      cases hv : verdict jsonParse outcomes.reply with
      | error failure =>
        rw [hv] at hverdict
        exact consistent_silent jsonParse outcomes hcalls fun hsucc =>
          not_returns_error _ (hverdict.mpr hsucc.2.2.2.2)
      | ok id =>
        rw [hv] at hverdict
        have hanswers := hverdict.mp (returns_ok id)
        refine ⟨⟨fun _ => ⟨hresolve,hconnect,hwrite,herror,hanswers⟩,fun _ => ?_⟩,?_⟩
        · rw [hcalls]
          rfl
        · rw [hcalls]
          simp
  | rest => exact h
  | raised failure => exact h

/-- The chain is consistent behind any number of completions. -/
theorem after_consistent (count : ℕ) :
    Consistent jsonParse outcomes (after jsonParse outcomes count) := by
  induction count with
  | zero => exact (rfl : checkAccesstoken.calls=[])
  | succ count ih =>
    unfold after
    rw [Function.iterate_succ_apply']
    exact complete_consistent jsonParse outcomes ih

/-- Handlers still to run at a stage, at most. -/
def Stage.remaining : Stage → ℕ
  | .resolving => 4
  | .connecting => 3
  | .writing => 2
  | .reading => 1
  | .rest | .raised _ => 0

/-- Each completion brings the chain nearer to rest. -/
theorem complete_remaining (chain : Chain) :
    (complete jsonParse outcomes chain).stage.remaining ≤ chain.stage.remaining-1 := by
  obtain ⟨stage,calls⟩ := chain
  unfold complete
  cases stage with
  | resolving => cases herror : outcomes.resolveError <;> simp [onResolve,Stage.remaining]
  | connecting => cases herror : outcomes.connectError <;> simp [onConnect,Stage.remaining]
  | writing => cases herror : outcomes.writeError <;> simp [onWrite,Stage.remaining]
  | reading =>
    change (onRead jsonParse outcomes.readError outcomes.reply ⟨.reading,calls⟩).stage.remaining ≤ 0
    unfold onRead
    cases outcomes.readError with
    | true => exact le_refl 0
    | false =>
      rw [if_neg (by simp)]
      cases verdict jsonParse outcomes.reply <;> exact le_refl 0
  | rest => simp [Stage.remaining]
  | raised failure => simp [Stage.remaining]

/-- After the completions of all its operations the chain is at rest. -/
theorem after_atRest {count : ℕ} (h : 4 ≤ count) : (after jsonParse outcomes count).AtRest := by
  have hremaining : ∀ n,(after jsonParse outcomes n).stage.remaining ≤ 4-n := by
    intro n
    induction n with
    | zero => exact le_refl 4
    | succ n ih =>
      have hstep := complete_remaining jsonParse outcomes (after jsonParse outcomes n)
      unfold after at hstep ih ⊢
      rw [Function.iterate_succ_apply']
      omega
  have hzero := hremaining count
  unfold Chain.AtRest
  cases hstage : (after jsonParse outcomes count).stage <;> rw [hstage] at hzero <;>
    simp only [Stage.remaining] at hzero ⊢ <;> omega

/-- The inquiry comes to rest; then the callback was invoked exactly once if
and only if every operation succeeded and the reply led to a verdict, and
never more than once. -/
theorem callback_once_iff :
    (after jsonParse outcomes 4).AtRest ∧
      ((after jsonParse outcomes 4).calls.length=1 ↔ Succeeds jsonParse outcomes) ∧
        (after jsonParse outcomes 4).calls.length ≤ 1 := by
  have hrest := after_atRest jsonParse outcomes (le_refl 4)
  refine ⟨hrest,?_⟩
  have hconsistent := after_consistent jsonParse outcomes 4
  unfold Chain.AtRest at hrest
  unfold Consistent at hconsistent
  cases hstage : (after jsonParse outcomes 4).stage <;> rw [hstage] at hrest hconsistent
  case rest => exact hconsistent
  case raised failure => exact hconsistent
  all_goals exact hrest.elim

/-- The authentication server cannot be reached: the client never gets a verdict. -/
theorem no_callback_unreachable :
    after (fun _ => none) ⟨false,true,false,false,⟨200,[]⟩⟩ 4=⟨.rest,[]⟩ ∧
      (after (fun _ => none) ⟨false,true,false,false,⟨200,[]⟩⟩ 4).calls.length≠1 := by
  decide +kernel

end runs

end Photogram.AnotherServerConnection
