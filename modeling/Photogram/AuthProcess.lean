import Photogram.AuthReplies
import Photogram.AuthSession
import Photogram.StoreNetwork
import Photogram.TwoServers

/-!
# The process of the authentication server

MyServer.cpp: one thread for each accepted connection, with a connection of
its own to the database that all share. Others may change the tables between
any two calls of a turn, so each call finds whatever tables there are. An
exception that leaves a thread ends the process with all its connections.
-/

namespace Photogram.AuthProcess

open CxxString EffectLog JsonValue QueryString JwtToken AuthResponse AuthHttpParser
open AuthConnection AuthDatabase AuthReceive AuthReplies ListPages Schedule AuthStore StoreNetwork

section surroundings

/-- What the server takes from its libraries and its database system. -/
structure Installation where
  /-- The database system. -/
  dialect : Dialect
  /-- Library and reading of the request parser. -/
  setting : ParserSetting
  /-- Token library. -/
  jwt : JwtLibrary
  /-- Text of a JSON value. -/
  dump : Json → Option Bytes

/-- What a turn finds. -/
structure Surroundings where
  /-- The tables that each of the next calls finds. -/
  found : ℕ → Store
  /-- How the database treats each of them, and the clock there. -/
  coming : ℕ → Conditions×ℕ

/-- A call is answered from the tables it finds. -/
def Installation.services (installation : Installation) : Services Surroundings where
  setting := installation.setting
  jwt := installation.jwt
  now world := (world.coming 0).2
  dump := installation.dump
  call call world :=
    ((callStore installation.dialect (world.coming 0).1 call (world.found 0)).1,
      ⟨fun number => world.found (number+1),fun number => world.coming (number+1)⟩)

end surroundings

section process

/-- The process. -/
structure Process where
  /-- What each open connection has buffered. -/
  connections : ℕ → Option Bytes
  /-- No exception has left a thread. -/
  running : Bool

/-- What happens to the process. -/
inductive Arrival where
  /-- A client is accepted; its thread returns at once when it does not reach
  the database. -/
  | accepts (client : ℕ) (connected : Bool)
  /-- A recv of its thread returns. -/
  | receives (client : ℕ) (result : RecvResult) (world : Surroundings)

/-- Before the first client. -/
def started : Process := ⟨fun _ => none,true⟩

/-- What recv can return. -/
def Receivable : RecvResult → Prop
  | .data received => 0<received.length ∧ received.length ≤ TwoServers.bufferSize
  | _ => True

instance : DecidablePred Receivable := fun result => by
  cases result <;> unfold Receivable <;> infer_instance

/-- The buffer behind a round of the loop, while the connection is open. -/
def bufferAfter (result : RecvResult) (outcome : Except Failure Bytes) : Option Bytes :=
  match result with
  | .closed => none
  | _ => outcome.toOption

variable (installation : Installation)

/-- One round of the receive loop. -/
def loopRound (request : Bytes) (result : RecvResult) (world : Surroundings) :
    Ran Surroundings Event Bytes :=
  runLoop installation.services request [(world,result)] world

/-- One arrival, if it is possible. -/
def step (process : Process) : Arrival → Option Process
  | .accepts client connected =>
    if process.running=true ∧ process.connections client=none then
      some {process with
        connections := Function.update process.connections client (if connected then some [] else none)}
    else none
  | .receives client result world =>
    match process.connections client with
    | some request =>
      if process.running=true ∧ Receivable result then
        let ran := loopRound installation request result world
        some ⟨Function.update process.connections client (bufferAfter result ran.outcome),ran.outcome.isOk⟩
      else none
    | none => none

variable {installation} {process next : Process}

/-- A round that receives bytes is a turn. -/
theorem loopRound_data (request received : Bytes) (world : Surroundings) :
    loopRound installation request (.data received) world=
      turn installation.services request received world := by
  change (inWorld world (turn installation.services request received)>>=pure) world=_
  rw [bind_pure]
  rfl

/-- A server with the sample libraries. -/
def plainInstallation : Installation :=
  ⟨plainDialect,keyless.setting,lettersJwt,keyless.dump⟩

/-- Nothing breaks down. -/
def fine : ℕ → Conditions×ℕ := fun _ => (intact,0)

/-- What ends the process: a recv that fails, a buffer beyond the greatest
length, a request that the parser raises on or leaves its defined behaviour
for, and a password update whose body is no string. -/
def Fatal (installation : Installation) (process : Process) : Arrival → Prop
  | .accepts _ _ | .receives _ .closed _ => False
  | .receives _ .socketError _ => True
  | .receives client (.data received) _ => ∃ request,process.connections client=some request ∧
      (maxSize < (request++received).length ∨
        (∃ failure,parse installation.setting (request++received)=.error failure) ∨
        ∃ postInfo,parse installation.setting (request++received)=.ok (.success,.post postInfo) ∧
          NoPasswordText postInfo)

/-- A turn returns unless its bytes end the process. -/
theorem turn_returns_iff {σ : Type} (services : Services σ) (hdump : DumpsErrors services.dump)
    (buffer chunk : Bytes) (world : σ) :
    Returns (turn services buffer chunk world).outcome ↔
      ¬(maxSize < (buffer++chunk).length ∨
        (∃ failure,parse services.setting (buffer++chunk)=.error failure) ∨
        ∃ postInfo,parse services.setting (buffer++chunk)=.ok (.success,.post postInfo) ∧
          NoPasswordText postInfo) := by
  by_cases hs : (buffer++chunk).length ≤ maxSize
  · rw [turn_eq services hs]
    cases hparse : parse services.setting (buffer++chunk) with
    | error failure =>
      unfold serveBuffer
      rw [compute_error_bind_run hparse]
      exact iff_of_false (not_returns_error _) fun h => h (Or.inr (Or.inl ⟨failure,rfl⟩))
    | ok answer =>
      obtain ⟨status,info⟩ := answer
      have hlength : ¬maxSize < (buffer++chunk).length := Nat.not_lt.mpr hs
      cases status with
      | success =>
        rw [serveBuffer_success services world hparse]
        dsimp only
        rw [returns_exceptMap_iff]
        constructor
        · rintro hreturns (hlong|⟨failure,herror⟩|⟨postInfo,heq,hpassword⟩)
          · exact hlength hlong
          · cases herror
          · cases heq
            exact not_returns_dispatch services hpassword world hreturns
        · intro h
          obtain ⟨size,hcarries⟩ := parse_carries hs hparse
          refine (delivers_dispatch services hdump hcarries (fun postInfo heq hpassword => ?_) world).1
          cases heq
          exact h (Or.inr (Or.inr ⟨postInfo,rfl,hpassword⟩))
      | _ =>
        unfold serveBuffer
        rw [compute_ok_bind_run hparse]
        refine iff_of_true ⟨_,rfl⟩ ?_
        rintro (hlong|⟨failure,herror⟩|⟨postInfo,heq,_⟩)
        · exact hlength hlong
        · cases herror
        · cases heq
  · have happend : append buffer chunk=.error (.thrown .lengthError) := if_neg hs
    unfold turn
    rw [compute_error_bind_run happend]
    exact iff_of_false (not_returns_error _) fun h => h (Or.inl (Nat.lt_of_not_le hs))

/-- An outcome is a return when its test says so. -/
theorem isOk_iff_returns {α : Type} (outcome : Except Failure α) :
    outcome.isOk=true ↔ Returns outcome := by
  cases outcome with
  | ok value => exact iff_of_true rfl ⟨value,rfl⟩
  | error failure => exact iff_of_false Bool.false_ne_true (not_returns_error _)

/-- A step leaves the process running exactly when it was and the arrival is not fatal. -/
theorem step_running_iff (hdump : DumpsErrors installation.dump) {arrival : Arrival}
    (hstep : step installation process arrival=some next) :
    next.running=true ↔ process.running=true ∧ ¬Fatal installation process arrival := by
  unfold step at hstep
  cases arrival with
  | accepts client connected =>
    dsimp only at hstep
    split at hstep
    · cases hstep
      exact (and_iff_left id).symm
    · cases hstep
  | receives client result world =>
    dsimp only at hstep
    cases hopen : process.connections client with
    | none =>
      rw [hopen] at hstep
      cases hstep
    | some request =>
      rw [hopen] at hstep
      dsimp only at hstep
      split at hstep
      · next hready =>
        cases hstep
        rw [and_iff_right hready.1]
        dsimp only
        rw [isOk_iff_returns]
        cases result with
        | closed => exact iff_of_true ⟨_,rfl⟩ id
        | socketError => exact iff_of_false (not_returns_error _) fun h => h trivial
        | data received =>
          rw [loopRound_data,turn_returns_iff installation.services hdump]
          refine not_congr ⟨fun h => ⟨request,hopen,h⟩,?_⟩
          rintro ⟨other,hother,h⟩
          cases hopen.symm.trans hother
          exact h
      · cases hstep

/-- The process runs on exactly as long as no client sends a fatal request and
no recv fails, however many connections it has. -/
theorem runs_on_iff (hdump : DumpsErrors installation.dump) {arrivals : List Arrival}
    {final : Process} (hrun : run (step installation) started arrivals=some final) :
    final.running=true ↔ EachMeets (step installation)
      (fun process arrival => ¬Fatal installation process arrival) started arrivals := by
  have hfrom : ∀ (process : Process) (rest : List Arrival),
      run (step installation) process rest=some final → (final.running=true ↔
        process.running=true ∧ EachMeets (step installation)
          (fun process arrival => ¬Fatal installation process arrival) process rest) := by
    intro process rest
    induction rest generalizing process with
    | nil =>
      intro hend
      cases hend
      exact (and_iff_left trivial).symm
    | cons arrival rest ih =>
      intro hrest
      unfold run at hrest
      unfold EachMeets
      cases hstep : step installation process arrival with
      | none =>
        rw [hstep] at hrest
        cases hrest
      | some next =>
        rw [hstep] at hrest
        rw [ih next hrest,step_running_iff hdump hstep,and_assoc]
  exact (hfrom started arrivals hrun).trans (and_iff_right rfl)

/-- Every call finds the tables as they are created. -/
def unused : Surroundings := ⟨fun _ => emptyStore,fine⟩

/-- A password update with an object for a body ends it. -/
theorem runs_on_iff_object :
    ∃ final,run (step plainInstallation) started
        [.accepts 4 true,.receives 4 (.data objectPassword) unused]=some final ∧ final.running=false ∧
      ¬EachMeets (step plainInstallation)
        (fun process arrival => ¬Fatal plainInstallation process arrival) started
        [.accepts 4 true,.receives 4 (.data objectPassword) unused] := by
  have hmap : (run (step plainInstallation) started
      [.accepts 4 true,.receives 4 (.data objectPassword) unused]).map Process.running=some false := by
    decide +kernel
  obtain ⟨final,hrun,hdown⟩ := Option.map_eq_some_iff.mp hmap
  refine ⟨final,hrun,hdown,fun h => ?_⟩
  have hup := (@runs_on_iff plainInstallation dumpsErrors_keyless _ final hrun).mpr h
  exact Bool.false_ne_true (hdown.symm.trans hup)

end process

end Photogram.AuthProcess
