import Mathlib.Data.List.GetD
import Photogram.AuthTurns

/-!
# Turns under way

A turn of the authentication server among others. Its calls come up one after
the other, each with the tables it finds, and a registration goes on in further
transactions before it is answered. Behind its last transaction a turn has
committed what it acknowledges, or else it leaves a registration that failed
and was taken back, unless the deletion of the user failed as well.
-/

namespace Photogram.TurnsUnderWay

open CxxString EffectLog Causality QueryString AuthHttpParser AuthConnection AuthDatabase AuthReceive
open AuthRegistration AuthStore ListPages RowTable SocialNetwork SharedStore StoreNetwork AuthProcess
open AuthTurns

section turns

/-- A turn under way. -/
structure Serving where
  /-- What its connection had buffered. -/
  buffer : Bytes
  /-- What its recv has returned. -/
  received : Bytes
  /-- How the database treats its calls, and the clock there. -/
  coming : ℕ → Conditions×ℕ
  /-- The tables that its calls have found so far. -/
  found : List Store
  /-- The user its registration has inserted and is not done with. -/
  registering : Option ℕ
  /-- The changes it has committed. -/
  made : List Change

/-- A turn behind its recv. -/
def Serving.begun (buffer received : Bytes) (coming : ℕ → Conditions×ℕ) : Serving :=
  ⟨buffer,received,coming,[],none,[]⟩

/-- What it finds; no call that it has made comes to the tables behind the list. -/
def Serving.world (serving : Serving) : Surroundings :=
  ⟨fun number => serving.found.getD number emptyStore,serving.coming⟩

variable (installation : Installation)

/-- The turn, as far as it is determined by what it has found. -/
def Serving.ran (serving : Serving) : Ran Surroundings Event Bytes :=
  turn installation.services serving.buffer serving.received serving.world

/-- The call it has come to. -/
def Serving.pending (serving : Serving) : Option DbCall :=
  (calls (serving.ran installation).events)[serving.found.length]?

/-- The next transaction of a registration. -/
def stageMove (breakdowns : Breakdowns) (userId : ℕ) : Stage → Move
  | .inserted _ _ => .addNewPhoto breakdowns.addNewPhoto userId
  | .pictured _ _ _ => .connectPropertiesAndPhoto breakdowns.connect userId
  | .undoing (some _) => .deletePhoto breakdowns.deletePhoto userId
  | .undoing none => .deleteRow breakdowns.deleteRow userId

/-- The first transaction of a call. -/
def callMove (conditions : Conditions) : DbCall → Move
  | .addNewUser postInfo => .addProperties conditions.breakdowns.addProperties
    postInfo.userProperties postInfo.binaryData
  | call => .call conditions call

/-- The next transaction of a turn; there is none when it can reply. -/
def Serving.next (site : Site) (serving : Serving) : Option Move :=
  match serving.registering with
  | some userId => (site.registering userId).map
    (stageMove (serving.coming (serving.found.length-1)).1.breakdowns userId)
  | none => (serving.pending installation).map (callMove (serving.coming serving.found.length).1)

/-- The user whose registration a transaction goes on with. -/
def stagedUser : Move → Option ℕ
  | .addNewPhoto _ userId | .connectPropertiesAndPhoto _ userId | .deletePhoto _ userId
  | .deleteRow _ userId => some userId
  | _ => none

/-- The user a transaction inserts. -/
def insertedBy (site : Site) : Move → Option ℕ
  | .addProperties broken userProperties _ =>
    (AuthDatabase.addProperties broken userProperties site.store.accounts).1.toOption
  | _ => none

/-- The turn behind a transaction of it. -/
def Serving.behind (dialect : Dialect) (site next : Site) (move : Move) (serving : Serving) : Serving :=
  match serving.registering with
  | some userId => {serving with
      registering := (next.registering userId).map fun _ => userId,
      made := serving.made++committed dialect site move}
  | none => {serving with
      found := serving.found++[site.store],
      registering := insertedBy site move,
      made := serving.made++committed dialect site move}

end turns

section statements

variable (installation : Installation)

/-- Stages that a registration reaches under its breakdowns. -/
def Reached (breakdowns : Breakdowns) (postInfo : PostTInfo) : Stage → Prop
  | .inserted userProperties binaryData =>
    userProperties=postInfo.userProperties ∧ binaryData=postInfo.binaryData
  | .pictured userProperties binaryData _ => userProperties=postInfo.userProperties ∧
    binaryData=postInfo.binaryData ∧ breakdowns.addNewPhoto=false
  | .undoing (some _) => breakdowns.addNewPhoto=false ∧ breakdowns.connect=true
  | .undoing none => breakdowns.addNewPhoto=true ∨ breakdowns.connect=true

/-- How far the registration of a turn has come, and what it has committed. -/
inductive Registers (breakdowns : Breakdowns) (postInfo : PostTInfo) (database : Database)
    (site : Site) (serving : Serving) : Prop where
  /-- The user is not inserted. -/
  | refused (e : CxxException)
    (hadd : (addProperties breakdowns.addProperties postInfo.userProperties database).1=.error e)
    (hidle : serving.registering=none) (hmade : serving.made=[])
  /-- The user is inserted, and the registration goes on. -/
  | staged (userId : ℕ) (stage : Stage)
    (hadd : (addProperties breakdowns.addProperties postInfo.userProperties database).1=.ok userId)
    (hserving : serving.registering=some userId) (hstage : site.registering userId=some stage)
    (hreached : Reached breakdowns postInfo stage)
    (hmade : serving.made=[.registered userId (openedAccount postInfo.userProperties)])
  /-- The photo is linked. -/
  | connected (userId photoId : ℕ)
    (hadd : (addProperties breakdowns.addProperties postInfo.userProperties database).1=.ok userId)
    (hdone : breakdowns.addNewPhoto=false ∧ breakdowns.connect=false)
    (hidle : serving.registering=none)
    (hmade : serving.made=[.registered userId (openedAccount postInfo.userProperties),
      .pictured userId ⟨photoId,property postInfo.userProperties (ascii "photo_type"),
        postInfo.binaryData⟩])
  /-- It has failed, and the user is deleted, unless that failed as well. -/
  | undone (userId : ℕ)
    (hadd : (addProperties breakdowns.addProperties postInfo.userProperties database).1=.ok userId)
    (hfailed : breakdowns.addNewPhoto=true ∨ breakdowns.connect=true)
    (hidle : serving.registering=none)
    (hmade : serving.made=.registered userId (openedAccount postInfo.userProperties)::
      if breakdowns.deleteRow then [] else [.withdrawn userId])

/-- How far a turn has come, and what it has committed. -/
inductive Progress (site : Site) (serving : Serving) : Prop where
  /-- It has only read. -/
  | reading (hidle : serving.registering=none) (hmade : serving.made=[])
    (hread : ∀ call ∈ (calls (serving.ran installation).events).take serving.found.length,Reading call)
  /-- Its only call has written, if it has returned. -/
  | wrote (call : DbCall) (store : Store) (hwriting : Writing call)
    (hcalls : calls (serving.ran installation).events=[call]) (hfound : serving.found=[store])
    (hidle : serving.registering=none)
    (hmade : serving.made=
      if (callStore installation.dialect (serving.coming 0).1 call store).1.isOk then
        callChanges installation.dialect call
      else [])
  /-- Its only call registers. -/
  | registers (postInfo : PostTInfo) (store : Store)
    (hcalls : calls (serving.ran installation).events=[.addNewUser postInfo])
    (hfound : serving.found=[store])
    (hregisters : Registers (serving.coming 0).1.breakdowns postInfo store.accounts site serving)

/-- Changes that an acknowledged call has committed: those it stands for. -/
def Acknowledged (dialect : Dialect) (made : List Change) : DbCall → Prop
  | .addNewUser postInfo => ∃ userId photoId,
    made=[.registered userId (openedAccount postInfo.userProperties),
      .pictured userId ⟨photoId,property postInfo.userProperties (ascii "photo_type"),
        postInfo.binaryData⟩]
  | call => made=callChanges dialect call

/-- Changes that a turn without an acknowledgement has committed: none, or a
registration that was taken back, unless its deletion broke down. -/
def Abandoned (breakdowns : Breakdowns) (made : List Change) : Prop :=
  made=[] ∨ ∃ userId account,
    made=.registered userId account::if breakdowns.deleteRow then [] else [.withdrawn userId]

/-- What a turn that has replied has committed is what it acknowledged. -/
def Settles (serving : Serving) : Prop :=
  ((serving.ran installation).events.any acknowledges=true ∧ ∃ call,¬Reading call ∧
      calls (serving.ran installation).events=[call] ∧
      Acknowledged installation.dialect serving.made call) ∨
    (serving.ran installation).events.any acknowledges=false ∧
      Abandoned (serving.coming 0).1.breakdowns serving.made

end statements

section registrations

variable {dialect : Dialect} {site next : Site} {breakdowns : Breakdowns} {postInfo : PostTInfo}
  {userId : ℕ}

/-- A registration answers as its first transaction and its breakdowns say. -/
theorem registration_isOk {conditions : Conditions} {store : Store} :
    (callStore dialect conditions (.addNewUser postInfo) store).1.isOk=
      ((addProperties conditions.breakdowns.addProperties postInfo.userProperties store.accounts).1.isOk
        && !conditions.breakdowns.addNewPhoto && !conditions.breakdowns.connect) := by
  unfold callStore registration
  dsimp only
  rcases addProperties_cases conditions.breakdowns postInfo.userProperties store.accounts with
    ⟨_,e,hadd⟩|⟨_,after,hadd,_⟩
  · rw [addNewUser_refused _ _ postInfo.binaryData _ hadd,hadd]
    rfl
  · rw [addNewUser_inserted _ _ postInfo.binaryData _ hadd,hadd]
    unfold outcomeBehindUser
    cases conditions.breakdowns.addNewPhoto <;> cases conditions.breakdowns.connect <;> rfl

/-- A stage of a registration leads to the next one, or to its end. -/
theorem staged_behind {stage : Stage} (hstage : site.registering userId=some stage)
    (hreached : Reached breakdowns postInfo stage)
    (hstep : SharedStore.step dialect site (stageMove breakdowns userId stage)=some next) :
    (committed dialect site (stageMove breakdowns userId stage)=[] ∧
        ∃ reached,next.registering userId=some reached ∧ Reached breakdowns postInfo reached) ∨
      next.registering userId=none ∧
        ((breakdowns.addNewPhoto=false ∧ breakdowns.connect=false ∧ ∃ photoId,
            committed dialect site (stageMove breakdowns userId stage)=[.pictured userId
              ⟨photoId,property postInfo.userProperties (ascii "photo_type"),postInfo.binaryData⟩]) ∨
          (breakdowns.addNewPhoto=true ∨ breakdowns.connect=true) ∧
            committed dialect site (stageMove breakdowns userId stage)=
              if breakdowns.deleteRow then [] else [.withdrawn userId]) := by
  have hself : ∀ (accounts : Database) (reached : Option Stage),
      (site.staged accounts userId reached).registering userId=reached :=
    fun _ _ => Function.update_self _ _ _
  cases stage with
  | inserted userProperties binaryData =>
    unfold stageMove SharedStore.step at hstep
    dsimp only at hstep
    rw [hstage] at hstep
    unfold AuthDatabase.addNewPhoto at hstep
    refine Or.inl ⟨rfl,?_⟩
    cases hphoto : breakdowns.addNewPhoto with
    | true =>
      rw [hphoto] at hstep
      cases hstep
      exact ⟨_,hself _ _,Or.inl hphoto⟩
    | false =>
      rw [hphoto] at hstep
      cases hstep
      exact ⟨_,hself _ _,hreached.1,hreached.2,hphoto⟩
  | pictured userProperties binaryData photoId =>
    obtain ⟨rfl,rfl,hphoto⟩ := hreached
    unfold stageMove SharedStore.step at hstep
    dsimp only at hstep
    rw [hstage] at hstep
    unfold AuthDatabase.connectPropertiesAndPhoto at hstep
    unfold stageMove committed
    dsimp only
    rw [hstage]
    cases hconnect : breakdowns.connect with
    | true =>
      rw [hconnect] at hstep
      cases hstep
      exact Or.inl ⟨rfl,_,hself _ _,hphoto,hconnect⟩
    | false =>
      rw [hconnect] at hstep
      cases hstep
      exact Or.inr ⟨hself _ _,Or.inl ⟨hphoto,rfl,photoId,rfl⟩⟩
  | undoing photoId =>
    cases photoId with
    | some photoId =>
      unfold stageMove SharedStore.step at hstep
      dsimp only at hstep
      rw [hstage] at hstep
      cases hstep
      exact Or.inl ⟨rfl,_,hself _ _,Or.inr hreached.2⟩
    | none =>
      unfold stageMove SharedStore.step at hstep
      dsimp only at hstep
      rw [hstage] at hstep
      cases hstep
      exact Or.inr ⟨hself _ _,Or.inr ⟨hreached,rfl⟩⟩

/-- Transactions of others leave a registration where it is. -/
theorem registering_kept (h : Sound site) {move : Move} {stage : Stage}
    (hstage : site.registering userId=some stage) (hother : stagedUser move≠some userId)
    (hstep : SharedStore.step dialect site move=some next) :
    next.registering userId=some stage := by
  have hstaged : ∀ {accounts : Database} {other : ℕ} {reached : Option Stage},other≠userId →
      (site.staged accounts other reached).registering userId=some stage :=
    fun hne => (Function.update_of_ne hne.symm _ _).trans hstage
  have hne : ∀ {other : ℕ},stagedUser move=some other → other≠userId := by
    rintro other hmove rfl
    exact hother hmove
  have hmoved := step_moved hstep
  generalize committed dialect site move=changes at hmoved
  cases hmoved with
  | stayed => exact hstage
  | wrote conditions call after hwritten => exact hstage
  | operated circumstances arrangement op after heffected => exact hstage
  | inserted userProperties binaryData after hpictures husers =>
    obtain ⟨user,huser,_⟩ := h.begun userId stage hstage
    exact hstaged (Nat.ne_of_gt (lt_next_of_lookup huser))
  | pictured other userProperties binaryData hbefore => exact hstaged (hne rfl)
  | unpictured other userProperties binaryData hbefore => exact hstaged (hne rfl)
  | connected other userProperties binaryData photoId hbefore => exact hstaged (hne rfl)
  | unconnected other userProperties binaryData photoId hbefore => exact hstaged (hne rfl)
  | unphotographed broken other photoId hbefore => exact hstaged (hne rfl)
  | removed other hbefore => exact hstaged (hne rfl)
  | abandoned other hbefore => exact hstaged (hne rfl)

/-- An inserted user has the next key. -/
theorem inserted_next {move : Move} (h : insertedBy site move=some userId) :
    userId=site.store.accounts.users.next := by
  cases move with
  | addProperties broken userProperties binaryData =>
    change (AuthDatabase.addProperties broken userProperties site.store.accounts).1.toOption=_ at h
    rcases addProperties_cases ⟨broken,false,false,false,false⟩ userProperties site.store.accounts
      with ⟨_,e,hadd⟩|⟨_,after,hadd,_⟩
    · dsimp only at hadd
      rw [hadd] at h
      cases h
    · dsimp only at hadd
      rw [hadd] at h
      exact (Option.some.inj h).symm
  | _ => cases h

end registrations

section progress

variable {installation : Installation} {site next : Site} {serving : Serving}

/-- What a turn finds, over some tables for calls that it does not make. -/
def Serving.over (serving : Serving) (store : Store) : Surroundings :=
  ⟨fun number => serving.found.getD number store,serving.coming⟩

/-- Tables for calls that are still to come make no difference before them. -/
theorem agree_over (serving : Serving) (store : Store) :
    Agree serving.found.length serving.world (serving.over store) := by
  refine ⟨rfl,fun number hnumber => ?_⟩
  change serving.found.getD number store=serving.found.getD number emptyStore
  rw [List.getD_eq_getElem _ _ hnumber,List.getD_eq_getElem _ _ hnumber]

/-- Nor do tables that the next call finds. -/
theorem agree_found {later : Serving} {store : Store} (hcoming : later.coming=serving.coming)
    (hfound : later.found=serving.found++[store]) :
    Agree serving.found.length serving.world later.world := by
  refine ⟨hcoming,fun number hnumber => ?_⟩
  change later.found.getD number emptyStore=serving.found.getD number emptyStore
  rw [hfound,List.getD_append _ _ _ _ hnumber]

/-- A new turn has done nothing. -/
theorem progress_begun (buffer received : Bytes) (coming : ℕ → Conditions×ℕ) :
    Progress installation site (.begun buffer received coming) :=
  .reading rfl rfl fun _ hmem => absurd hmem List.not_mem_nil

/-- A transaction of another turn leaves a turn where it is. -/
theorem Progress.kept (h : Progress installation site serving)
    (hkept : ∀ userId stage,serving.registering=some userId →
      site.registering userId=some stage → next.registering userId=some stage) :
    Progress installation next serving := by
  cases h with
  | reading hidle hmade hread => exact .reading hidle hmade hread
  | wrote call store hwriting hcalls hfound hidle hmade =>
    exact .wrote call store hwriting hcalls hfound hidle hmade
  | registers postInfo store hcalls hfound hregisters =>
    refine .registers postInfo store hcalls hfound ?_
    cases hregisters with
    | refused e hadd hidle hmade => exact .refused e hadd hidle hmade
    | staged userId stage hadd hserving hstage hreached hmade =>
      exact .staged userId stage hadd hserving (hkept userId stage hserving hstage) hreached hmade
    | connected userId photoId hadd hdone hidle hmade =>
      exact .connected userId photoId hadd hdone hidle hmade
    | undone userId hadd hfailed hidle hmade => exact .undone userId hadd hfailed hidle hmade

/-- The user of a turn under way is at some stage. -/
theorem Progress.stage (h : Progress installation site serving) {userId : ℕ}
    (hserving : serving.registering=some userId) : ∃ stage,site.registering userId=some stage := by
  cases h with
  | reading hidle => exact absurd (hidle.symm.trans hserving) nofun
  | wrote call store hwriting hcalls hfound hidle => exact absurd (hidle.symm.trans hserving) nofun
  | registers postInfo store hcalls hfound hregisters =>
    cases hregisters with
    | refused e hadd hidle => exact absurd (hidle.symm.trans hserving) nofun
    | staged other stage hadd hother hstage hreached hmade =>
      cases hother.symm.trans hserving
      exact ⟨stage,hstage⟩
    | connected other photoId hadd hdone hidle => exact absurd (hidle.symm.trans hserving) nofun
    | undone other hadd hfailed hidle => exact absurd (hidle.symm.trans hserving) nofun

/-- A turn without a next transaction registers nobody. -/
theorem Progress.idle (h : Progress installation site serving)
    (hnext : serving.next installation site=none) : serving.registering=none := by
  cases hserving : serving.registering with
  | none => rfl
  | some userId =>
    obtain ⟨stage,hstage⟩ := h.stage hserving
    unfold Serving.next at hnext
    rw [hserving] at hnext
    dsimp only at hnext
    rw [hstage] at hnext
    cases hnext

/-- A turn without a next transaction is the same whatever tables other calls would find. -/
theorem Progress.ran_over (h : Progress installation site serving)
    (hnext : serving.next installation site=none) (store : Store) :
    (turn installation.services serving.buffer serving.received (serving.over store)).events=
      (serving.ran installation).events := by
  have hpending : serving.pending installation=none := by
    unfold Serving.next at hnext
    rw [h.idle hnext] at hnext
    exact Option.map_eq_none_iff.mp hnext
  exact ((ordered_turn installation serving.buffer serving.received _ _ _
    (agree_over serving store)).2 (List.getElem?_eq_none_iff.mp hpending)).2.1

/-- A call that may write registers, or writes in one transaction. -/
theorem writes_cases {call : DbCall} (h : ¬Reading call) :
    (∃ postInfo,call=.addNewUser postInfo) ∨ Writing call := by
  cases call with
  | addNewUser postInfo => exact Or.inl ⟨postInfo,rfl⟩
  | updateProfilePhoto postInfo id => exact Or.inr trivial
  | updateProfileData jsonBody id => exact Or.inr trivial
  | updateProfilePassword password id => exact Or.inr trivial
  | makeFriend userId friendId => exact Or.inr trivial
  | deleteFriend userId friendId => exact Or.inr trivial
  | _ => exact absurd (fun hwriting : Writing _ => hwriting) h

/-- A call of one transaction is its own move. -/
theorem callMove_call {conditions : Conditions} {call : DbCall}
    (h : ∀ postInfo,call≠.addNewUser postInfo) : callMove conditions call=.call conditions call := by
  cases call with
  | addNewUser postInfo => exact absurd rfl (h postInfo)
  | _ => rfl

/-- The calls of a turn that makes one that may write. -/
theorem calls_writing {call : DbCall} (hcall : call ∈ calls (serving.ran installation).events)
    (hwrites : ¬Reading call) : calls (serving.ran installation).events=[call] := by
  rcases asks_turn installation serving.buffer serving.received with hreads|⟨made,_,hcalls,_⟩
  · exact absurd (reading_of_calls hreads hcall) hwrites
  · have hcalls : calls (serving.ran installation).events=[made] := hcalls
    rw [hcalls] at hcall
    rw [hcalls,List.mem_singleton.mp hcall]

/-- A turn goes on with its own registration only. -/
theorem next_stagedUser {move : Move} (h : serving.next installation site=some move) :
    stagedUser move=serving.registering := by
  unfold Serving.next at h
  cases hserving : serving.registering with
  | some userId =>
    rw [hserving] at h
    obtain ⟨stage,_,rfl⟩ := Option.map_eq_some_iff.mp h
    cases stage with
    | undoing photoId => cases photoId <;> rfl
    | _ => rfl
  | none =>
    rw [hserving] at h
    obtain ⟨call,_,rfl⟩ := Option.map_eq_some_iff.mp h
    cases call <;> rfl

/-- Behind a transaction a turn registers the same user, or one that it has inserted, if any. -/
theorem behind_registering {dialect : Dialect} {move : Move} {userId : ℕ}
    (h : (serving.behind dialect site next move).registering=some userId) :
    serving.registering=some userId ∨ userId=site.store.accounts.users.next := by
  unfold Serving.behind at h
  cases hserving : serving.registering with
  | some other =>
    rw [hserving] at h
    obtain ⟨_,_,rfl⟩ := Option.map_eq_some_iff.mp h
    exact Or.inl rfl
  | none =>
    rw [hserving] at h
    exact Or.inr (inserted_next h)

/-- Behind a transaction a turn has found no other tables than those of a call. -/
theorem found_behind {dialect : Dialect} {move : Move} {store : Store}
    (h : store ∈ (serving.behind dialect site next move).found) :
    store ∈ serving.found ∨ store=site.store := by
  unfold Serving.behind at h
  cases hserving : serving.registering with
  | some userId =>
    rw [hserving] at h
    exact Or.inl h
  | none =>
    rw [hserving] at h
    exact (List.mem_append.mp h).imp_right List.mem_singleton.mp

/-- A user that is inserted is at the first stage. -/
theorem inserted_stage {postInfo : PostTInfo} {breakdowns : Breakdowns}
    (hstep : SharedStore.step installation.dialect site (.addProperties breakdowns.addProperties
      postInfo.userProperties postInfo.binaryData)=some next) :
    (∃ e,(addProperties breakdowns.addProperties postInfo.userProperties site.store.accounts).1=
        .error e) ∨
      ∃ userId,(addProperties breakdowns.addProperties postInfo.userProperties site.store.accounts).1=
        .ok userId ∧ next.registering userId=
          some (.inserted postInfo.userProperties postInfo.binaryData) := by
  unfold SharedStore.step at hstep
  dsimp only at hstep
  rcases addProperties_cases breakdowns postInfo.userProperties site.store.accounts with
    ⟨_,e,hadd⟩|⟨_,after,hadd,_⟩
  · rw [hadd]
    exact Or.inl ⟨e,rfl⟩
  · rw [hadd] at hstep ⊢
    cases hstep
    exact Or.inr ⟨_,rfl,Function.update_self _ _ _⟩

/-- A turn behind its next call. -/
structure Asked (installation : Installation) (site : Site) (serving later : Serving)
    (call : DbCall) : Prop where
  /-- The call. -/
  pending : serving.pending installation=some call
  /-- The recv is the same. -/
  same : later.buffer=serving.buffer ∧ later.received=serving.received ∧ later.coming=serving.coming
  /-- The call has found the tables. -/
  found : later.found=serving.found++[site.store]
  /-- It has inserted the user of a registration. -/
  registering : later.registering=
    insertedBy site (callMove (serving.coming serving.found.length).1 call)
  /-- It has committed its changes. -/
  made : later.made=serving.made++
    committed installation.dialect site (callMove (serving.coming serving.found.length).1 call)

/-- The next call has come up behind the calls before it, and stays there. -/
theorem Asked.calls {later : Serving} {call : DbCall} (h : Asked installation site serving later call) :
    (AuthTurns.calls (later.ran installation).events).take later.found.length=
        (AuthTurns.calls (serving.ran installation).events).take serving.found.length++[call] ∧
      call ∈ AuthTurns.calls (later.ran installation).events ∧
      call ∈ AuthTurns.calls (serving.ran installation).events := by
  obtain ⟨hbuffer,hreceived,hcoming⟩ := h.same
  have hran : later.ran installation=
      turn installation.services serving.buffer serving.received later.world := by
    unfold Serving.ran
    rw [hbuffer,hreceived]
  have hfirst : (AuthTurns.calls (later.ran installation).events).take (serving.found.length+1)=
      (AuthTurns.calls (serving.ran installation).events).take (serving.found.length+1) := by
    rw [hran]
    exact (ordered_turn installation serving.buffer serving.received _ _ _
      (agree_found hcoming h.found)).1
  have hpending : (AuthTurns.calls (serving.ran installation).events)[serving.found.length]?=
      some call := h.pending
  have hlast : (AuthTurns.calls (later.ran installation).events).take later.found.length=
      (AuthTurns.calls (serving.ran installation).events).take serving.found.length++[call] := by
    rw [h.found,List.length_append,List.length_singleton,hfirst,List.take_add_one,hpending]
    rfl
  refine ⟨hlast,List.mem_of_mem_take (i := later.found.length) ?_,List.mem_of_getElem? hpending⟩
  rw [hlast]
  exact List.mem_append_right _ (List.mem_singleton_self call)

/-- A call that reads leads its turn on. -/
theorem Asked.reads {later : Serving} {call : DbCall}
    (h : Asked installation site serving later call) (hmade : serving.made=[])
    (hread : ∀ earlier ∈ (AuthTurns.calls (serving.ran installation).events).take
      serving.found.length,Reading earlier) (hreading : Reading call) :
    Progress installation next later := by
  have hother : ∀ postInfo,call≠.addNewUser postInfo := by
    rintro postInfo rfl
    exact hreading
  have hmove := @callMove_call (serving.coming serving.found.length).1 call hother
  have hnone : ¬Writing call := by
    cases call with
    | addNewUser postInfo => exact id
    | _ => exact hreading
  refine .reading ?_ ?_ ?_
  · rw [h.registering,hmove]
    rfl
  · rw [h.made,hmade,hmove,List.nil_append]
    unfold committed
    dsimp only
    rw [callChanges_reading hnone,ite_self]
  · rw [h.calls.1]
    intro made hmem
    rcases List.mem_append.mp hmem with hmem|hmem
    · exact hread made hmem
    · rwa [List.mem_singleton.mp hmem]

/-- A call that may write is the first of its turn. -/
theorem Asked.first {later : Serving} {call : DbCall}
    (h : Asked installation site serving later call) (hwrites : ¬Reading call) :
    serving.found=[] := by
  have hpending := h.pending
  unfold Serving.pending at hpending
  rw [calls_writing h.calls.2.2 hwrites] at hpending
  refine List.length_eq_zero_iff.mp ?_
  by_contra hne
  rw [List.getElem?_eq_none (Nat.one_le_iff_ne_zero.mpr hne)] at hpending
  cases hpending

/-- A call that may write leads its turn to its end, or to the stages of a registration. -/
theorem Asked.writes {later : Serving} {call : DbCall}
    (h : Asked installation site serving later call) (hmade : serving.made=[])
    (hwrites : ¬Reading call) (hstep : SharedStore.step installation.dialect site
      (callMove (serving.coming serving.found.length).1 call)=some next) :
    Progress installation next later := by
  have hfirst := h.first hwrites
  have hcalls := calls_writing h.calls.2.1 hwrites
  have hfound : later.found=[site.store] := by
    rw [h.found,hfirst,List.nil_append]
  have hcommitted := h.made
  have hregistering := h.registering
  rw [hmade,hfirst,List.nil_append] at hcommitted
  rw [hfirst] at hregistering hstep
  have hcoming := h.same.2.2
  rcases writes_cases hwrites with ⟨postInfo,rfl⟩|hwriting
  · refine .registers postInfo site.store hcalls hfound ?_
    rw [hcoming]
    rcases inserted_stage hstep with ⟨e,hadd⟩|⟨userId,hadd,hstage⟩
    · refine .refused e hadd ?_ ?_
      · rw [hregistering]
        exact congrArg Except.toOption hadd
      · rw [hcommitted]
        unfold callMove committed
        dsimp only
        rw [hadd]
    · refine .staged userId _ hadd ?_ hstage ⟨rfl,rfl⟩ ?_
      · rw [hregistering]
        exact congrArg Except.toOption hadd
      · rw [hcommitted]
        unfold callMove committed
        dsimp only
        rw [hadd]
  · have hmove : callMove (serving.coming 0).1 call=.call (serving.coming 0).1 call :=
      callMove_call fun postInfo heq => by
        subst heq
        exact hwriting
    refine .wrote call site.store hwriting hcalls hfound ?_ ?_
    · rw [hregistering]
      exact congrArg (insertedBy site) hmove
    · rw [hcommitted,hcoming]
      exact congrArg (committed installation.dialect site) hmove

/-- A transaction leads its turn on. -/
theorem Progress.behind (h : Progress installation site serving) {move : Move}
    (hnext : serving.next installation site=some move)
    (hstep : SharedStore.step installation.dialect site move=some next) :
    Progress installation next (serving.behind installation.dialect site next move) := by
  cases h with
  | reading hidle hmade hread =>
    unfold Serving.next at hnext
    rw [hidle] at hnext
    obtain ⟨call,hpending,rfl⟩ := Option.map_eq_some_iff.mp hnext
    have hasked : Asked installation site serving (serving.behind installation.dialect site next
        (callMove (serving.coming serving.found.length).1 call)) call := by
      unfold Serving.behind
      rw [hidle]
      exact ⟨hpending,⟨rfl,rfl,rfl⟩,rfl,rfl,rfl⟩
    by_cases hreading : Reading call
    · exact hasked.reads hmade hread hreading
    · exact hasked.writes hmade hreading hstep
  | wrote call store hwriting hcalls hfound hidle hmade =>
    unfold Serving.next Serving.pending at hnext
    rw [hidle] at hnext
    dsimp only at hnext
    rw [hcalls,hfound] at hnext
    cases hnext
  | registers postInfo store hcalls hfound hregisters =>
    have hended : serving.registering=none → False := by
      intro hidle
      unfold Serving.next Serving.pending at hnext
      rw [hidle] at hnext
      dsimp only at hnext
      rw [hcalls,hfound] at hnext
      cases hnext
    cases hregisters with
    | refused e hadd hidle hmade => exact (hended hidle).elim
    | connected userId photoId hadd hdone hidle hmade => exact (hended hidle).elim
    | undone userId hadd hfailed hidle hmade => exact (hended hidle).elim
    | staged userId stage hadd hserving hstage hreached hmade =>
      unfold Serving.next at hnext
      rw [hserving] at hnext
      dsimp only at hnext
      rw [hstage,hfound] at hnext
      cases hnext
      unfold Serving.behind
      rw [hserving]
      refine .registers postInfo store hcalls hfound ?_
      rcases staged_behind hstage hreached hstep with
        ⟨hnothing,reached,hafter,hstill⟩|⟨hafter,⟨hphoto,hconnect,photoId,hlinked⟩|⟨hfailed,hdeleted⟩⟩
      · refine .staged userId reached hadd ?_ hafter hstill ?_
        · dsimp only
          rw [hafter]
          rfl
        · dsimp only
          rw [hmade]
          exact congrArg _ hnothing
      · refine .connected userId photoId hadd ⟨hphoto,hconnect⟩ ?_ ?_
        · dsimp only
          rw [hafter]
          rfl
        · dsimp only
          rw [hmade]
          exact congrArg _ hlinked
      · refine .undone userId hadd hfailed ?_ ?_
        · dsimp only
          rw [hafter]
          rfl
        · dsimp only
          rw [hmade]
          exact congrArg _ hdeleted

/-- A turn whose only call may write acknowledges it when it returns. -/
theorem ran_acknowledges {call : DbCall} {store : Store} (hwrites : ¬Reading call)
    (hcalls : calls (serving.ran installation).events=[call]) (hfound : serving.found=[store]) :
    (serving.ran installation).events.any acknowledges=
      (callStore installation.dialect (serving.coming 0).1 call store).1.isOk := by
  have hasks := @asks_turn installation serving.world serving.buffer serving.received
  rcases hasks with hreads|⟨made,_,hmade,hdone⟩
  · have hcall : call ∈ calls (serving.ran installation).events :=
      hcalls ▸ List.mem_singleton_self call
    exact absurd (reading_of_calls hreads hcall) hwrites
  · cases (hcalls.symm.trans hmade)
    refine hdone.trans ?_
    change (callStore installation.dialect (serving.coming 0).1 call
      (serving.found.getD 0 emptyStore)).1.isOk=_
    rw [hfound]
    rfl

/-- A registration that has ended has committed what its turn acknowledges. -/
theorem Registers.settles {postInfo : PostTInfo} {store : Store}
    (h : Registers (serving.coming 0).1.breakdowns postInfo store.accounts site serving)
    (hcalls : calls (serving.ran installation).events=[.addNewUser postInfo])
    (hfound : serving.found=[store]) (hnext : serving.next installation site=none) :
    Settles installation serving := by
  have hwrites : ¬Reading (.addNewUser postInfo) := id
  have hdone := ran_acknowledges hwrites hcalls hfound
  rw [registration_isOk] at hdone
  cases h with
  | refused e hadd hidle hmade =>
    rw [hadd] at hdone
    exact Or.inr ⟨hdone,Or.inl hmade⟩
  | staged userId stage hadd hserving hstage hreached hmade =>
    unfold Serving.next at hnext
    rw [hserving] at hnext
    dsimp only at hnext
    rw [hstage] at hnext
    cases hnext
  | connected userId photoId hadd hfine hidle hmade =>
    rw [hadd,hfine.1,hfine.2] at hdone
    exact Or.inl ⟨hdone,_,hwrites,hcalls,userId,photoId,hmade⟩
  | undone userId hadd hfailed hidle hmade =>
    have hraised : (!(serving.coming 0).1.breakdowns.addNewPhoto &&
        !(serving.coming 0).1.breakdowns.connect)=false := by
      rcases hfailed with hfailed|hfailed
      · rw [hfailed]
        rfl
      · rw [hfailed]
        exact Bool.and_false _
    rw [Bool.and_assoc,hraised,Bool.and_false] at hdone
    exact Or.inr ⟨hdone,Or.inr ⟨userId,_,hmade⟩⟩

/-- A turn that can reply has committed what it acknowledges. -/
theorem Progress.settles (h : Progress installation site serving)
    (hnext : serving.next installation site=none) : Settles installation serving := by
  cases h with
  | reading hidle hmade hread =>
    have hpending : serving.pending installation=none := by
      unfold Serving.next at hnext
      rw [hidle] at hnext
      exact Option.map_eq_none_iff.mp hnext
    have hall := List.getElem?_eq_none_iff.mp hpending
    rw [List.take_of_length_le hall] at hread
    refine Or.inr ⟨?_,Or.inl hmade⟩
    rcases @asks_turn installation serving.world serving.buffer serving.received with
      hreads|⟨call,hwrites,hcalls,_⟩
    · exact unacknowledged hreads
    · have hcall : call ∈ calls (serving.ran installation).events := by
        change call ∈ calls (turn _ _ _ _).events
        rw [hcalls]
        exact List.mem_singleton_self call
      exact absurd (hread call hcall) hwrites
  | wrote call store hwriting hcalls hfound hidle hmade =>
    have hwrites : ¬Reading call := by
      cases call with
      | addNewUser postInfo => exact id
      | _ => exact fun hreading => hreading hwriting
    have hdone := ran_acknowledges hwrites hcalls hfound
    cases hok : (callStore installation.dialect (serving.coming 0).1 call store).1.isOk with
    | true =>
      rw [hok] at hdone
      rw [hok,if_pos rfl] at hmade
      refine Or.inl ⟨hdone,call,hwrites,hcalls,?_⟩
      cases call with
      | addNewUser postInfo => exact hwriting.elim
      | _ => exact hmade
    | false =>
      rw [hok] at hdone
      rw [hok,if_neg Bool.false_ne_true] at hmade
      exact Or.inr ⟨hdone,Or.inl hmade⟩
  | registers postInfo store hcalls hfound hregisters => exact hregisters.settles hcalls hfound hnext

end progress

end Photogram.TurnsUnderWay
