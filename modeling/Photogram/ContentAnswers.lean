import Photogram.AuthAnswers
import Photogram.ContentStatus

/-!
# What clients of the content server are told

The callback of an inquiry on the tables of both servers. A read is answered
from the network that the tables stand for and leaves it alone; a write that
is confirmed is made, and one that is not is made only when its commit was
kept without the server learning so.
-/

namespace Photogram.ContentAnswers

open CxxString EffectLog JsonValue QueryString RowTable AnotherServerConnection ContentConnection
open ContentHandlers ContentPosts ContentStatus PagedQuery ListPages AuthStore SocialNetwork SharedStore
open StoreNetwork NetworkReads AuthProcess AuthAnswers

section surroundings

/-- What a callback finds. -/
structure Scene where
  /-- The tables. -/
  store : Store
  /-- How the database treats its client. -/
  circumstances : Circumstances
  /-- Order in which the database lists posts. -/
  arrangement : Arrangement latestFirst

/-- What both servers take from their libraries and their database system. -/
structure Deployment where
  /-- The authentication server. -/
  installation : Installation
  /-- Value of a JSON text at the content server. -/
  jsonParse : Bytes → Option Json
  /-- Text of a JSON value there. -/
  dump : Json → Option Bytes
  /-- Name its client library gives itself. -/
  userAgent : FieldValue

/-- The content server on the tables. -/
def Deployment.content (deployment : Deployment) : ContentServices Scene where
  jsonParse := deployment.jsonParse
  dump := deployment.dump
  connect scene := (raise? scene.circumstances.connect,scene)
  operate op scene :=
    let operated := operateStore deployment.installation.dialect scene.circumstances scene.arrangement
      op scene.store
    (operated.1,{scene with store := operated.2})

/-- The operation of the database client. -/
def operationOf : PostOperation → DbOperation
  | .addNewPost userId propertyMap => .addNewPost userId propertyMap
  | .delPostById postId id => .delPostById postId id
  | .likeClicked postId userId => .likeClicked postId userId

/-- An operation that only reads. -/
def Browses : DbOperation → Prop
  | .getPostsList _ _ _ | .getPostsListById _ _ _ _ | .getPostPhotoById _ => True
  | _ => False

end surroundings

section operations

variable {dialect : Dialect} {circumstances : Circumstances} {arrangement : Arrangement latestFirst}
  {store : Store}

/-- Changes of an operation whose writes are kept although its commit raises. -/
def unconfirmed (dialect : Dialect) (circumstances : Circumstances) (tables : Tables)
    (op : DbOperation) : List Change :=
  if circumstances.commit.isSome && commits dialect circumstances op tables then
    operationChanges dialect circumstances tables op
  else []

/-- Reading leaves the tables. -/
theorem browses_store {op : DbOperation} (h : Browses op) :
    (operateStore dialect circumstances arrangement op store).2=store := by
  cases op with
  | getPostsList id limit offset => rfl
  | getPostsListById authorId userId limit offset => rfl
  | getPostPhotoById photoId => rfl
  | _ => exact h.elim

/-- It has no changes to make. -/
theorem browses_changes {op : DbOperation} (h : Browses op) (tables : Tables) :
    operationChanges dialect circumstances tables op=[] ∧
      unconfirmed dialect circumstances tables op=[] := by
  have hnone : operationChanges dialect circumstances tables op=[] := by
    cases op with
    | getPostsList id limit offset => rfl
    | getPostsListById authorId userId limit offset => rfl
    | getPostPhotoById photoId => rfl
    | _ => exact h.elim
  refine ⟨hnone,?_⟩
  unfold unconfirmed
  rw [hnone,ite_self]

/-- An operation a POST asks for is confirmed when it succeeds and its commit
does not raise. -/
theorem operated_isOk (operation : PostOperation) (tables : Tables)
    (lists : DbOperation → Tables → Except CxxException Json) :
    (operateTables dialect.readInteger circumstances lists (operationOf operation) tables).1.isOk=true ↔
      operation.Succeeds dialect.readInteger circumstances tables ∧ circumstances.commit=none := by
  rw [←run_ok_iff]
  have hunit : ∀ outcome : Except CxxException Unit,outcome.isOk=true ↔ outcome=.ok () := by
    intro outcome
    cases outcome with
    | ok value => exact iff_of_true rfl rfl
    | error e => exact iff_of_false Bool.false_ne_true nofun
  cases operation <;> exact hunit _

/-- It is committed when it succeeds and its writes are kept. -/
theorem commits_iff (operation : PostOperation) (tables : Tables) :
    commits dialect circumstances (operationOf operation) tables=true ↔
      writesKept circumstances=true ∧ operation.Succeeds dialect.readInteger circumstances tables := by
  have hsame : operation.Succeeds dialect.readInteger (answered circumstances) tables ↔
      operation.Succeeds dialect.readInteger circumstances tables := by
    cases operation <;> exact Iff.rfl
  unfold commits
  rw [Bool.and_eq_true,operated_isOk,hsame]
  exact and_congr_right fun _ => and_iff_left rfl

/-- The tables behind an operation a POST asks for stand for the network that
it makes, confirmed or not. -/
theorem operation_refined {site : Site} (h : Sound site) (operation : PostOperation) :
    Refined site {site with store :=
        (operateStore dialect circumstances arrangement (operationOf operation) site.store).2}
      (if (operateStore dialect circumstances arrangement (operationOf operation) site.store).1.isOk then
        operationChanges dialect circumstances site.store.content (operationOf operation)
      else unconfirmed dialect circumstances site.store.content (operationOf operation)) := by
  have hstep : SharedStore.step dialect site
      (.operation circumstances arrangement (operationOf operation))=some {site with store :=
        (operateStore dialect circumstances arrangement (operationOf operation) site.store).2} := rfl
  have hrefined := step_refined h hstep
  refine ⟨hrefined.sound,hrefined.network.trans (congrArg _ ?_)⟩
  have hok := @operated_isOk dialect circumstances operation site.store.content
    (postLists dialect circumstances arrangement site.store)
  have hcommits := @commits_iff dialect circumstances operation site.store.content
  change (if commits dialect circumstances (operationOf operation) site.store.content then _ else _)=
    if (operateTables dialect.readInteger circumstances (postLists dialect circumstances arrangement
      site.store) (operationOf operation) site.store.content).1.isOk then _ else _
  unfold unconfirmed
  cases hcommit : circumstances.commit with
  | none =>
    have hkept : writesKept circumstances=true := by
      unfold writesKept
      rw [hcommit]
      rfl
    have hsame : commits dialect circumstances (operationOf operation) site.store.content=
        (operateTables dialect.readInteger circumstances (postLists dialect circumstances arrangement
          site.store) (operationOf operation) site.store.content).1.isOk := by
      rw [Bool.eq_iff_iff,hcommits,hok,and_iff_right hkept,and_iff_left hcommit]
    rw [hsame]
    rfl
  | some raised =>
    have hraised : (operateTables dialect.readInteger circumstances (postLists dialect circumstances
        arrangement site.store) (operationOf operation) site.store.content).1.isOk=false := by
      rw [Bool.eq_false_iff,Ne,hok,hcommit]
      exact fun hboth => nomatch hboth.2
    rw [hraised]
    rfl

end operations

section callbacks

/-- Operations among the events, in order. -/
def operationCalls (events : List ContentEvent) : List DbOperation := events.filterMap fun
  | .operation op => some op
  | .responded _ => none

/-- The answer to a write. -/
def confirms : ContentEvent → Bool
  | .responded (.formResponseOk _) => true
  | _ => false

/-- Changes that the events of a callback stand for: those of its operation, if
that is confirmed, or else what its kept writes make of the tables. -/
def callbackChanges (dialect : Dialect) (scene : Scene) (events : List ContentEvent) : List Change :=
  (operationCalls events).flatMap (if events.any confirms then
      operationChanges dialect scene.circumstances scene.store.content
    else unconfirmed dialect scene.circumstances scene.store.content)

/-- The tables are the same. -/
def SameScene (before after : Scene) : Prop := after.store=before.store

/-- They stay the same. -/
theorem sameScene_trans (first second third : Scene) (h : SameScene first second)
    (hrest : SameScene second third) : SameScene first third := hrest.trans h

/-- Operations that only read are the only ones called. -/
def BrowsesOnly : ContentEvent → Prop
  | .operation op => Browses op
  | .responded _ => True

variable (deployment : Deployment) {request : ClientRequest} {scene : Scene}

/-- Events that only read report nothing. -/
theorem callbackChanges_nil {dialect : Dialect} {events : List ContentEvent}
    (h : ∀ event ∈ events,BrowsesOnly event) : callbackChanges dialect scene events=[] := by
  refine List.flatMap_eq_nil_iff.mpr fun op hmem => ?_
  obtain ⟨event,hevent,hsome⟩ := List.mem_filterMap.mp hmem
  cases event with
  | responded response => cases hsome
  | operation called =>
    cases hsome
    have hnone := @browses_changes dialect scene.circumstances op (h _ hevent) scene.store.content
    split
    · exact hnone.1
    · exact hnone.2

/-- The target of a GET reads at most, and leaves the tables. -/
theorem getTarget_browses (id : Bytes) :
    Emits (getTarget deployment.content request id) BrowsesOnly ∧
      Changes SameScene (getTarget deployment.content request id) := by
  have hcompute : ∀ {α : Type} (result : Except Failure α),
      Emits (compute result : Call Scene ContentEvent α) BrowsesOnly ∧
        Changes SameScene (compute result : Call Scene ContentEvent α) :=
    fun _ => ⟨emits_compute _ _,fun _ => rfl⟩
  have hbind : ∀ {α β : Type} {first : Call Scene ContentEvent α}
      {rest : α → Call Scene ContentEvent β},Emits first BrowsesOnly ∧ Changes SameScene first →
      (∀ value,Emits (rest value) BrowsesOnly ∧ Changes SameScene (rest value)) →
        Emits (first>>=rest) BrowsesOnly ∧ Changes SameScene (first>>=rest) :=
    fun hfirst hrest => ⟨emits_bind hfirst.1 fun value => (hrest value).1,
      changes_bind sameScene_trans hfirst.2 fun value => (hrest value).2⟩
  have hoperate : ∀ op,Browses op → Emits (operate deployment.content op) BrowsesOnly ∧
      Changes SameScene (operate deployment.content op) := fun op hop =>
    hbind ⟨emits_record hop,fun _ => rfl⟩ fun _ => ⟨emits_act _ _,fun _ => browses_store hop⟩
  unfold getTarget
  split
  · exact hcompute _
  split
  · exact hbind (hcompute _) fun urlStrArg => hbind (hoperate (.getPostsList _ _ _) trivial) fun json =>
      hbind (hcompute _) fun body => hcompute _
  split
  · exact hbind (hcompute _) fun urlStrArg =>
      hbind (hoperate (.getPostsListById _ _ _ _) trivial) fun json =>
      hbind (hcompute _) fun body => hcompute _
  split
  · exact hbind (hcompute _) fun urlStrArg =>
      hbind (hoperate (.getPostPhotoById _) trivial) fun photo => hcompute _
  · exact hcompute _

/-- The try block of a POST calls no operation, or the one its target asks for. -/
theorem tryBlock_cases (id : Bytes) (scene : Scene) :
    (∃ outcome : Except CxxException Unit,
        tryBlock deployment.content request id scene=⟨outcome.mapError Failure.thrown,scene,[]⟩ ∧
        (outcome=.ok () → postOperation request id=none)) ∨
      ∃ operation,postOperation request id=some (.ok operation) ∧
        ∃ outcome : Except CxxException Unit,
          tryBlock deployment.content request id scene=⟨outcome.mapError Failure.thrown,
            {scene with store := (operateStore deployment.installation.dialect scene.circumstances
              scene.arrangement (operationOf operation) scene.store).2},
            [.operation (operationOf operation)]⟩ ∧
          outcome.isOk=(operateStore deployment.installation.dialect scene.circumstances
            scene.arrangement (operationOf operation) scene.store).1.isOk := by
  unfold tryBlock
  by_cases hopens : Opens deployment.content scene
  · rw [connect_bind_ok deployment.content hopens,postTarget_eq]
    cases hasked : postOperation request id with
    | none => exact Or.inl ⟨.ok (),rfl,fun _ => rfl⟩
    | some read =>
      cases read with
      | error failure =>
        obtain ⟨e,rfl,_⟩ := postOperation_error hasked
        exact Or.inl ⟨.error e,rfl,nofun⟩
      | ok operation =>
        refine Or.inr ⟨operation,rfl,?_⟩
        cases operation with
        | addNewPost userId propertyMap => exact ⟨_,rfl,rfl⟩
        | delPostById postId userId => exact ⟨_,rfl,rfl⟩
        | likeClicked postId userId => exact ⟨_,rfl,rfl⟩
  · obtain ⟨e,hraise⟩ := connect_bind_error deployment.content hopens
      fun _ => postTarget deployment.content request id
    exact Or.inl ⟨.error e,hraise,nofun⟩

/-- Its answer is a success when nothing was raised. -/
def postAnswer (request : ClientRequest) : Except CxxException Unit → Response
  | .ok _ => .formResponseOk request.origin
  | .error _ => .formResponseError request.origin 500

/-- A POST is answered behind its try block, in the world that this left. -/
theorem serveTarget_post_run {τ : Type} (services : ContentServices τ) (hmethod : request.method=.post)
    (id : Bytes) {world after : τ} {outcome : Except CxxException Unit} {events : List ContentEvent}
    (hblock : tryBlock services request id world=⟨outcome.mapError Failure.thrown,after,events⟩) :
    serveTarget services request id world=
      ⟨.ok (),after,events++[.responded (postAnswer request outcome)]⟩ := by
  have hserve : serveTarget services request id=
      (attempt (tryBlock services request id>>=fun _ =>
        pure (Response.formResponseOk request.origin)) (targetError request)>>=respond) := by
    unfold serveTarget tryBlock
    rw [hmethod,bind_assoc]
  have hattempt : attempt (tryBlock services request id>>=fun _ =>
      pure (Response.formResponseOk request.origin)) (targetError request) world=
        ⟨.ok (postAnswer request outcome),after,events⟩ := by
    cases outcome with
    | ok value =>
      unfold attempt
      rw [bind_run_ok (congrArg Ran.outcome hblock),hblock]
      exact congrArg _ (List.append_nil events)
    | error e =>
      unfold attempt
      rw [bind_run_error (congrArg Ran.outcome hblock),hblock]
      exact congrArg _ (List.append_nil events)
  rw [hserve,bind_run_ok (congrArg Ran.outcome hattempt),hattempt]
  rfl

/-- A callback reads at most and leaves the tables, or it makes the operation
of a POST and answers it. -/
theorem callback_cases (id : Bytes) (scene : Scene) :
    ((∀ event ∈ (onGetId deployment.content request id scene).events,BrowsesOnly event) ∧
        (onGetId deployment.content request id scene).world.store=scene.store) ∨
      ∃ operation,∃ outcome : Except CxxException Unit,
        (onGetId deployment.content request id scene).events=
            [.operation (operationOf operation),.responded (postAnswer request outcome)] ∧
          (onGetId deployment.content request id scene).world.store=
            (operateStore deployment.installation.dialect scene.circumstances scene.arrangement
              (operationOf operation) scene.store).2 ∧
          outcome.isOk=(operateStore deployment.installation.dialect scene.circumstances
            scene.arrangement (operationOf operation) scene.store).1.isOk := by
  have hquiet : ∀ {call : Call Scene ContentEvent Unit},Emits call BrowsesOnly →
      Changes SameScene call →
      (∀ event ∈ (call scene).events,BrowsesOnly event) ∧ (call scene).world.store=scene.store :=
    fun hemits hchanges => ⟨hemits.events scene,hchanges scene⟩
  have hword : ∀ response,Emits (respond response : Call Scene ContentEvent Unit) BrowsesOnly :=
    fun _ => emits_record trivial
  unfold onGetId
  split
  · exact Or.inl (hquiet (hword _) fun _ => rfl)
  split
  · exact Or.inl (hquiet (hword _) fun _ => rfl)
  split
  · exact Or.inl (hquiet (hword _) fun _ => rfl)
  cases hmethod : request.method with
  | get =>
    obtain ⟨hemits,hchanges⟩ := @getTarget_browses deployment request id
    unfold serveTarget
    rw [hmethod]
    refine Or.inl (hquiet (emits_bind (emits_act _ _) fun _ => emits_bind
      (emits_attempt hemits fun _ => emits_pure _ _) fun _ => hword _) ?_)
    exact changes_bind sameScene_trans (fun _ => rfl) fun _ => changes_bind sameScene_trans
      (changes_attempt hchanges fun _ _ => rfl) fun _ _ => rfl
  | post =>
    rcases tryBlock_cases deployment id scene with
      ⟨outcome,hblock,_⟩|⟨operation,_,outcome,hblock,hok⟩
    · rw [serveTarget_post_run deployment.content hmethod id hblock]
      exact Or.inl ⟨fun event hmem => List.mem_singleton.mp hmem ▸ trivial,rfl⟩
    · rw [serveTarget_post_run deployment.content hmethod id hblock]
      exact Or.inr ⟨operation,outcome,rfl,rfl,hok⟩
  | options =>
    unfold serveTarget
    rw [hmethod]
    exact Or.inl ⟨fun _ hmem => absurd hmem List.not_mem_nil,rfl⟩
  | other =>
    unfold serveTarget
    rw [hmethod]
    exact Or.inl ⟨fun _ hmem => absurd hmem List.not_mem_nil,rfl⟩

/-- The tables behind a callback stand for the network that its events report. -/
theorem callback_refined {site : Site} (h : Sound site) (hscene : scene.store=site.store) (id : Bytes) :
    Refined site {site with store := (onGetId deployment.content request id scene).world.store}
      (callbackChanges deployment.installation.dialect scene
        (onGetId deployment.content request id scene).events) := by
  rcases @callback_cases deployment request id scene with
    ⟨hbrowses,hsame⟩|⟨operation,outcome,hevents,hstore,hok⟩
  · rw [callbackChanges_nil hbrowses,hsame,hscene]
    exact ⟨h,rfl⟩
  · obtain ⟨hsound,hnetwork⟩ := @operation_refined deployment.installation.dialect
      scene.circumstances scene.arrangement site h operation
    have hconfirms : ([.operation (operationOf operation),
        .responded (postAnswer request outcome)] : List ContentEvent).any confirms=outcome.isOk := by
      cases outcome <;> rfl
    rw [hstore,hevents,hscene]
    rw [hscene] at hok
    refine ⟨hsound,hnetwork.trans (congrArg _ ?_)⟩
    unfold callbackChanges
    rw [hconfirms,hok,hscene]
    change _=List.flatMap _ [operationOf operation]
    rw [List.flatMap_singleton]
    split <;> rfl

end callbacks

section statements

variable (dialect : Dialect) (network : Network)

/-- Answers that a network gives to an operation that reads. -/
def Shows : (op : DbOperation) → op.Answer → Prop
  | .getPostsList id limit offset,json => ∃ user,dialect.readInteger id=some user ∧
      ListsPage dialect (PostOf network fun owner => network.friends user owner=true ∨ owner=user)
        NotOlder (fun found => publicationElement dialect network user found.1 found.2.1 found.2.2)
        limit offset json
  | .getPostsListById authorId userId limit offset,json => ∃ author user,
      dialect.readInteger authorId=some author ∧ dialect.readInteger userId=some user ∧
      ListsPage dialect (PostOf network (·=author)) NotOlder
        (fun found => publicationElement dialect network user found.1 found.2.1 found.2.2)
        limit offset json
  | .getPostPhotoById photoId,photo => ∀ postId publication picture,
      network.publications postId=some publication → publication.photo=some picture →
      dialect.readInteger photoId=some (picture.id : ℤ) → photo=(picture.photoType,picture.photo)
  | _,_ => True

variable (dump : Json → Option Bytes) (request : ClientRequest) (id : Bytes)

/-- What an answer to a GET tells the user it is served for: the page that is
asked for, as the network has it. -/
def GetTells : Response → Prop
  | .bare result => result=400
  | .formResponseText _ message =>
    request.target=ascii "/getId" ∧ message=ascii "Hello World! Your id = "++id
  | .formResponseJson _ body => ∃ urlStrArg json,
      URLParser request.target=.ok urlStrArg ∧ dump json=some body ∧
      (Mentions request.target (ascii "/getPostsList") ∧ Shows dialect network
          (.getPostsList id (property urlStrArg (ascii "LIMIT")) (property urlStrArg (ascii "OFFSET")))
          json ∨
        Mentions request.target (ascii "/getByIdPostsList") ∧ Shows dialect network
          (.getPostsListById (property urlStrArg (ascii "id")) id (property urlStrArg (ascii "LIMIT"))
            (property urlStrArg (ascii "OFFSET"))) json)
  | .formResponseWithBinData _ photoType binData => Mentions request.target (ascii "/getPostPhoto") ∧
      ∃ urlStrArg,URLParser request.target=.ok urlStrArg ∧ Shows dialect network
        (.getPostPhotoById (property urlStrArg (ascii "photo_id"))) (photoType,binData)
  | .formResponseError _ error => error=500
  | _ => False

/-- What an answer to a POST tells: its operation was confirmed and has made
the network, or it has failed, and if its writes are kept, it was not
confirmed. A POST that asks for nothing is a success. -/
def PostTells (scene : Scene) (after : Network) : Response → Prop
  | .formResponseOk _ =>
    match postOperation request id with
    | none => after=network
    | some (.ok operation) => after=network.replay
        (operationChanges dialect scene.circumstances scene.store.content (operationOf operation))
    | some (.error _) => False
  | .formResponseError _ error => error=500 ∧ (after=network ∨ ∃ operation,
      postOperation request id=some (.ok operation) ∧ after=network.replay
        (unconfirmed dialect scene.circumstances scene.store.content (operationOf operation)))
  | _ => False

end statements

section answers

variable {dialect : Dialect} {circumstances : Circumstances} {arrangement : Arrangement latestFirst}
  {store : Store}

variable {deployment : Deployment} {request : ClientRequest} {scene : Scene} {known : Prop}

/-- Every answer among the events tells something. -/
def Told (tells : Response → Prop) : ContentEvent → Prop
  | .responded response => tells response
  | .operation _ => True

end answers

end Photogram.ContentAnswers
