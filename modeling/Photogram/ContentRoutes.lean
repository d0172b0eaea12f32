import Photogram.ContentHandlers

/-!
# How the content server chooses an operation

The routes of a method are tried in a fixed order by searching the whole
target for their literals; only a new post is chosen by comparing the whole
target. A literal without a question mark is found in a target exactly when
it stands in the path or in the query behind it, so a query can lead a
request to every route that is tried before the one of its path.
-/

namespace Photogram.ContentRoutes

open CxxString EffectLog JsonValue QueryString FormDataParser AnotherServerConnection
open ContentConnection ContentHandlers

/-- The same request for another target. -/
def withTarget (base : ClientRequest) (target : Bytes) : ClientRequest :=
  {base with target := target}

/-- Operations of the database client without their arguments. -/
inductive OperationName where
  | getPostsList
  | getPostsListById
  | getPostPhotoById
  | addNewPost
  | delPostById
  | likeClicked
  deriving DecidableEq

/-- Name of an operation. -/
def name : DbOperation → OperationName
  | .getPostsList _ _ _ => .getPostsList
  | .getPostsListById _ _ _ _ => .getPostsListById
  | .getPostPhotoById _ => .getPostPhotoById
  | .addNewPost _ _ => .addNewPost
  | .delPostById _ _ => .delPostById
  | .likeClicked _ _ => .likeClicked

/-- Names of the operations among the events, in order. -/
def operations (events : List ContentEvent) : List OperationName :=
  events.filterMap fun
    | .operation op => some (name op)
    | .responded _ => none

/-- Routes that are searched for in the target, in the order they are tried. -/
def routes : Verb → List (Bytes×OperationName)
  | .get => [(ascii "/getPostsList",.getPostsList),(ascii "/getByIdPostsList",.getPostsListById),
      (ascii "/getPostPhoto",.getPostPhotoById)]
  | .post => [(ascii "/deletePost",.delPostById),(ascii "/likeClicked",.likeClicked)]
  | _ => []

/-- Operation of the first route a target mentions. -/
def firstRoute (method : Verb) (target : Bytes) : Option OperationName :=
  ((routes method).find? fun route => Mentions target route.1).map Prod.snd

/-- The value of a call, if it returns. -/
def returned {α : Type} : Except Failure α → Option α
  | .ok value => some value
  | .error _ => none

/-- The target is that of a new post without a query. -/
def Creates (request : ClientRequest) : Prop :=
  request.method=.post ∧ request.target=ascii "/addNewPost"

instance (request : ClientRequest) : Decidable (Creates request) :=
  inferInstanceAs (Decidable (_ ∧ _))

/-- Operation a request is served by. -/
def chosen (request : ClientRequest) : Option OperationName :=
  if Creates request then
    (returned request.form).map fun _ => .addNewPost
  else do
    let _ ← returned (URLParser request.target)
    firstRoute request.method request.target

section runs

variable {τ : Type} (services : ContentServices τ)

/-- Operations of two lists of events follow each other. -/
theorem operations_append (events others : List ContentEvent) :
    operations (events++others)=operations events++operations others := List.filterMap_append

/-- A call that only answers runs no operation. -/
theorem operations_isResponse {α : Type} {call : Call τ ContentEvent α} (h : Emits call IsResponse)
    (world : τ) : operations (call world).events=[] := by
  refine List.filterMap_eq_nil_iff.mpr fun event hmem => ?_
  have hresponse := h.events world event hmem
  cases event with
  | operation op => exact hresponse.elim
  | responded response => rfl

/-- Behind a computation one operation runs, if the computation returns. -/
theorem operations_computed {α β : Type} (result : Except Failure α) (op : α → DbOperation)
    {called : OperationName} (hname : ∀ value,name (op value)=called)
    (rest : ∀ value,(op value).Answer → Call τ ContentEvent β)
    (hrest : ∀ value answer,Emits (rest value answer) IsResponse) (world : τ) :
    operations ((do
      let value ← compute result
      let answer ← operate services (op value)
      rest value answer) world).events=((returned result).map fun _ => called).toList := by
  cases result with
  | error failure =>
    rw [compute_error_bind_run rfl]
    rfl
  | ok value =>
    rw [compute_ok_bind_run rfl]
    have hcall : Emits (act (services.operate (op value))>>=rest value) IsResponse :=
      emits_bind (emits_act _ _) (hrest value)
    have hrun : ((operate services (op value)>>=rest value) world).events=
        .operation (op value)::((act (services.operate (op value))>>=rest value) world).events := by
      unfold operate
      rw [bind_assoc,record_bind_run]
    rw [hrun]
    change name (op value)::operations ((act (services.operate (op value))>>=rest value) world).events=
      [called]
    rw [operations_isResponse hcall,hname value]

/-- Serving the target of a GET runs the operation of its first route. -/
theorem operations_getTarget {request : ClientRequest} (hmethod : request.method=.get) (id : Bytes)
    (world : τ) :
    operations (getTarget services request id world).events=(chosen request).toList := by
  have hchosen : chosen request=
      (returned (URLParser request.target)).bind fun _ => firstRoute .get request.target := by
    unfold chosen
    rw [if_neg (by simp [Creates,hmethod]),hmethod]
    rfl
  have hlist : ∀ (op : PropertyMap → DbOperation) {called : OperationName},
      (∀ urlStrArg,name (op urlStrArg)=called) →
      ∀ (json : ∀ urlStrArg,(op urlStrArg).Answer → Json),
      operations ((do
        let urlStrArg ← compute (URLParser request.target)
        let answer ← operate services (op urlStrArg)
        let body ← compute (dumpText services.dump (json urlStrArg answer))
        return Response.formResponseJson request.origin body) world).events=
          ((returned (URLParser request.target)).map fun _ => called).toList := by
    intro op called hname json
    exact operations_computed services _ op hname _
      (fun _ _ => emits_bind (emits_compute _ _) fun _ => emits_pure _ _) world
  rw [hchosen]
  unfold getTarget firstRoute routes
  by_cases hid : request.target=ascii "/getId"
  · rw [if_pos hid,hid]
    rfl
  rw [if_neg hid]
  by_cases hposts : Mentions request.target (ascii "/getPostsList")
  · rw [if_pos hposts,List.find?_cons_of_pos (by simpa using hposts)]
    refine (hlist (fun urlStrArg => .getPostsList id (property urlStrArg (ascii "LIMIT"))
      (property urlStrArg (ascii "OFFSET"))) (fun _ => rfl) fun _ json => json).trans ?_
    cases URLParser request.target <;> rfl
  rw [if_neg hposts,List.find?_cons_of_neg (by simpa using hposts)]
  by_cases hauthor : Mentions request.target (ascii "/getByIdPostsList")
  · rw [if_pos hauthor,List.find?_cons_of_pos (by simpa using hauthor)]
    refine (hlist (fun urlStrArg => .getPostsListById (property urlStrArg (ascii "id")) id
      (property urlStrArg (ascii "LIMIT")) (property urlStrArg (ascii "OFFSET"))) (fun _ => rfl)
      fun _ json => json).trans ?_
    cases URLParser request.target <;> rfl
  rw [if_neg hauthor,List.find?_cons_of_neg (by simpa using hauthor)]
  by_cases hphoto : Mentions request.target (ascii "/getPostPhoto")
  · rw [if_pos hphoto,List.find?_cons_of_pos (by simpa using hphoto)]
    refine (operations_computed services (URLParser request.target)
      (fun urlStrArg => .getPostPhotoById (property urlStrArg (ascii "photo_id"))) (fun _ => rfl)
      (fun _ photo => pure (Response.formResponseWithBinData request.origin photo.1 photo.2))
      (fun _ _ => emits_pure _ _) world).trans ?_
    cases URLParser request.target <;> rfl
  · rw [if_neg hphoto,List.find?_cons_of_neg (by simpa using hphoto)]
    cases URLParser request.target <;> rfl

/-- Serving the target of a POST runs the operation that was chosen. -/
theorem operations_postTarget {request : ClientRequest} (hmethod : request.method=.post)
    (id : Bytes) (world : τ) :
    operations (postTarget services request id world).events=(chosen request).toList := by
  unfold postTarget
  by_cases hnew : request.target=ascii "/addNewPost"
  · have hchosen : chosen request=(returned request.form).map fun _ => .addNewPost :=
      if_pos ⟨hmethod,hnew⟩
    rw [if_pos hnew,hchosen]
    have hrun := operations_computed services request.form (fun data => .addNewPost id data)
      (fun _ => rfl) (fun _ _ => (pure () : Call τ ContentEvent Unit)) (fun _ _ => emits_pure _ _)
      world
    simpa only [bind_pure_unit] using hrun
  have hchosen : chosen request=
      (returned (URLParser request.target)).bind fun _ => firstRoute .post request.target := by
    unfold chosen
    rw [if_neg fun h => hnew h.2,hmethod]
    rfl
  have hquery : ∀ (op : PropertyMap → DbOperation),
      (∀ urlStrArg,(op urlStrArg).Answer=Unit) → ∀ {called : OperationName},
      (∀ urlStrArg,name (op urlStrArg)=called) →
      operations ((do
        let urlStrArg ← compute (URLParser request.target)
        let _ ← operate services (op urlStrArg)
        return ()) world).events=((returned (URLParser request.target)).map fun _ => called).toList :=
    fun op _ _ hname => operations_computed services _ op hname
      (fun _ _ => (pure () : Call τ ContentEvent Unit)) (fun _ _ => emits_pure _ _) world
  change operations ((if request.target=ascii "/addNewPost" then _ else _ : Call τ ContentEvent Unit)
    world).events=(chosen request).toList
  rw [hchosen,if_neg hnew]
  unfold firstRoute routes
  by_cases hdelete : Mentions request.target (ascii "/deletePost")
  · rw [if_pos hdelete,List.find?_cons_of_pos (by simpa using hdelete)]
    have hrun := hquery (fun urlStrArg => .delPostById (property urlStrArg (ascii "post_id")) id)
      (fun _ => rfl) fun _ => rfl
    simp only [bind_pure_unit] at hrun
    refine hrun.trans ?_
    cases URLParser request.target <;> rfl
  rw [if_neg hdelete,List.find?_cons_of_neg (by simpa using hdelete)]
  by_cases hlike : Mentions request.target (ascii "/likeClicked")
  · rw [if_pos hlike,List.find?_cons_of_pos (by simpa using hlike)]
    have hrun := hquery (fun urlStrArg => .likeClicked (property urlStrArg (ascii "post_id")) id)
      (fun _ => rfl) fun _ => rfl
    simp only [bind_pure_unit] at hrun
    refine hrun.trans ?_
    cases URLParser request.target <;> rfl
  · rw [if_neg hlike,List.find?_cons_of_neg (by simpa using hlike)]
    cases URLParser request.target <;> rfl

/-- Answering behind a try block adds no operation to those of its body. -/
theorem operations_answered (request : ClientRequest) (target : Call τ ContentEvent Response)
    (world : τ) :
    operations ((do
      let response ← attempt target (targetError request)
      respond response) world).events=operations (target world).events := by
  have hrest : ∀ response,Emits (respond response : Call τ ContentEvent Unit) IsResponse :=
    fun response => emits_record trivial
  have hattempt : operations (attempt target (targetError request) world).events=
      operations (target world).events := by
    unfold attempt
    dsimp only
    split
    · exact (operations_append _ _).trans (List.append_nil _)
    · rfl
  cases hout : (attempt target (targetError request) world).outcome with
  | error failure =>
    rw [bind_run_error hout]
    exact hattempt
  | ok response =>
    rw [bind_run_ok hout]
    dsimp only
    rw [operations_append,hattempt,operations_isResponse (hrest response),List.append_nil]

/-- Operations of a served request: the chosen one, when the database client
can be opened. -/
theorem operations_serveTarget {request : ClientRequest}
    (hmethod : request.method=.get ∨ request.method=.post) (id : Bytes) (world : τ) :
    operations (serveTarget services request id world).events=
      if (services.connect world).1=.ok () then (chosen request).toList else [] := by
  unfold serveTarget
  rcases hmethod with hget|hpost
  · rw [hget]
    dsimp only
    split
    · next hopens =>
      rw [connect_bind_ok services hopens]
      exact (operations_answered request _ _).trans (operations_getTarget services hget id _)
    · next hopens =>
      obtain ⟨e,hraise⟩ := connect_bind_error services hopens
        fun _ => attempt (getTarget services request id) (targetError request)>>=respond
      rw [hraise]
      rfl
  · rw [hpost]
    dsimp only
    rw [operations_answered]
    split
    · next hopens =>
      rw [connect_bind_ok services hopens]
      have hlast : ∀ now : τ,operations ((do
          postTarget services request id
          return Response.formResponseOk request.origin) now).events=
            operations (postTarget services request id now).events := by
        intro now
        cases hout : (postTarget services request id now).outcome with
        | error failure => rw [bind_run_error hout]
        | ok value =>
          rw [bind_run_ok hout]
          exact (operations_append _ _).trans (List.append_nil _)
      exact (hlast _).trans (operations_postTarget services hpost id _)
    · next hopens =>
      obtain ⟨e,hraise⟩ := connect_bind_error services hopens
        fun _ => postTarget services request id>>=fun _ =>
          pure (Response.formResponseOk request.origin)
      rw [hraise]
      rfl

end runs

section choice

/-- Two searches of a list stop at the same element exactly when they agree
on every element that neither of them stops in front of. -/
theorem find?_eq_find?_iff {α : Type} {p q : α → Bool} {l : List α} :
    l.find? p=l.find? q ↔ ∀ before element after,l=before++element::after →
      (∀ earlier ∈ before,p earlier=false ∧ q earlier=false) → p element=q element := by
  induction l with
  | nil => exact iff_of_true rfl fun before _ _ h => absurd h (by simp)
  | cons head tail ih =>
    have hhead : (∀ before element after,head::tail=before++element::after →
        (∀ earlier ∈ before,p earlier=false ∧ q earlier=false) → p element=q element) ↔
        p head=q head ∧ (p head=false ∧ q head=false → ∀ before element after,
          tail=before++element::after →
          (∀ earlier ∈ before,p earlier=false ∧ q earlier=false) → p element=q element) := by
      constructor
      · intro h
        refine ⟨h [] head tail rfl (by simp),fun hnone before element after htail hbefore => ?_⟩
        refine h (head::before) element after (by rw [htail]; rfl) fun earlier hmem => ?_
        rcases List.mem_cons.mp hmem with rfl|hmem
        · exact hnone
        · exact hbefore earlier hmem
      · rintro ⟨hfirst,hrest⟩ before element after hsplit hbefore
        cases before with
        | nil =>
          cases hsplit
          exact hfirst
        | cons first before =>
          cases hsplit
          exact hrest (hbefore _ List.mem_cons_self) before element after rfl fun earlier hmem =>
            hbefore earlier (List.mem_cons_of_mem _ hmem)
    rw [hhead,←ih]
    cases hp : p head <;> cases hq : q head
    · rw [List.find?_cons_of_neg (by simp [hp]),List.find?_cons_of_neg (by simp [hq])]
      simp
    · rw [List.find?_cons_of_neg (by simp [hp]),List.find?_cons_of_pos hq]
      refine iff_of_false (fun h => ?_) (by simp)
      have hstop := List.find?_some h
      rw [hp] at hstop
      cases hstop
    · rw [List.find?_cons_of_pos hp,List.find?_cons_of_neg (by simp [hq])]
      refine iff_of_false (fun h => ?_) (by simp)
      have hstop := List.find?_some h.symm
      rw [hq] at hstop
      cases hstop
    · rw [List.find?_cons_of_pos hp,List.find?_cons_of_pos hq]
      simp

/-- A query: nothing, or a question mark and what follows. -/
def IsQuery (query : Bytes) : Prop := query=[] ∨ ∃ rest,query=63::rest

/-- A literal stands in a path or in the query behind it. -/
def StandsIn (literal path query : Bytes) : Prop := literal<:+:path ∨ literal<:+:query

/-- No route has a question mark or is empty. -/
theorem routes_plain {method : Verb} {route : Bytes×OperationName} (h : route ∈ routes method) :
    (63 : UInt8) ∉ route.1 ∧ route.1≠[] ∧ route.2≠.addNewPost := by
  cases method
  case get => revert route; decide
  case post => revert route; decide
  all_goals cases h

/-- A route is determined by its operation. -/
theorem routes_inj {method : Verb} {route other : Bytes×OperationName} (h : route ∈ routes method)
    (hother : other ∈ routes method) (heq : route.2=other.2) : route=other := by
  have hall : ∀ kind ∈ [Verb.get,Verb.post],∀ first ∈ routes kind,∀ second ∈ routes kind,
      first.2=second.2 → first=second := by decide
  cases method
  case get => exact hall .get (by simp) _ h _ hother heq
  case post => exact hall .post (by simp) _ h _ hother heq
  all_goals cases h

/-- A target mentions a route exactly when it stands in its path or its query. -/
theorem mentions_iff {method : Verb} {route : Bytes×OperationName} {path query : Bytes}
    (h : route ∈ routes method) (hquery : IsQuery query) (hs : (path++query).length ≤ maxSize) :
    Mentions (path++query) route.1 ↔ StandsIn route.1 path query := by
  obtain ⟨hquestion,hne,_⟩ := routes_plain h
  unfold Mentions StandsIn
  rw [ne_eq,find_zero_eq_npos_iff hs,not_not]
  rcases hquery with rfl|⟨rest,rfl⟩
  · rw [List.append_nil,List.infix_nil]
    exact ⟨Or.inl,fun h => h.resolve_right hne⟩
  · rw [isInfix_around hquestion hne]
    refine or_congr_right ⟨fun h => h.trans (List.suffix_cons 63 rest).isInfix,fun h => ?_⟩
    have hsplit := (isInfix_around hquestion hne (u := [])).mp h
    exact hsplit.resolve_left fun hnil => hne (List.infix_nil.mp hnil)

/-- The queries do not disturb the choice of an operation by the path: a new
post has no query in both targets or in neither; the first route that stands
in either target stands in the path or in both queries; and where one query
is well formed, so is the other. -/
structure Undisturbed (method : Verb) (path query other : Bytes) : Prop where
  /-- The path of a new post has a query in both targets or in neither. -/
  created : method=.post → path=ascii "/addNewPost" → (query=[] ↔ other=[])
  /-- The first route of either target belongs to both. -/
  routed : ∀ before route after,routes method=before++route::after →
    (∀ earlier ∈ before,
      ¬StandsIn earlier.1 path query ∧ ¬StandsIn earlier.1 path other) →
    StandsIn route.1 path query ∨ StandsIn route.1 path other →
    route.1<:+:path ∨ route.1<:+:query ∧ route.1<:+:other
  /-- Both targets are read or both are refused. -/
  readable : Returns (URLParser (path++query)) ↔ Returns (URLParser (path++other))

/-- The first routes of two targets with one path agree exactly when the
first route of either stands in the path or in both queries. -/
theorem firstRoute_eq_iff {method : Verb} {path query other : Bytes} (hquery : IsQuery query)
    (hother : IsQuery other) (hs : (path++query).length ≤ maxSize)
    (hsother : (path++other).length ≤ maxSize) :
    firstRoute method (path++query)=firstRoute method (path++other) ↔
      ∀ before route after,routes method=before++route::after →
        (∀ earlier ∈ before,
          ¬StandsIn earlier.1 path query ∧ ¬StandsIn earlier.1 path other) →
        StandsIn route.1 path query ∨ StandsIn route.1 path other →
        route.1<:+:path ∨ route.1<:+:query ∧ route.1<:+:other := by
  have hinj : firstRoute method (path++query)=firstRoute method (path++other) ↔
      (routes method).find? (fun route => Mentions (path++query) route.1)=
        (routes method).find? fun route => Mentions (path++other) route.1 := by
    refine ⟨fun h => ?_,congrArg (Option.map Prod.snd)⟩
    unfold firstRoute at h
    cases hfirst : (routes method).find? fun route => Mentions (path++query) route.1 with
    | none =>
      rw [hfirst] at h
      exact (Option.map_eq_none_iff.mp h.symm).symm
    | some route =>
      rw [hfirst] at h
      obtain ⟨second,hsecond,heq⟩ := Option.map_eq_some_iff.mp h.symm
      rw [hsecond,routes_inj (List.mem_of_find?_eq_some hfirst)
        (List.mem_of_find?_eq_some hsecond) heq.symm]
  rw [hinj,find?_eq_find?_iff]
  refine forall_congr' fun before => forall_congr' fun route => forall_congr' fun after =>
    forall_congr' fun hsplit => ?_
  have hmem : ∀ earlier ∈ before++[route],earlier ∈ routes method := by
    intro earlier h
    rw [hsplit,←List.singleton_append,←List.append_assoc]
    exact List.mem_append_left after h
  have hroute := hmem route (by simp)
  have hbefore : (∀ earlier ∈ before,decide (Mentions (path++query) earlier.1)=false ∧
        decide (Mentions (path++other) earlier.1)=false) ↔
      ∀ earlier ∈ before,¬StandsIn earlier.1 path query ∧ ¬StandsIn earlier.1 path other := by
    refine forall_congr' fun earlier => forall_congr' fun h => ?_
    have hearlier := hmem earlier (List.mem_append_left [route] h)
    rw [decide_eq_false_iff_not,decide_eq_false_iff_not,mentions_iff hearlier hquery hs,
      mentions_iff hearlier hother hsother]
  rw [hbefore]
  refine forall_congr' fun _ => ?_
  rw [decide_eq_decide,mentions_iff hroute hquery hs,mentions_iff hroute hother hsother]
  unfold StandsIn
  tauto

/-- A client is served an operation: its id is no error word, the database
client can be opened, and the target is that of a new post with a form that
is read, or mentions a route and has a query that is read. -/
structure Served {τ : Type} (services : ContentServices τ) (request : ClientRequest) (id : Bytes)
    (world : τ) : Prop where
  /-- The id is no error word. -/
  client : id ∉ [unauthorized,badRequest,internalServerError]
  /-- The database client can be opened. -/
  opens : Opens services world
  /-- The form of a new post is read. -/
  form : Creates request → Returns request.form
  /-- The query of another target is read. -/
  query : ¬Creates request → Returns (URLParser request.target)
  /-- Another target mentions a route. -/
  route : ¬Creates request → ∃ route ∈ routes request.method,Mentions request.target route.1

/-- A call has a value exactly when it returns. -/
theorem returned_isSome_iff {α : Type} (result : Except Failure α) :
    (returned result).isSome ↔ Returns result := by
  cases result with
  | error failure => exact iff_of_false (by simp [returned]) (not_returns_error _)
  | ok value => exact iff_of_true rfl (returns_ok _)

/-- An operation is chosen for a new post with a form that is read, and for
another target that mentions a route and has a query that is read. -/
theorem chosen_isSome_iff (request : ClientRequest) :
    (chosen request).isSome ↔ (Creates request → Returns request.form) ∧
      (¬Creates request → Returns (URLParser request.target) ∧
        ∃ route ∈ routes request.method,Mentions request.target route.1) := by
  unfold chosen
  by_cases hnew : Creates request
  · rw [if_pos hnew,Option.isSome_map,returned_isSome_iff]
    exact ⟨fun h => ⟨fun _ => h,fun hother => absurd hnew hother⟩,fun h => h.1 hnew⟩
  · rw [if_neg hnew]
    have hbind : (do
        let _ ← returned (URLParser request.target)
        firstRoute request.method request.target).isSome ↔
          (returned (URLParser request.target)).isSome ∧
            (firstRoute request.method request.target).isSome := by
      cases returned (URLParser request.target) <;> simp
    have hroute : (firstRoute request.method request.target).isSome ↔
        ∃ route ∈ routes request.method,Mentions request.target route.1 := by
      unfold firstRoute
      rw [Option.isSome_map,List.find?_isSome]
      simp only [decide_eq_true_eq]
    rw [hbind,returned_isSome_iff,hroute]
    exact ⟨fun h => ⟨fun hother => absurd hother hnew,fun _ => h⟩,fun h => h.2 hnew⟩

section requests

variable {τ : Type} (services : ContentServices τ)

/-- A client whose id is no error word is served its target. -/
theorem onGetId_client (request : ClientRequest) {id : Bytes}
    (h : id ∉ [unauthorized,badRequest,internalServerError]) :
    onGetId services request id=serveTarget services request id := by
  simp only [List.mem_cons,List.not_mem_nil,or_false,not_or] at h
  unfold onGetId
  rw [if_neg h.1,if_neg h.2.1,if_neg h.2.2]

/-- A client that cannot be served has no operation run for it. -/
theorem operations_unserved (request : ClientRequest)
    (hmethod : request.method=.get ∨ request.method=.post) {id : Bytes} {world : τ}
    (h : ¬Served services request id world) :
    operations (onGetId services request id world).events=[] := by
  by_cases hword : id ∈ [unauthorized,badRequest,internalServerError]
  · exact operations_isResponse (onGetId_word services request (by simpa using hword)) world
  rw [onGetId_client services request hword,operations_serveTarget services hmethod]
  split
  · next hopens =>
    have hnone : ¬(chosen request).isSome := by
      rw [chosen_isSome_iff]
      exact fun ⟨hform,hother⟩ => h ⟨hword,hopens,hform,fun hnew => (hother hnew).1,
        fun hnew => (hother hnew).2⟩
    rw [Option.not_isSome_iff_eq_none.mp hnone]
    rfl
  · rfl

/-- A served client has the chosen operation run for it. -/
theorem operations_served (request : ClientRequest)
    (hmethod : request.method=.get ∨ request.method=.post) {id : Bytes} {world : τ}
    (h : Served services request id world) :
    ∃ called,chosen request=some called ∧
      operations (onGetId services request id world).events=[called] := by
  have hsome : (chosen request).isSome := (chosen_isSome_iff request).mpr
    ⟨h.form,fun hnew => ⟨h.query hnew,h.route hnew⟩⟩
  obtain ⟨called,hcalled⟩ := Option.isSome_iff_exists.mp hsome
  refine ⟨called,hcalled,?_⟩
  have hopens : (services.connect world).1=.ok () := h.opens
  rw [onGetId_client services request h.client,operations_serveTarget services hmethod,
    if_pos hopens,hcalled]
  rfl

/-- A target with a path and a query is that of a new post exactly for its
path without a query. -/
theorem creates_iff (base : ClientRequest) (path : Bytes) {query : Bytes}
    (hquery : IsQuery query) :
    Creates (withTarget base (path++query)) ↔
      base.method=.post ∧ path=ascii "/addNewPost" ∧ query=[] := by
  refine and_congr_right fun _ => ?_
  change path++query=_ ↔ _
  rcases hquery with rfl|⟨rest,rfl⟩
  · rw [List.append_nil]
    simp
  · refine iff_of_false (fun h => ?_) (by simp)
    have hmem : (63 : UInt8) ∈ ascii "/addNewPost" := by
      rw [←h]
      simp
    exact absurd hmem (by decide)

/-- The operation of another target is never a new post. -/
theorem firstRoute_ne_addNewPost (method : Verb) (target : Bytes) :
    firstRoute method target≠some .addNewPost := by
  intro h
  obtain ⟨route,hfind,hname⟩ := Option.map_eq_some_iff.mp h
  exact (routes_plain (List.mem_of_find?_eq_some hfind)).2.2 hname

/-- The operation of another target with a query that is read is that of its
first route. -/
theorem chosen_other {request : ClientRequest} (hnew : ¬Creates request)
    (hquery : Returns (URLParser request.target)) :
    chosen request=firstRoute request.method request.target := by
  obtain ⟨urlStrArg,hreturned⟩ := hquery
  unfold chosen
  rw [if_neg hnew,hreturned]
  rfl

/-- Requests with the same chosen operation run the same operations. -/
theorem operations_congr (request other : ClientRequest)
    (hmethod : request.method=.get ∨ request.method=.post)
    (hother : other.method=.get ∨ other.method=.post) (h : chosen request=chosen other) (id : Bytes)
    (world : τ) :
    operations (onGetId services request id world).events=
      operations (onGetId services other id world).events := by
  by_cases hword : id ∈ [unauthorized,badRequest,internalServerError]
  · have hnone : ∀ some,operations (onGetId services some id world).events=[] := fun some =>
      operations_isResponse (onGetId_word services some (by simpa using hword)) world
    rw [hnone,hnone]
  · rw [onGetId_client services request hword,onGetId_client services other hword,
      operations_serveTarget services hmethod,operations_serveTarget services hother,h]

/-- Undisturbed, both targets have the same operation chosen. -/
theorem chosen_undisturbed {base : ClientRequest} {path query other : Bytes}
    (hquery : IsQuery query) (hother : IsQuery other) (hs : (path++query).length ≤ maxSize) (hsother : (path++other).length ≤ maxSize)
    (h : Undisturbed base.method path query other) :
    chosen (withTarget base (path++query))=chosen (withTarget base (path++other)) := by
  have hfirst := creates_iff base path hquery
  have hsecond := creates_iff base path hother
  by_cases hnew : Creates (withTarget base (path++query))
  · obtain ⟨hpost,hnewPath,hnone⟩ := hfirst.mp hnew
    rw [hnone,(h.created hpost hnewPath).mp hnone]
  · have hnewOther : ¬Creates (withTarget base (path++other)) := fun hcreates =>
      have ⟨hpost,hnewPath,hnone⟩ := hsecond.mp hcreates
      hnew (hfirst.mpr ⟨hpost,hnewPath,(h.created hpost hnewPath).mpr hnone⟩)
    have hroute := (firstRoute_eq_iff hquery hother hs hsother).mpr h.routed
    by_cases hread : Returns (URLParser (path++query))
    · rw [chosen_other hnew hread,chosen_other hnewOther (h.readable.mp hread)]
      exact hroute
    · have hunread : ∀ target,¬Returns (URLParser target) →
          ¬Creates (withTarget base target) → chosen (withTarget base target)=none := by
        intro target hnone hcreates
        rw [←Option.not_isSome_iff_eq_none,chosen_isSome_iff]
        exact fun hsome => hnone (hsome.2 hcreates).1
      rw [hunread _ hread hnew,hunread _ (fun hr => hread (h.readable.mpr hr)) hnewOther]

/-- Two served targets with the same chosen operation are undisturbed. -/
theorem undisturbed_of_chosen {base : ClientRequest} {path query other : Bytes}
    (hquery : IsQuery query) (hother : IsQuery other) (hs : (path++query).length ≤ maxSize) (hsother : (path++other).length ≤ maxSize) {id : Bytes}
    {world : τ} (hserved : Served services (withTarget base (path++query)) id world)
    (hservedOther : Served services (withTarget base (path++other)) id world)
    (h : chosen (withTarget base (path++query))=chosen (withTarget base (path++other))) :
    Undisturbed base.method path query other := by
  have hfirst := creates_iff base path hquery
  have hsecond := creates_iff base path hother
  have hform : ∀ {request : ClientRequest},Served services request id world → Creates request →
      chosen request=some .addNewPost := by
    intro request hserved hnew
    obtain ⟨data,hdata⟩ := hserved.form hnew
    unfold chosen
    rw [if_pos hnew,hdata]
    rfl
  by_cases hnew : Creates (withTarget base (path++query))
  · have hnewOther : Creates (withTarget base (path++other)) := by
      by_contra hnot
      rw [hform hserved hnew,chosen_other hnot (hservedOther.query hnot)] at h
      exact firstRoute_ne_addNewPost _ _ h.symm
    have hnone := (hfirst.mp hnew).2.2
    have hnoneOther := (hsecond.mp hnewOther).2.2
    subst hnone hnoneOther
    refine ⟨fun _ _ => Iff.rfl,fun before route after _ _ hstands => ?_,Iff.rfl⟩
    rcases or_self_iff.mp hstands with hin|hin
    · exact Or.inl hin
    · exact Or.inr ⟨hin,hin⟩
  · have hnewOther : ¬Creates (withTarget base (path++other)) := by
      intro hcreates
      rw [hform hservedOther hcreates,chosen_other hnew (hserved.query hnew)] at h
      exact firstRoute_ne_addNewPost _ _ h
    rw [chosen_other hnew (hserved.query hnew),chosen_other hnewOther
      (hservedOther.query hnewOther)] at h
    refine ⟨fun hpost hnewPath => ?_,(firstRoute_eq_iff hquery hother hs hsother).mp h,
      iff_of_true (hserved.query hnew) (hservedOther.query hnewOther)⟩
    exact iff_of_false (fun hnone => hnew (hfirst.mpr ⟨hpost,hnewPath,hnone⟩))
      fun hnone => hnewOther (hsecond.mpr ⟨hpost,hnewPath,hnone⟩)

/-- Two targets with one path run the same operation exactly when their
queries do not disturb its choice, or neither is served an operation. -/
theorem same_operation_iff (base : ClientRequest)
    (hmethod : base.method=.get ∨ base.method=.post) {path query other : Bytes}
    (hquery : IsQuery query) (hother : IsQuery other) (hs : (path++query).length ≤ maxSize) (hsother : (path++other).length ≤ maxSize) (id : Bytes)
    (world : τ) :
    operations (onGetId services (withTarget base (path++query)) id world).events=
        operations (onGetId services (withTarget base (path++other)) id world).events ↔
      Undisturbed base.method path query other ∨
        ¬Served services (withTarget base (path++query)) id world ∧
          ¬Served services (withTarget base (path++other)) id world := by
  constructor
  · intro heq
    by_cases hserved : Served services (withTarget base (path++query)) id world
    · obtain ⟨called,hcalled,hrun⟩ := operations_served services (withTarget base (path++query)) hmethod hserved
      have hservedOther : Served services (withTarget base (path++other)) id world := by
        by_contra hnone
        rw [hrun,operations_unserved services (withTarget base (path++other)) hmethod hnone] at heq
        cases heq
      obtain ⟨second,hcalledOther,hrunOther⟩ := operations_served services (withTarget base (path++other)) hmethod hservedOther
      rw [hrun,hrunOther] at heq
      cases heq
      exact Or.inl (undisturbed_of_chosen services hquery hother hs hsother hserved
        hservedOther (hcalled.trans hcalledOther.symm))
    · refine Or.inr ⟨hserved,fun hservedOther => ?_⟩
      obtain ⟨called,_,hrun⟩ := operations_served services (withTarget base (path++other)) hmethod hservedOther
      rw [operations_unserved services (withTarget base (path++query)) hmethod hserved,hrun] at heq
      cases heq
  · rintro (hundisturbed|⟨hunserved,hunservedOther⟩)
    · exact operations_congr services (withTarget base (path++query))
        (withTarget base (path++other)) hmethod hmethod (chosen_undisturbed hquery hother hs hsother hundisturbed) id world
    · rw [operations_unserved services (withTarget base (path++query)) hmethod hunserved,
        operations_unserved services (withTarget base (path++other)) hmethod hunservedOther]

end requests

/-- Two pages of the list of posts are read by the same operation. -/
theorem same_operation_pages :
    operations (onGetId refusingContent (withTarget (plainRequest .get [])
        (ascii "/getPostsList"++ascii "?LIMIT=5&OFFSET=0")) (ascii "7") true).events=
      operations (onGetId refusingContent (withTarget (plainRequest .get [])
        (ascii "/getPostsList"++ascii "?LIMIT=5&OFFSET=5")) (ascii "7") true).events := by
  refine (same_operation_iff refusingContent (plainRequest .get []) (Or.inl rfl)
    (Or.inr ⟨ascii "LIMIT=5&OFFSET=0",rfl⟩) (Or.inr ⟨ascii "LIMIT=5&OFFSET=5",rfl⟩)
    (by decide) (by decide) (ascii "7") true).mpr (Or.inl ⟨nofun,?_,?_⟩)
  · intro before route after hroutes hbefore _
    cases before with
    | nil =>
      cases hroutes
      exact Or.inl (by decide)
    | cons first before =>
      have hfirst : first=(ascii "/getPostsList",.getPostsList) := (List.cons.inj hroutes).1.symm
      refine absurd (Or.inl ?_) (hbefore first List.mem_cons_self).1
      rw [hfirst]
  · exact iff_of_true ⟨_,rfl⟩ ⟨_,rfl⟩

/-- A parameter turns a like into the deletion of the same post. -/
theorem like_turned_into_delete :
    operations (onGetId refusingContent
        (plainRequest .post (ascii "/likeClicked?post_id=1")) (ascii "7") true).events=
          [.likeClicked] ∧
      operations (onGetId refusingContent
        (plainRequest .post (ascii "/likeClicked?post_id=1&x=/deletePost")) (ascii "7") true).events=
          [.delPostById] :=
  ⟨by rfl,by rfl⟩

end choice

end Photogram.ContentRoutes
