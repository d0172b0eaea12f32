import Photogram.ContentConnection

/-!
# Completion handlers of the content server

An exception that leaves a completion handler ends the server. A POST opens
its database client inside the try block that serves its target; a GET opens
one in the handler of the request and once more in the callback, both outside
every try block. In front of the callback the handler of the reply reads the
id of a JSON body, and behind it it shuts its socket down.
-/

namespace Photogram.ContentHandlers

open CxxString EffectLog JsonValue QueryString FormDataParser AnotherServerConnection
open ContentConnection

section handlers

variable {τ : Type} (services : ContentServices τ)

/-- Handler of a client's request; the socket is shut down behind it. -/
def handleRead (request : ClientRequest) (shutdown : Except CxxException Unit) :
    Call τ ContentEvent Bool := do
  let started ← handleRequest services request
  raising shutdown
  return started

/-- Handler of the reply of the authentication server; its shutdown stands for
the calls of shutdown and close, which both may raise. -/
def onRead (request : ClientRequest) (reply : ServerReply) (shutdown : Except CxxException Unit) :
    Call τ ContentEvent Unit := do
  let id ← compute (verdict services.jsonParse reply)
  onGetId services request id
  -- Only behind a JSON body the socket of the inquiry is shut down.
  if reply.result=200 ∧ (services.jsonParse reply.body).isSome then raising shutdown
  else return ()

end handlers

/-- The event is an answer to the client. -/
def isResponse : ContentEvent → Bool
  | .responded _ => true
  | .operation _ => false

/-- Answers among the events, in order. -/
def responses (events : List ContentEvent) : List Response :=
  events.filterMap fun
    | .responded response => some response
    | .operation _ => none

/-- As many answers as events that are one. -/
theorem length_responses (events : List ContentEvent) :
    (responses events).length=events.countP isResponse := by
  induction events with
  | nil => rfl
  | cons event rest ih =>
    cases event with
    | responded response =>
      rw [List.countP_cons_of_pos rfl,←ih]
      rfl
    | operation op =>
      rw [List.countP_cons_of_neg (by simp [isResponse]),←ih]
      rfl

section parts

variable {τ : Type} (services : ContentServices τ)

/-- Calling an operation is attempted without an answer. -/
theorem attempts_operate (op : DbOperation) : Attempts isResponse (operate services op) 0 :=
  attempts_bind (delivers_record _).attempts fun _ => attempts_act _

/-- A JSON text is produced or an exception raised. -/
theorem defined_dumpText (value : Json) : Defined (dumpText services.dump value) := by
  unfold dumpText
  split
  · exact defined_ok _
  · exact defined_thrown _

/-- Reading the form of a request fails on a position only. -/
theorem raisesOnly_form (request : ClientRequest) : RaisesOnly .outOfRange request.form :=
  raisesOnly_getContent (Option.some_get _).symm

/-- Reading the query is attempted without an answer. -/
theorem attempts_query (target : Bytes) :
    Attempts isResponse (compute (URLParser target) : Call τ ContentEvent PropertyMap) 0 :=
  attempts_compute (raisesOnly_scanQuery _ _ _).defined

/-- A list that is answered as JSON is attempted as far as its text. -/
theorem attempts_listAnswer {list : Call τ ContentEvent Json} (origin : Bytes)
    (hlist : Attempts isResponse list 0) :
    Attempts isResponse (do
      let json ← list
      let body ← compute (dumpText services.dump json)
      return Response.formResponseJson origin body) 0 := by
  refine attempts_bind hlist fun json => ?_
  refine attempts_bind (attempts_compute (defined_dumpText services json)) fun body => ?_
  exact (delivers_pure _).attempts

/-- Serving the target of a GET is attempted without an answer. -/
theorem attempts_getTarget (request : ClientRequest) (id : Bytes) :
    Attempts isResponse (getTarget services request id) 0 := by
  unfold getTarget
  split
  · exact (delivers_pure _).attempts
  split
  · exact attempts_bind (attempts_query _) fun urlStrArg =>
      attempts_listAnswer services _ (attempts_operate services (.getPostsList _ _ _))
  split
  · exact attempts_bind (attempts_query _) fun urlStrArg =>
      attempts_listAnswer services _ (attempts_operate services (.getPostsListById _ _ _ _))
  split
  · refine attempts_bind (attempts_query _) fun urlStrArg => ?_
    exact attempts_bind (attempts_operate services _) fun photo => (delivers_pure _).attempts
  · exact (delivers_pure _).attempts

/-- So is serving the target of a POST. -/
theorem attempts_postTarget (request : ClientRequest) (id : Bytes) :
    Attempts isResponse (postTarget services request id) 0 := by
  unfold postTarget
  split
  · exact attempts_bind (attempts_compute (raisesOnly_form request).defined) fun data =>
      attempts_operate services (.addNewPost id data)
  split
  · exact attempts_bind (attempts_query _) fun urlStrArg =>
      attempts_operate services (.delPostById _ id)
  split
  · exact attempts_bind (attempts_query _) fun urlStrArg =>
      attempts_operate services (.likeClicked _ id)
  · exact (delivers_pure _).attempts

/-- Sending an answer sends one. -/
theorem delivers_respond (response : Response) :
    Delivers isResponse (respond response : Call τ ContentEvent Unit) 1 := delivers_record _

/-- An attempted target is answered once, with an error if it raises. -/
theorem delivers_answered (request : ClientRequest) {target : Call τ ContentEvent Response}
    (h : Attempts isResponse target 0) :
    Delivers isResponse (do
      let response ← attempt target (targetError request)
      respond response) 1 :=
  delivers_bind (delivers_attempt h fun _ => delivers_pure _) delivers_respond

/-- A POST is answered once, whatever its operations do. -/
theorem delivers_serveTarget_post {request : ClientRequest} (hmethod : request.method=.post)
    (id : Bytes) : Delivers isResponse (serveTarget services request id) 1 := by
  unfold serveTarget
  rw [hmethod]
  refine delivers_answered request ?_
  refine attempts_bind (attempts_act _) fun _ => ?_
  exact attempts_bind (attempts_postTarget services request id) fun _ => (delivers_pure _).attempts

end parts

section opening

variable {τ : Type} (services : ContentServices τ)

/-- The database client can be opened in a world. -/
def Opens (world : τ) : Prop := (services.connect world).1=.ok ()

/-- What follows a client that cannot be opened does not run. -/
theorem connect_bind_error {α : Type} {world : τ} (h : ¬Opens services world)
    (rest : Unit → Call τ ContentEvent α) :
    ∃ e,(act services.connect>>=rest) world=
      ⟨.error (.thrown e),(services.connect world).2,[]⟩ := by
  cases hconnect : (services.connect world).1 with
  | ok value => exact absurd hconnect h
  | error e =>
    have hout : (act services.connect world : Ran τ ContentEvent Unit).outcome=
        .error (.thrown e) := congrArg (Except.mapError Failure.thrown) hconnect
    exact ⟨e,bind_run_error hout⟩

/-- What follows an opened client runs in the world the opening left. -/
theorem connect_bind_ok {α : Type} {world : τ} (h : Opens services world)
    (rest : Unit → Call τ ContentEvent α) :
    (act services.connect>>=rest) world=rest () (services.connect world).2 := by
  have hout : (act services.connect world : Ran τ ContentEvent Unit).outcome=.ok () :=
    congrArg (Except.mapError Failure.thrown) h
  rw [bind_run_ok hout]
  rfl

/-- A GET is answered once when its client can be opened; else it raises. -/
theorem serveTarget_get_iff {request : ClientRequest} (hmethod : request.method=.get) (id : Bytes)
    (world : τ) :
    (Returns (serveTarget services request id world).outcome ∧
        (serveTarget services request id world).events.countP isResponse=1) ↔
      Opens services world := by
  unfold serveTarget
  rw [hmethod]
  dsimp only
  by_cases hopens : Opens services world
  · rw [connect_bind_ok services hopens]
    refine iff_of_true ?_ hopens
    exact delivers_answered request (attempts_getTarget services request id) _
  · obtain ⟨e,hraise⟩ := connect_bind_error services hopens
      fun _ => attempt (getTarget services request id) (targetError request)>>=respond
    rw [hraise]
    exact iff_of_false (fun h => not_returns_error _ h.1) hopens

/-- Shutting a socket down raises what the operation raises. -/
theorem raising_run (shutdown : Except CxxException Unit) (world : τ) :
    (Returns (raising shutdown world : Ran τ ContentEvent Unit).outcome ↔ shutdown=.ok ()) ∧
      (raising shutdown world : Ran τ ContentEvent Unit).events=[] := by
  cases shutdown with
  | error e => exact ⟨iff_of_false (not_returns_error _) (by simp),rfl⟩
  | ok value => exact ⟨iff_of_true ⟨(),rfl⟩ rfl,rfl⟩

/-- The handler of a request returns when a GET finds its client opened and
the socket is shut down; it does not answer the client. -/
theorem handleRead_iff {request : ClientRequest}
    (hmethod : request.method=.get ∨ request.method=.post) (shutdown : Except CxxException Unit)
    (world : τ) :
    (Returns (handleRead services request shutdown world).outcome ↔
        (request.method=.get → Opens services world) ∧ shutdown=.ok ()) ∧
      (handleRead services request shutdown world).events=[] := by
  have hbehind : ∀ now : τ,
      (Returns ((raising shutdown>>=fun _ => pure true : Call τ ContentEvent Bool) now).outcome ↔
          shutdown=.ok ()) ∧
        ((raising shutdown>>=fun _ => pure true : Call τ ContentEvent Bool) now).events=[] := by
    intro now
    cases shutdown with
    | error e => exact ⟨iff_of_false (not_returns_error _) (by simp),rfl⟩
    | ok value => exact ⟨iff_of_true ⟨true,rfl⟩ rfl,rfl⟩
  unfold handleRead handleRequest
  rcases hmethod with hget|hpost
  · rw [hget]
    dsimp only
    rw [bind_assoc]
    by_cases hopens : Opens services world
    · rw [connect_bind_ok services hopens,pure_bind]
      exact ⟨(hbehind _).1.trans ⟨fun h => ⟨fun _ => hopens,h⟩,fun h => h.2⟩,(hbehind _).2⟩
    · obtain ⟨e,hraise⟩ := connect_bind_error services hopens
        fun _ => (pure true : Call τ ContentEvent Bool)>>=fun started =>
          raising shutdown>>=fun _ => pure started
      rw [hraise]
      exact ⟨iff_of_false (not_returns_error _) fun h => hopens (h.1 rfl),rfl⟩
  · rw [hpost]
    dsimp only
    rw [pure_bind]
    exact ⟨(hbehind _).1.trans ⟨fun h => ⟨nofun,h⟩,fun h => h.2⟩,(hbehind _).2⟩

/-- The reply names a client: a JSON object of status 200 whose id is not one
of the error words. -/
def Names (reply : ServerReply) : Prop :=
  reply.result=200 ∧ ∃ members text,services.jsonParse reply.body=some (.object members) ∧
    members.lookup (ascii "id")=some (.string text) ∧
    cString text ∉ [unauthorized,badRequest,internalServerError]

/-- An answering reply names a client exactly when its verdict is no error word. -/
theorem verdict_word_iff {reply : ServerReply} {id : Bytes}
    (h : verdict services.jsonParse reply=.ok id) :
    id ∉ [unauthorized,badRequest,internalServerError] ↔ Names services reply := by
  unfold verdict at h
  unfold Names
  split at h
  · next hresult =>
    split at h
    · next jsonBody hjson =>
      obtain ⟨members,text,rfl,hlookup⟩ := (returns_idMember_iff jsonBody).mp ⟨id,h⟩
      have hid : id=cString text := by
        unfold idMember Json.at at h
        dsimp only at h
        rw [hlookup] at h
        cases h
        rfl
      rw [hid]
      constructor
      · exact fun hword => ⟨hresult,members,text,hjson,hlookup,hword⟩
      · rintro ⟨_,others,other,hother,hname,hword⟩
        rw [hjson] at hother
        cases hother
        rw [hlookup] at hname
        cases hname
        exact hword
    · next hnone =>
      cases h
      refine iff_of_false (by simp) ?_
      rintro ⟨_,members,text,hjson,_⟩
      rw [hnone] at hjson
      cases hjson
  · next hresult =>
    refine iff_of_false (not_not.mpr ?_) fun hnames => hresult hnames.1
    split at h
    · cases h
      simp
    split at h <;> cases h <;> simp

/-- The callback answers an error word once, and a client unless its GET
cannot open the database client. -/
theorem onGetId_iff {request : ClientRequest}
    (hmethod : request.method=.get ∨ request.method=.post) (id : Bytes) (world : τ) :
    (Returns (onGetId services request id world).outcome ∧
        (onGetId services request id world).events.countP isResponse=1) ↔
      (request.method=.get → id ∉ [unauthorized,badRequest,internalServerError] →
        Opens services world) := by
  unfold onGetId
  split
  · next hword =>
    exact iff_of_true (delivers_respond _ world) fun _ hnone => absurd hword (by simp_all)
  split
  · next hword =>
    exact iff_of_true (delivers_respond _ world) fun _ hnone => absurd hword (by simp_all)
  split
  · next hword =>
    exact iff_of_true (delivers_respond _ world) fun _ hnone => absurd hword (by simp_all)
  · next hunauthorized hbadRequest hinternal =>
    have hword : id ∉ [unauthorized,badRequest,internalServerError] := by
      simp [hunauthorized,hbadRequest,hinternal]
    rcases hmethod with hget|hpost
    · rw [serveTarget_get_iff services hget]
      exact ⟨fun h _ _ => h,fun h => h hget hword⟩
    · refine iff_of_true (delivers_serveTarget_post services hpost id world) fun hget => ?_
      rw [hpost] at hget
      cases hget

/-- No handler meets an exception: a GET opens its database client in the
world its request finds and, when the reply names a client, once more in the
world the reply finds; the reply leads to a verdict; and both shutdowns of
sockets succeed where they are made. -/
structure Survives (request : ClientRequest) (reply : ServerReply)
    (receiving inquiring : Except CxxException Unit) (found replied : τ) : Prop where
  /-- A GET opens its client before the inquiry. -/
  opens : request.method=.get → Opens services found
  /-- The client's socket is shut down for receiving. -/
  received : receiving=.ok ()
  /-- The reply leads to a verdict. -/
  answers : Answers services.jsonParse reply
  /-- A GET opens its client again for a named client. -/
  reopens : request.method=.get → Names services reply → Opens services replied
  /-- Behind a JSON body the socket of the inquiry is shut down. -/
  inquired : reply.result=200 ∧ (services.jsonParse reply.body).isSome → inquiring=.ok ()

/-- The handler of the reply returns after one answer exactly when the
verdict is reached, the client is opened where it is needed and the socket
is shut down where it is. -/
theorem onRead_iff {request : ClientRequest}
    (hmethod : request.method=.get ∨ request.method=.post) (reply : ServerReply)
    (shutdown : Except CxxException Unit) (world : τ) :
    (Returns (onRead services request reply shutdown world).outcome ∧
        (onRead services request reply shutdown world).events.countP isResponse=1) ↔
      Answers services.jsonParse reply ∧
        (request.method=.get → Names services reply → Opens services world) ∧
        (reply.result=200 ∧ (services.jsonParse reply.body).isSome → shutdown=.ok ()) := by
  have hanswers := returns_verdict_iff services.jsonParse reply
  unfold onRead
  cases hverdict : verdict services.jsonParse reply with
  | error failure =>
    rw [hverdict] at hanswers
    rw [compute_error_bind_run rfl]
    exact iff_of_false (fun h => not_returns_error _ h.1) fun h =>
      not_returns_error _ (hanswers.mpr h.1)
  | ok id =>
    rw [hverdict] at hanswers
    rw [compute_ok_bind_run rfl,←verdict_word_iff services hverdict]
    have hcallback := onGetId_iff services hmethod id world
    have hclosing : ∀ now : τ,
        (Returns ((if reply.result=200 ∧ (services.jsonParse reply.body).isSome then
              raising shutdown else return () : Call τ ContentEvent Unit) now).outcome ↔
            (reply.result=200 ∧ (services.jsonParse reply.body).isSome → shutdown=.ok ())) ∧
          ((if reply.result=200 ∧ (services.jsonParse reply.body).isSome then
              raising shutdown else return () : Call τ ContentEvent Unit) now).events=[] := by
      intro now
      split
      · next hjson =>
        obtain ⟨hreturn,hnone⟩ := raising_run shutdown now
        exact ⟨hreturn.trans ⟨fun h _ => h,fun h => h hjson⟩,hnone⟩
      · next hjson => exact ⟨iff_of_true ⟨(),rfl⟩ fun h => absurd h hjson,rfl⟩
    cases hout : (onGetId services request id world).outcome with
    | error failure =>
      rw [bind_run_error hout]
      rw [hout] at hcallback
      exact iff_of_false (fun h => not_returns_error _ h.1) fun h =>
        not_returns_error _ (hcallback.mpr h.2.1).1
    | ok value =>
      rw [bind_run_ok hout]
      rw [hout] at hcallback
      dsimp only
      obtain ⟨hreturn,hnone⟩ := hclosing (onGetId services request id world).world
      rw [hnone,List.append_nil,hreturn]
      exact ⟨fun h => ⟨hanswers.mp (returns_ok _),hcallback.mp ⟨returns_ok _,h.2⟩,h.1⟩,
        fun h => ⟨h.2.2,(hcallback.mpr h.2.1).2⟩⟩

/-- The handlers of a GET or POST and of its reply return after one answer
to the client exactly when none of them meets an exception. -/
theorem handlers_one_response_iff {request : ClientRequest}
    (hmethod : request.method=.get ∨ request.method=.post) (reply : ServerReply)
    (receiving inquiring : Except CxxException Unit) (found replied : τ) :
    (Returns (handleRead services request receiving found).outcome ∧
        Returns (onRead services request reply inquiring replied).outcome ∧
        (responses ((handleRead services request receiving found).events++
          (onRead services request reply inquiring replied).events)).length=1) ↔
      Survives services request reply receiving inquiring found replied := by
  obtain ⟨hread,hnone⟩ := handleRead_iff services hmethod receiving found
  have hreply := onRead_iff services hmethod reply inquiring replied
  rw [length_responses,hnone,List.nil_append,hread,hreply]
  constructor
  · rintro ⟨⟨hopens,hreceived⟩,hanswers,hreopens,hinquired⟩
    exact ⟨hopens,hreceived,hanswers,hreopens,hinquired⟩
  · intro h
    exact ⟨⟨h.opens,h.received⟩,h.answers,h.reopens,h.inquired⟩

end opening

section requests

/-- A database that can be opened but answers nothing, by its world. -/
def refusingContent : ContentServices Bool where
  jsonParse := parsePlain
  dump := dumpPlain
  connect := fun up => (if up then .ok () else .error (.runtimeError "Can't open db"),up)
  operate := fun _ up => (.error (.runtimeError "500"),up)

/-- A request of a method for a target. -/
def plainRequest (method : Verb) (target : Bytes) : ClientRequest where
  method := method
  target := target
  origin := ascii "o"
  authorization := ⟨ascii "Bearer t",by decide,by decide⟩
  contentType := ⟨[],by decide⟩
  body := ⟨[],by decide⟩

/-- The reply that names user 7. -/
def namingReply : ServerReply := ⟨200,ascii "\x7b\"id\":\"7\"\x7d"⟩

/-- A like whose database client cannot be opened is answered once. -/
theorem one_response_like :
    Returns (handleRead refusingContent (plainRequest .post (ascii "/likeClicked")) (.ok ())
        false).outcome ∧
      Returns (onRead refusingContent (plainRequest .post (ascii "/likeClicked")) namingReply
        (.ok ()) false).outcome ∧
      (responses ((handleRead refusingContent (plainRequest .post (ascii "/likeClicked")) (.ok ())
          false).events++
        (onRead refusingContent (plainRequest .post (ascii "/likeClicked")) namingReply (.ok ())
          false).events)).length=1 :=
  (handlers_one_response_iff refusingContent (Or.inr rfl) namingReply (.ok ()) (.ok ()) false
    false).mpr ⟨nofun,rfl,fun _ _ hjson =>
      ⟨[(ascii "id",.string (ascii "7"))],ascii "7",(Option.some.inj hjson).symm,rfl⟩,nofun,
      fun _ => rfl⟩

/-- A GET whose database client cannot be opened raises out of the handler
of its request, out of the callback when only that opening fails, and a
reply without an id raises out of its handler for a POST as well. -/
theorem handlers_raise :
    (handleRead refusingContent (plainRequest .get (ascii "/getId")) (.ok ()) false).outcome=
        .error (.thrown (.runtimeError "Can't open db")) ∧
      (onRead refusingContent (plainRequest .get (ascii "/getId")) namingReply (.ok ())
        false).outcome=.error (.thrown (.runtimeError "Can't open db")) ∧
      (onRead refusingContent (plainRequest .post (ascii "/likeClicked"))
        ⟨200,ascii "\x7b\"a\":\"7\"\x7d"⟩ (.ok ()) true).outcome=
          .error (.thrown .outOfRange) :=
  ⟨by rfl,by rfl,by rfl⟩

end requests

end Photogram.ContentHandlers
