import Photogram.AuthReplies

/-!
# What recv may return

The loop keeps the answer of recv in a size word. Zero ends it; minus one is
the largest word, which passes for a count of bytes that no string can grow by,
so that append raises and the socket stays open. Every other way out of the
loop but through its condition is an exception of the parser or of the one
conversion that stands outside the try blocks.
-/

namespace Photogram.AuthSocket

open CxxString EffectLog AuthHttpParser AuthConnection AuthReceive AuthReplies

/-- What recv answers. -/
def answer : RecvResult → ℤ
  | .data received => received.length
  | .closed => 0
  | .socketError => -1

/-- What recv left in the buffer. -/
def buffer : RecvResult → Bytes
  | .data received => received
  | _ => []

/-- A call of recv with a buffer of 2048 bytes answers no other way. -/
def Possible : RecvResult → Prop
  | .data received => 0<received.length ∧ received.length ≤ 2048
  | _ => True

/-- The variable the loop keeps the answer in. -/
def bytesRead (result : RecvResult) : ℕ := sizeOfInt (answer result)

/-- Append the first bytes of a buffer; a string beyond its greatest length raises. -/
def appendCount (request buffer : Bytes) (count : ℕ) : Except Failure Bytes :=
  if request.length+count ≤ maxSize then .ok (request++buffer.take count)
  else .error (.thrown .lengthError)

variable {σ : Type} (services : Services σ)

/-- The receive loop as it is written: the condition is on the size word, and
as many bytes of the buffer are appended. -/
def receiveLoop : Bytes → List (σ×RecvResult) → Handler σ Bytes
  | request,[] => return request
  | request,(world,result)::rest =>
    if 0<bytesRead result then do
      let request ← inWorld world (do
        let request ← compute (appendCount request (buffer result) (bytesRead result))
        serveBuffer services request)
      receiveLoop request rest
    else do
      record .socketClosed
      return request

/-- Texts the loop appends. -/
def appended : Bytes → List (σ×RecvResult) → List Bytes
  | _,[] => []
  | request,(world,result)::rest =>
    if 0<bytesRead result then
      match appendCount request (buffer result) (bytesRead result) with
      | .error _ => []
      | .ok grown => grown.drop request.length::
        match (serveBuffer services grown world).outcome with
        | .error _ => []
        | .ok next => appended next rest
    else []

/-- Bytes received in front of the end of the connection. -/
def receivedBefore : List (σ×RecvResult) → List Bytes
  | (_,.data received)::rest => received::receivedBefore rest
  | _ => []

/-- The connection has ended. -/
def isEnded (results : List (σ×RecvResult)) : Bool :=
  results.any fun result => result.2=.closed || result.2=.socketError

/-- The event is the closing of the socket. -/
def isClosed : Event → Bool
  | .socketClosed => true
  | _ => false

/-- The loop appends what is received and nothing else, raises nothing, and
closes the socket once, behind everything else, when the connection ends. -/
structure EndsOrderly (request : Bytes) (results : List (σ×RecvResult)) (world : σ) : Prop where
  /-- No exception, and nothing undefined. -/
  returns : Returns (receiveLoop services request results world).outcome
  /-- Received bytes are appended. -/
  appended : appended services request results=receivedBefore results
  /-- The socket is closed once. -/
  closed : (receiveLoop services request results world).events.countP isClosed=
    if isEnded results then 1 else 0
  /-- Nothing happens behind that. -/
  last : isEnded results=true →
    (receiveLoop services request results world).events.getLast?=some .socketClosed

/-- The loop body returns on a text: the parser does, and a password it is
sent is a JSON string. -/
def Serves (text : Bytes) : Prop :=
  Returns (parse services.setting text) ∧
    ∀ postInfo,parse services.setting text=.ok (.success,.post postInfo) → ¬NoPasswordText postInfo

/-- Nothing drives the loop out through an exception: no error of recv in
front of the end, and texts that stay within the greatest length and are served. -/
def Survives : Bytes → List (σ×RecvResult) → Prop
  | _,[] => True
  | _,(_,.closed)::_ => True
  | _,(_,.socketError)::_ => False
  | request,(world,.data received)::rest =>
    (request++received).length ≤ maxSize ∧ Serves services (request++received) ∧
      ∀ next,(serveBuffer services (request++received) world).outcome=.ok next → Survives next rest

section words

/-- A count of bytes keeps its value in a size word. -/
theorem bytesRead_data {received : Bytes} (h : Possible (.data received)) :
    bytesRead (.data received)=received.length :=
  sizeOfInt_natCast (h.2.trans_lt (by decide))

/-- The end of the connection is zero. -/
theorem bytesRead_closed : bytesRead .closed=0 := by decide

/-- An error is the largest word. -/
theorem bytesRead_socketError : bytesRead .socketError=npos := by decide

/-- Appending all received bytes appends them. -/
theorem appendCount_data (request received : Bytes) :
    appendCount request received received.length=append request received := by
  unfold appendCount append
  rw [List.take_length,List.length_append]

/-- No string grows by the largest word. -/
theorem appendCount_npos (request buffer : Bytes) :
    appendCount request buffer npos=.error (.thrown .lengthError) := by
  have hm := maxSize_lt_npos
  exact if_neg (by omega)

end words

section served

/-- The event leaves the socket open. -/
def LeavesOpen (event : Event) : Prop := isClosed event=false

/-- Dispatching leaves the socket open. -/
theorem emits_dispatch (info : HttpTypesInfo) : Emits (dispatch services info) LeavesOpen := by
  intro world _
  refine ⟨fun event hmem => ?_,fun _ _ => trivial⟩
  have hfree : ∀ event ∈ (dispatch services info world).events,¬isClosed event=true :=
    dispatch_free services ?_ ?_ ?_ info world
  · exact Bool.eq_false_iff.mpr (hfree event hmem)
  · intro subject event h
    cases event <;> simp_all [AuthDispatch.Behind,isClosed]
  · intro event h
    cases event <;> simp_all [AuthDispatch.IsSent,isClosed]
  · exact fun _ _ => Bool.false_ne_true

/-- Serving a text leaves the socket open. -/
theorem emits_serveBuffer (text : Bytes) : Emits (serveBuffer services text) LeavesOpen := by
  refine emits_bind (emits_compute _ _) fun verdict => ?_
  split
  · exact emits_bind (emits_record rfl) fun _ => emits_pure _ _
  · exact emits_bind (emits_record rfl) fun _ => emits_pure _ _
  · exact emits_bind (emits_record rfl) fun _ => emits_pure _ _
  · exact emits_bind (emits_record rfl) fun _ =>
      emits_bind (emits_dispatch services verdict.2) fun _ => emits_pure _ _

/-- Serving a text does not close the socket. -/
theorem countP_isClosed_serveBuffer (text : Bytes) (world : σ) :
    (serveBuffer services text world).events.countP isClosed=0 := by
  rw [List.countP_eq_zero]
  intro event hmem
  exact Bool.eq_false_iff.mp ((emits_serveBuffer services text).events world event hmem)

/-- Serving a text returns exactly when the text is served. -/
theorem returns_serveBuffer_iff (hdump : DumpsErrors services.dump) {text : Bytes}
    (htext : text.length ≤ maxSize) (world : σ) :
    Returns (serveBuffer services text world).outcome ↔ Serves services text := by
  unfold Serves
  cases hparse : parse services.setting text with
  | error failure =>
    refine iff_of_false ?_ fun h => not_returns_error _ h.1
    unfold serveBuffer
    rw [compute_error_bind_run hparse]
    exact not_returns_error _
  | ok verdict =>
    obtain ⟨status,info⟩ := verdict
    rw [and_iff_right (returns_ok _)]
    cases status with
    | notFullReq =>
      rw [serveBuffer_notFullReq services world hparse]
      exact iff_of_true (returns_ok _) fun _ h => nomatch h
    | badHttp =>
      rw [serveBuffer_badHttp services world hparse]
      exact iff_of_true (returns_ok _) fun _ h => nomatch h
    | notSupportType =>
      unfold serveBuffer
      rw [compute_ok_bind_run hparse]
      exact iff_of_true (returns_ok _) fun _ h => nomatch h
    | success =>
      rw [serveBuffer_success services world hparse]
      have hpost : (∀ postInfo,Except.ok (ε:=Failure) (EStatus.success,info)=
          .ok (.success,.post postInfo) → ¬NoPasswordText postInfo) ↔
            ∀ postInfo,info=.post postInfo → ¬NoPasswordText postInfo := by
        simp only [Except.ok.injEq,Prod.mk.injEq,true_and]
      rw [hpost]
      constructor
      · rintro hreturns _ rfl hpassword
        exact not_returns_dispatch services hpassword world
          ((returns_exceptMap_iff _ _).mp hreturns)
      · intro h
        obtain ⟨size,hcarries⟩ := parse_carries htext hparse
        obtain ⟨⟨exit,hexit⟩,_⟩ := delivers_dispatch services hdump hcarries h world
        rw [hexit]
        exact ⟨_,rfl⟩

end served

section runs

variable {services} {request received : Bytes} {now : σ} {rest : List (σ×RecvResult)}

/-- Behind received bytes the loop takes a turn. -/
theorem receiveLoop_data (hpossible : Possible (.data received)) :
    receiveLoop services request ((now,.data received)::rest)=
      (inWorld now (turn services request received)>>=fun next => receiveLoop services next rest) := by
  have hcount := bytesRead_data hpossible
  rw [receiveLoop,hcount,if_pos hpossible.1]
  change (inWorld now (compute (appendCount request received received.length)>>=_)>>=_)=_
  rw [appendCount_data]
  rfl

/-- Bytes that fit are appended, and the rest follows when the text is served. -/
theorem appended_data (services : Services σ) (now : σ) (rest : List (σ×RecvResult))
    (hpossible : Possible (.data received))
    (hsize : (request++received).length ≤ maxSize) :
    appended services request ((now,.data received)::rest)=
      received::match (serveBuffer services (request++received) now).outcome with
        | .error _ => []
        | .ok next => appended services next rest := by
  have hcount := bytesRead_data hpossible
  have happend : appendCount request received received.length=.ok (request++received) := by
    rw [appendCount_data]
    exact if_pos hsize
  rw [appended,hcount,if_pos hpossible.1]
  change (match appendCount request received received.length with
    | .error _ => []
    | .ok grown => _)=_
  rw [happend]
  dsimp only
  rw [List.drop_left]

/-- The loop over possible results is the one the other results are about. -/
theorem receiveLoop_eq_runLoop {results : List (σ×RecvResult)}
    (hpossible : ∀ result ∈ results,Possible result.2) (request : Bytes) :
    receiveLoop services request results=runLoop services request results := by
  induction results generalizing request with
  | nil => rfl
  | cons result rest ih =>
    obtain ⟨now,result⟩ := result
    have hfirst : Possible result := hpossible (now,result) List.mem_cons_self
    have hrest := ih fun result hmem => hpossible result (List.mem_cons_of_mem _ hmem)
    cases result with
    | closed =>
      rw [receiveLoop,bytesRead_closed,if_neg (Nat.lt_irrefl 0)]
      rfl
    | socketError =>
      have hraise : appendCount request (buffer .socketError) npos=.error (.thrown .lengthError) :=
        appendCount_npos request _
      have hpositive : 0<npos := by decide
      rw [receiveLoop,bytesRead_socketError,if_pos hpositive,hraise]
      rfl
    | data received =>
      rw [receiveLoop_data hfirst]
      exact bind_congr hrest

/-- A turn that fails drives the loop out. -/
theorem not_endsOrderly (hpossible : ∀ result ∈ (now,.data received)::rest,Possible result.2)
    {failure : Failure} (hturn : (turn services request received now).outcome=.error failure)
    (world : σ) : ¬EndsOrderly services request ((now,.data received)::rest) world := by
  intro h
  have hreturns := h.returns
  rw [receiveLoop_eq_runLoop hpossible,runLoop_data_error services rest world hturn] at hreturns
  exact not_returns_error _ hreturns

/-- Bytes that do not fit raise. -/
theorem turn_full (hsize : ¬(request++received).length ≤ maxSize) (world : σ) :
    (turn services request received world).outcome=.error (.thrown .lengthError) :=
  congrArg Ran.outcome (compute_error_bind_run (if_neg hsize) _ world)

/-- Behind a text that is served the loop ends orderly when its rest does. -/
theorem endsOrderly_data (hpossible : ∀ result ∈ (now,.data received)::rest,Possible result.2)
    (hsize : (request++received).length ≤ maxSize) {next : Bytes}
    (hnext : (serveBuffer services (request++received) now).outcome=.ok next) (world : σ) :
    EndsOrderly services request ((now,.data received)::rest) world ↔
      EndsOrderly services next rest (serveBuffer services (request++received) now).world := by
  have hrest : ∀ result ∈ rest,Possible result.2 := fun result hmem =>
    hpossible result (List.mem_cons_of_mem _ hmem)
  have hopen := countP_isClosed_serveBuffer services (request++received) now
  have hended : isEnded ((now,RecvResult.data received)::rest)=isEnded rest := rfl
  have happended := appended_data services now rest (hpossible _ List.mem_cons_self) hsize
  rw [hnext] at happended
  have hturn : turn services request received=serveBuffer services (request++received) :=
    turn_eq services hsize
  have hrun := runLoop_data_ok services rest world (by rw [hturn]; exact hnext)
  rw [hturn,←receiveLoop_eq_runLoop hpossible,←receiveLoop_eq_runLoop hrest] at hrun
  constructor
  · rintro ⟨hreturns,hbytes,hclosed,hlast⟩
    rw [hrun] at hreturns hclosed hlast
    rw [happended] at hbytes
    dsimp only at hreturns hclosed hlast
    rw [List.countP_append,hopen,Nat.zero_add,hended] at hclosed
    refine ⟨hreturns,(List.cons.inj hbytes).2,hclosed,fun hend => ?_⟩
    have hlastEvent := hlast (hended.trans hend)
    rw [hend,if_pos rfl] at hclosed
    rw [List.getLast?_append] at hlastEvent
    cases hevents : (receiveLoop services next rest
        (serveBuffer services (request++received) now).world).events.getLast? with
    | some event =>
      rw [hevents] at hlastEvent
      exact hlastEvent
    | none =>
      rw [List.getLast?_eq_none_iff.mp hevents] at hclosed
      cases hclosed
  · rintro ⟨hreturns,hbytes,hclosed,hlast⟩
    refine ⟨?_,?_,?_,fun hend => ?_⟩
    · rw [hrun]
      exact hreturns
    · rw [happended]
      exact congrArg (received::·) hbytes
    · rw [hrun]
      dsimp only
      rw [List.countP_append,hopen,Nat.zero_add,hended]
      exact hclosed
    · rw [hrun]
      dsimp only
      rw [List.getLast?_append,hlast (hended.symm.trans hend)]
      rfl

/-- The loop ends orderly exactly when nothing drives it out: then it appends
what it receives and nothing else, and closes the socket once at the end. -/
theorem endsOrderly_iff (hdump : DumpsErrors services.dump) {results : List (σ×RecvResult)}
    (hpossible : ∀ result ∈ results,Possible result.2) (request : Bytes) (world : σ) :
    EndsOrderly services request results world ↔ Survives services request results := by
  induction results generalizing request world with
  | nil => exact iff_of_true ⟨⟨request,rfl⟩,rfl,rfl,nofun⟩ trivial
  | cons result rest ih =>
    obtain ⟨now,result⟩ := result
    have hrest : ∀ result ∈ rest,Possible result.2 := fun result hmem =>
      hpossible result (List.mem_cons_of_mem _ hmem)
    have hfirst : Possible result := hpossible (now,result) List.mem_cons_self
    cases result with
    | closed =>
      have hrun : receiveLoop services request ((now,.closed)::rest) world=
          ⟨.ok request,world,[.socketClosed]⟩ := by
        rw [receiveLoop,bytesRead_closed,if_neg (Nat.lt_irrefl 0)]
        rfl
      have happended : appended services request ((now,.closed)::rest)=[] := by
        rw [appended,bytesRead_closed,if_neg (Nat.lt_irrefl 0)]
      refine iff_of_true ⟨?_,happended,?_,fun _ => ?_⟩ trivial
      · rw [hrun]
        exact returns_ok _
      · rw [hrun]
        rfl
      · rw [hrun]
        rfl
    | socketError =>
      refine iff_of_false (fun h => ?_) fun h => h
      have hreturns := h.returns
      rw [receiveLoop_eq_runLoop hpossible] at hreturns
      exact not_returns_error _ hreturns
    | data received =>
      unfold Survives
      by_cases hsize : (request++received).length ≤ maxSize
      swap
      · exact iff_of_false (not_endsOrderly hpossible (turn_full hsize now) world) fun h => hsize h.1
      have hserves := returns_serveBuffer_iff services hdump hsize now
      cases hserved : (serveBuffer services (request++received) now).outcome with
      | error failure =>
        rw [hserved] at hserves
        have hturn : (turn services request received now).outcome=.error failure := by
          rw [turn_eq services hsize]
          exact hserved
        exact iff_of_false (not_endsOrderly hpossible hturn world) fun h =>
          not_returns_error _ (hserves.mpr h.2.1)
      | ok next =>
        rw [endsOrderly_data hpossible hsize hserved,ih hrest]
        rw [hserved] at hserves
        simp only [hsize,hserves.mp (returns_ok _),true_and,Except.ok.injEq,forall_eq']

end runs

section reset

/-- The OPTIONS request and then an end in order. -/
theorem endsOrderly_options :
    EndsOrderly keyless [] [((),.data optionsRequest),((),.closed)] () := by
  refine (endsOrderly_iff dumpsErrors_keyless ?_ [] ()).mpr ⟨by decide +kernel,⟨?_,?_⟩,?_⟩
  · intro result hmem
    rcases List.mem_cons.mp hmem with rfl|hmem
    · exact ⟨by decide +kernel,by decide +kernel⟩
    · rw [List.mem_singleton.mp hmem]
      trivial
  · exact ⟨_,parse_options_keyless⟩
  · intro postInfo h
    rw [List.nil_append,parse_options_keyless] at h
    cases h
  · exact fun _ _ => trivial

/-- A connection that is reset drives the loop out: append raises, and the
socket is not closed, as it is when the connection ends in order. -/
theorem receiveLoop_reset :
    receiveLoop keyless [] [((),.socketError)] ()=⟨.error (.thrown .lengthError),(),[]⟩ ∧
      receiveLoop keyless [] [((),.closed)] ()=⟨.ok [],(),[.socketClosed]⟩ ∧
      ¬EndsOrderly keyless [] [((),.socketError)] () := by
  have hreset : receiveLoop keyless [] [((),.socketError)] ()=
      ⟨.error (.thrown .lengthError),(),[]⟩ := by
    rw [receiveLoop_eq_runLoop (by simp [Possible])]
    rfl
  refine ⟨hreset,?_,fun h => ?_⟩
  · rw [receiveLoop_eq_runLoop (by simp [Possible])]
    rfl
  · have hreturns := h.returns
    rw [hreset] at hreturns
    exact not_returns_error _ hreturns

end reset

end Photogram.AuthSocket
