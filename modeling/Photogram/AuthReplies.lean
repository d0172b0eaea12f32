import Photogram.AuthGuard
import Photogram.AuthRequestRuns

/-!
# One reply to every accepted request

Every case of the dispatcher sends its reply inside a try block whose catch
clause sends an error instead, and the token check answers a refusal itself
before the case is left. The texts of the errors are ASCII, so the JSON
library accepts them. What a case reads of the request was filled in by the
parser. The conversion of a new password stands outside every try block.
-/

namespace Photogram.AuthReplies

open CxxString EffectLog JsonValue QueryString JwtToken AuthResponse AuthRequest AuthHttpParser
open AuthConnection AuthDispatch AuthReceive AuthRequestRuns AuthGuard

section carried

/-- A scanned query holds at least one pair. -/
theorem scanQuery_toList_ne {s : Bytes} {before properties : PropertyMap} {start : ℕ} (hs : s≠[])
    (h : scanQuery s before start=.ok properties) : properties.toList≠[] := by
  unfold scanQuery at h
  rw [if_neg hs] at h
  obtain ⟨cursor,_,hstore⟩ := bind_eq_ok h
  obtain ⟨value,_,hstore⟩ := bind_eq_ok hstore
  obtain ⟨key,_,hpair⟩ := bind_eq_ok hstore
  cases hpair
  intro hnil
  have hempty : (cursor.result.insert key value).isEmpty=true := by
    rw [←Std.ExtTreeMap.isEmpty_toList,hnil]
    rfl
  simp at hempty

/-- How the fields of an accepted request were filled in from the bytes
behind its method token. -/
def Carries (setting : ParserSetting) (req : Bytes) : HttpTypesInfo → Prop
  | .monostate => False
  | .options info => getValueSomeHeader req originHeader 0=.ok (some info.origin)
  | .post info => ∃ origin msg,getValueSomeHeader req originHeader 0=.ok (some origin) ∧
      parsePostFields setting req {emptyPostInfo with origin := origin,msg := msg}=.ok info
  | .get info => ∃ origin msg,getValueSomeHeader req originHeader 0=.ok (some origin) ∧
      parseGetFields req {emptyGetInfo with origin := origin,msg := msg}=.ok info

/-- An accepted request carries the block it was parsed into. -/
theorem parse_carries {setting : ParserSetting} {request : Bytes} {info : HttpTypesInfo}
    (hs : request.length ≤ maxSize) (h : parse setting request=.ok (.success,info)) :
    ∃ size,Carries setting (request.drop size) info := by
  obtain ⟨type,_,hanswer⟩ := parse_success_answer hs h
  refine ⟨type.size,?_⟩
  rcases hanswer with ⟨_,hget⟩|⟨_,hpost⟩|⟨_,hoptions⟩
  · obtain ⟨origin,msg,horigin,_,hknown⟩ := parseMessage_true hget
    obtain ⟨getInfo,hfields,hinfo⟩ := bind_eq_ok hknown
    cases hinfo
    exact ⟨origin,msg,horigin,hfields⟩
  · obtain ⟨origin,msg,horigin,_,hknown⟩ := parseMessage_true hpost
    obtain ⟨postInfo,hfields,hinfo⟩ := bind_eq_ok hknown
    cases hinfo
    exact ⟨origin,msg,horigin,hfields⟩
  · obtain ⟨originO,horigin,hinfo⟩ := bind_eq_ok hoptions
    cases originO with
    | none => cases hinfo
    | some origin =>
      cases hinfo
      exact horigin

/-- A carried GET message but a renewal has a first query pair. -/
theorem firstProperty_ok {setting : ParserSetting} {req : Bytes} {info : GetTInfo}
    (h : Carries setting req (.get info)) (hmsg : info.msg≠.getNewToken) :
    ∃ first,firstProperty info.properties=.ok first := by
  obtain ⟨origin,msg,_,hfields⟩ := h
  have hscan : ∃ accessToken,getValueWithSpace req bearerPrefix 0=.ok accessToken ∧
      URLParser req ∅ 4=.ok info.properties := by
    unfold parseGetFields at hfields
    cases msg
    case getNewToken =>
      obtain ⟨refreshToken,_,hinfo⟩ := bind_eq_ok hfields
      cases hinfo
      exact absurd rfl hmsg
    all_goals
      obtain ⟨accessToken,htoken,hfields⟩ := bind_eq_ok hfields
      obtain ⟨properties,hquery,hinfo⟩ := bind_eq_ok hfields
      cases hinfo
      exact ⟨accessToken,htoken,hquery⟩
  obtain ⟨accessToken,htoken,hquery⟩ := hscan
  have hreq : req≠[] := by
    rintro rfl
    cases htoken
  have hne := scanQuery_toList_ne hreq hquery
  unfold firstProperty mapBegin
  cases hl : info.properties.toList with
  | nil => exact absurd hl hne
  | cons first others => exact ⟨first.2,rfl⟩

end carried

/-- Every byte of a text is ASCII. -/
def isAscii (text : Bytes) : Bool := text.all (·<128)

/-- The library turns ASCII error texts into JSON texts. -/
def DumpsErrors (dump : Json → Option Bytes) : Prop :=
  ∀ text,isAscii text → (dump (errorBody text)).isSome

/-- The codes of error answers. -/
def isErrorCode (code : Bytes) : Bool :=
  [ascii "400",ascii "401",ascii "404",ascii "500"].contains code

/-- Every answer of an error table has one of the codes and an ASCII text. -/
def PlainErrors (errors : CxxException → ErrorAnswer) : Prop :=
  ∀ e,isErrorCode (errors e).1 ∧ isAscii (errors e).2

/-- An occupied email or nickname is reported in ASCII. -/
theorem occupied_ascii {e : CxxException} {text : Bytes} (h : occupied e=some text) :
    isAscii text := by
  unfold occupied at h
  split at h
  · cases h
    decide
  split at h
  · cases h
    decide
  · cases h

/-- A login has plain errors. -/
theorem plain_loginError : PlainErrors loginError := by
  intro e
  unfold loginError internalError
  split <;> decide

/-- A registration has plain errors. -/
theorem plain_registrationError : PlainErrors registrationError := by
  intro e
  unfold registrationError internalError
  split
  · next text h => exact ⟨rfl,occupied_ascii h⟩
  · decide

/-- A profile update has plain errors. -/
theorem plain_updateError : PlainErrors updateError := by
  intro e
  unfold updateError internalError
  split
  · next text h => exact ⟨rfl,occupied_ascii h⟩
  · decide

/-- A photo update has plain errors. -/
theorem plain_updatePhotoError : PlainErrors updatePhotoError := by
  intro e
  unfold updatePhotoError internalError
  split
  · next text h => exact ⟨rfl,occupied_ascii h⟩
  · split <;> decide

/-- A lookup has plain errors. -/
theorem plain_lookupError : PlainErrors lookupError := by
  intro e
  unfold lookupError internalError
  split <;> decide

/-- A query has plain errors. -/
theorem plain_queryError : PlainErrors queryError := by
  intro e
  unfold queryError internalError
  split <;> decide

/-- A friend message has plain errors. -/
theorem plain_friendError : PlainErrors friendError := by
  intro e
  unfold friendError
  split
  · decide
  · exact plain_lookupError e

/-- A renewal has plain errors. -/
theorem plain_renewalError : PlainErrors renewalError := fun _ => by
  unfold renewalError
  decide

/-- The event is a reply. -/
def isReply : Event → Bool
  | .sent _ => true
  | _ => false

/-- As many replies as events that are one. -/
theorem length_replies (events : List Event) : (replies events).length=events.countP isReply := by
  induction events with
  | nil => rfl
  | cons event rest ih =>
    cases event with
    | sent reply =>
      rw [List.countP_cons_of_pos rfl,←ih]
      rfl
    | _ =>
      rw [List.countP_cons_of_neg (by simp [isReply]),←ih]
      rfl

section cases

variable {σ : Type} (services : Services σ)

/-- Sending one reply is attempted. -/
theorem attempts_sendReply (reply : Reply) : Attempts isReply (sendReply services reply) 1 := by
  intro world
  rcases sendReply_run services reply world with hs|hs
  · rw [hs]
    exact Or.inl ⟨⟨(),rfl⟩,rfl⟩
  · rw [hs]
    exact Or.inr ⟨⟨_,rfl⟩,rfl⟩

/-- An error reply with an ASCII text is sent. -/
theorem sendError_run (hdump : DumpsErrors services.dump) (origin code text : Bytes)
    (htext : isAscii text) (world : σ) :
    sendReply services (.sendError origin code text) world=
      ⟨.ok (),world,[.sent (.sendError origin code text)]⟩ := by
  obtain ⟨body,hbody⟩ := Option.isSome_iff_exists.mp (hdump text htext)
  have htextOf : dumpText services.dump (errorBody text)=.ok body := by
    unfold dumpText
    rw [hbody]
  have hrender : ∃ sends,Reply.render (dumpText services.dump) (.sendError origin code text)=
      .ok sends := by
    unfold Reply.render
    dsimp only
    rw [htextOf]
    exact ⟨_,rfl⟩
  obtain ⟨sends,hsends⟩ := hrender
  unfold sendReply
  rw [compute_ok_bind_run hsends]
  rfl

/-- A database call is attempted without a reply. -/
theorem attempts_callDb (call : DbCall) : Attempts isReply (callDb services call) 0 :=
  attempts_bind (delivers_record _).attempts fun _ => attempts_act _

/-- Making a token is attempted without a reply. -/
theorem attempts_newToken
    (create : JwtLibrary → Bytes → Bytes → ℕ → Except CxxException Bytes) (id : Bytes) :
    Attempts isReply (newToken services create id) 0 :=
  attempts_bind (delivers_readWorld _).attempts fun _ => attempts_raising _

/-- A database call whose answer is sent is attempted with one reply. -/
theorem attempts_callAndReply (call : DbCall) (reply : call.Answer → Reply) :
    Attempts isReply (callDb services call>>=fun answer => sendReply services (reply answer)) 1 :=
  attempts_bind (attempts_callDb services call) fun _ => attempts_sendReply services _

/-- Reading a text member stays within defined behaviour. -/
theorem textMember_defined (value : Json) (key : Bytes) : Defined (textMember value key) := by
  refine defined_bind ?_ fun member => ?_
  · cases value <;> first | exact defined_ok _ | exact defined_thrown _
  · cases member <;> first | exact defined_ok _ | exact defined_thrown _

/-- A case that attempts one reply sends one reply. -/
theorem delivers_answering (hdump : DumpsErrors services.dump) {origin : Bytes}
    {errors : CxxException → ErrorAnswer} {body : Handler σ Unit} (herrors : PlainErrors errors)
    (hbody : Attempts isReply body 1) :
    Delivers isReply (answering services origin errors body) 1 := by
  refine delivers_attempt hbody fun e world => ?_
  rw [sendError_run services hdump origin _ _ (herrors e).2]
  exact ⟨⟨(),rfl⟩,rfl⟩

/-- A rejected token is answered once, and the loop goes on. -/
theorem guarded_refused (hdump : DumpsErrors services.dump) (origin : Bytes) {world : σ}
    {token : Bytes} {e : CxxException} (body : Bytes → Handler σ Unit)
    (h : checkAccessToken services.jwt token secret (services.now world)=.error e) :
    guarded services origin token body world=
      ⟨.ok .continued,world,[.sent (refusal origin)]⟩ := by
  have hsent := sendError_run services hdump origin (ascii "401") (ascii "invalid access token")
    (by decide) world
  have hcheck : checkAccesstoken services origin token world=
      ⟨.error (.thrown e),world,[.sent (refusal origin)]⟩ := by
    cases checkAccessToken_error h
    unfold checkAccesstoken attempt
    rw [acceptedSubject_error services h]
    dsimp only
    rw [if_neg (by decide),if_pos rfl,bind_run_ok (by rw [hsent]),hsent]
    rfl
  have hchecked : (attempt (checkAccesstoken services origin token>>=fun id => pure (some id))
      (fun _ => pure none) : Handler σ (Option Bytes)) world=
        ⟨.ok none,world,[.sent (refusal origin)]⟩ := by
    unfold attempt
    rw [bind_run_error (by rw [hcheck]),hcheck]
    rfl
  unfold guarded
  rw [bind_run_ok (by rw [hchecked]),hchecked]
  rfl

/-- A guarded case sends one reply, whatever becomes of its token. -/
theorem delivers_guarded (hdump : DumpsErrors services.dump) {origin token : Bytes}
    {body : Bytes → Handler σ Unit} (hbody : ∀ id,Delivers isReply (body id) 1) :
    Delivers isReply (guarded services origin token body) 1 := by
  intro world
  cases hcheck : checkAccessToken services.jwt token secret (services.now world) with
  | error e =>
    rw [guarded_refused services hdump origin body hcheck]
    exact ⟨⟨_,rfl⟩,rfl⟩
  | ok id =>
    obtain ⟨⟨value,hvalue⟩,hcount⟩ := hbody id world
    rw [guarded_ok services body hcheck,hvalue]
    refine ⟨⟨.bottom,rfl⟩,?_⟩
    rw [List.countP_cons_of_neg (by simp [isReply])]
    exact hcount

/-- The case of a GET message sends one reply. -/
theorem delivers_getCase (hdump : DumpsErrors services.dump) {setting : ParserSetting}
    {req : Bytes} {info : GetTInfo} (h : Carries setting req (.get info)) (id : Bytes) :
    Delivers isReply (getCase services info id) 1 := by
  unfold getCase
  cases hmsg : info.msg with
  | getNewToken =>
    refine delivers_answering services hdump plain_renewalError ?_
    refine attempts_bind (delivers_readWorld _).attempts fun now => ?_
    refine attempts_bind (attempts_raising _) fun id => ?_
    refine attempts_bind (attempts_newToken services _ _) fun accessToken => ?_
    exact attempts_callAndReply services (.getNicknameById id) _
  | getProfileByNickname =>
    exact delivers_answering services hdump plain_lookupError
      (attempts_callAndReply services (.getProfileInformation _) _)
  | getProfilePhoto =>
    exact delivers_answering services hdump plain_lookupError
      (attempts_callAndReply services (.getProfilePhoto _) _)
  | getUsersList =>
    exact delivers_answering services hdump plain_queryError
      (attempts_callAndReply services (.getUsers _ _) _)
  | getPhotoById =>
    obtain ⟨first,hfirst⟩ := firstProperty_ok h (by rw [hmsg]; decide)
    rw [hfirst]
    exact delivers_answering services hdump plain_queryError
      (attempts_callAndReply services (.getPhotoById first) _)
  | makeFriend =>
    exact delivers_answering services hdump plain_friendError
      (attempts_callAndReply services (.makeFriend _ _) _)
  | deleteFriend =>
    exact delivers_answering services hdump plain_friendError
      (attempts_callAndReply services (.deleteFriend _ _) _)
  | getStatus =>
    obtain ⟨first,hfirst⟩ := firstProperty_ok h (by rw [hmsg]; decide)
    rw [hfirst]
    exact delivers_answering services hdump plain_friendError
      (attempts_callAndReply services (.getStatus id first) _)
  | getIdFsByAccess =>
    refine delivers_answering services hdump (fun _ => ?_) (attempts_sendReply services _)
    unfold internalError
    decide

/-- A GET message is answered with one reply. -/
theorem delivers_dispatchGet (hdump : DumpsErrors services.dump) {setting : ParserSetting}
    {req : Bytes} {info : GetTInfo} (h : Carries setting req (.get info)) :
    Delivers isReply (dispatchGet services info) 1 := by
  have hcase := delivers_getCase services hdump h
  by_cases hmsg : info.msg=.getNewToken
  · unfold dispatchGet
    rw [hmsg]
    exact delivers_bind (hcase []) fun _ => delivers_pure _
  · rw [dispatchGet_guarded services hmsg]
    exact delivers_guarded services hdump hcase

/-- A password update whose body is no JSON string. -/
def NoPasswordText (info : PostTInfo) : Prop :=
  info.msg=.updateProfilePassword ∧ ∀ text,info.jsonBody≠.string text

/-- A POST message is answered with one reply, unless it is a password
update whose body is no string. -/
theorem delivers_dispatchPost (hdump : DumpsErrors services.dump) {info : PostTInfo}
    (h : ¬NoPasswordText info) : Delivers isReply (dispatchPost services info) 1 := by
  unfold dispatchPost
  cases hmsg : info.msg with
  | login =>
    refine delivers_bind (delivers_answering services hdump plain_loginError ?_) fun _ =>
      delivers_pure _
    refine attempts_bind (attempts_compute (textMember_defined _ _)) fun login => ?_
    refine attempts_bind (attempts_compute (textMember_defined _ _)) fun password => ?_
    refine attempts_bind (attempts_callDb services (.checkPassword login password)) fun id => ?_
    refine attempts_bind (attempts_newToken services _ _) fun refreshToken => ?_
    refine attempts_bind (attempts_newToken services _ _) fun accessToken => ?_
    exact attempts_callAndReply services (.getNicknameById id) _
  | registration =>
    exact delivers_bind (delivers_answering services hdump plain_registrationError
      (attempts_callAndReply services (.addNewUser info) _)) fun _ => delivers_pure _
  | updateProfilePhoto =>
    exact delivers_guarded services hdump fun id => delivers_answering services hdump
      plain_updatePhotoError (attempts_callAndReply services (.updateProfilePhoto info id) _)
  | updateProfileData =>
    exact delivers_guarded services hdump fun id => delivers_answering services hdump
      plain_updateError (attempts_callAndReply services (.updateProfileData info.jsonBody id) _)
  | updateProfilePassword =>
    obtain ⟨text,htext⟩ : ∃ text,info.jsonBody=.string text := by
      by_contra hnone
      exact h ⟨hmsg,fun text htext => hnone ⟨text,htext⟩⟩
    dsimp only
    rw [htext]
    exact delivers_guarded services hdump fun id => delivers_answering services hdump
      plain_updateError (attempts_callAndReply services (.updateProfilePassword text id) _)

/-- A password update whose body is no string raises out of the dispatcher. -/
theorem dispatchPost_raises {info : PostTInfo} (h : NoPasswordText info) (world : σ) :
    dispatchPost services info world=⟨.error (.thrown .jsonType),world,[]⟩ := by
  have hraise : info.jsonBody.getString=.error (.thrown .jsonType) := by
    cases hbody : info.jsonBody with
    | string text => exact absurd hbody (h.2 text)
    | _ => rfl
  unfold dispatchPost
  rw [h.1]
  exact compute_error_bind_run hraise _ world

/-- So dispatching it does not return. -/
theorem not_returns_dispatch {info : PostTInfo} (h : NoPasswordText info) (world : σ) :
    ¬Returns (dispatch services (.post info) world).outcome := by
  change ¬Returns (dispatchPost services info world).outcome
  rw [dispatchPost_raises services h]
  exact not_returns_error _

/-- A dispatched request that raises nothing is answered with one reply. -/
theorem delivers_dispatch (hdump : DumpsErrors services.dump) {setting : ParserSetting}
    {req : Bytes} {info : HttpTypesInfo} (hcarries : Carries setting req info)
    (h : ∀ postInfo,info=.post postInfo → ¬NoPasswordText postInfo) :
    Delivers isReply (dispatch services info) 1 := by
  cases info with
  | monostate => exact hcarries.elim
  | options optionsInfo =>
    intro world
    exact ⟨⟨.bottom,rfl⟩,rfl⟩
  | post postInfo => exact delivers_dispatchPost services hdump (h postInfo rfl)
  | get getInfo => exact delivers_dispatchGet services hdump hcarries

end cases

section turns

variable {σ : Type} (services : Services σ)

/-- The loop body returns from an accepted request after exactly one reply,
except for a password update whose body is no JSON string, which raises out
of it without a reply. -/
theorem turn_one_reply_iff (hdump : DumpsErrors services.dump) {buffer chunk : Bytes}
    (request : CxxText) (hrequest : buffer++chunk=request.bytes) {info : HttpTypesInfo}
    (hparse : parse services.setting request.bytes=.ok (.success,info)) (world : σ) :
    Returns (turn services buffer chunk world).outcome ∧
        (replies (turn services buffer chunk world).events).length=1 ↔
      ∀ postInfo,info=.post postInfo → ¬NoPasswordText postInfo := by
  have hs : (buffer++chunk).length ≤ maxSize := by
    rw [hrequest]
    exact request.size_le
  rw [turn_eq services hs,hrequest,serveBuffer_success services world hparse,length_replies]
  dsimp only
  rw [List.countP_cons_of_neg (by simp [isReply])]
  constructor
  · rintro ⟨hreturns,_⟩ postInfo rfl hpassword
    exact not_returns_dispatch services hpassword world ((returns_exceptMap_iff _ _).mp hreturns)
  · intro h
    obtain ⟨size,hcarries⟩ := parse_carries request.size_le hparse
    obtain ⟨⟨exit,hexit⟩,hcount⟩ := delivers_dispatch services hdump hcarries h world
    rw [hexit]
    exact ⟨⟨_,rfl⟩,hcount⟩

end turns

section password

/-- A server with a JSON library and no key. -/
def keyless : Services Unit := {refusing with setting := ⟨parsePlain,.lenient⟩}

/-- Its library turns every error text into a JSON text. -/
theorem dumpsErrors_keyless : DumpsErrors keyless.dump := fun _ _ => rfl

/-- The OPTIONS request parses there too. -/
theorem parse_options_keyless :
    parse keyless.setting optionsRequest=.ok (.success,.options ⟨ascii " o"⟩) := by rfl

/-- The guarded request of a user whose token is accepted is answered with one
reply, behind one database call. -/
theorem one_reply_status :
    Returns (turn welcoming [] statusRequest ()).outcome ∧
      (replies (turn welcoming [] statusRequest ()).events).length=1 ∧
      .dbCall (.getStatus (ascii "1") (ascii "2")) ∈ (turn welcoming [] statusRequest ()).events := by
  obtain ⟨info,hparse⟩ : ∃ info,parse welcoming.setting statusRequest=.ok (.success,.get info) :=
    ⟨_,rfl⟩
  have hreply := (@turn_one_reply_iff Unit welcoming dumpsErrors_keyless [] statusRequest
    ⟨statusRequest,by decide +kernel⟩ rfl _ hparse ()).mpr fun _ h => nomatch h
  have hevents : (turn welcoming [] statusRequest ()).events[2]?=
      some (.dbCall (.getStatus (ascii "1") (ascii "2"))) := by rfl
  exact ⟨hreply.1,hreply.2,List.mem_of_getElem? hevents⟩

/-- A password update with an object for a body. -/
def objectPassword : Bytes :=
  ascii "POST /updateProfilePassword HTTP/1.1\r\nOrigin: o\r\nAuthorization: Bearer t\r\n"++
    ascii "Content-Length: 9\r\n\r\n\x7b\"a\":\"b\"\x7d"

/-- Its parsed fields. -/
def objectPasswordInfo : PostTInfo :=
  {emptyPostInfo with
    origin := ascii " o",
    msg := .updateProfilePassword,
    accessToken := ascii "t",
    jsonBody := .object [(ascii "a",.string (ascii "b"))]}

/-- The object is accepted by the parser, raises out of the loop body, and
is not answered at all. -/
theorem no_reply_object_password :
    DumpsErrors keyless.dump ∧
      parse keyless.setting objectPassword=.ok (.success,.post objectPasswordInfo) ∧
      (turn keyless [] objectPassword ()).outcome=.error (.thrown .jsonType) ∧
      replies (turn keyless [] objectPassword ()).events=[] :=
  ⟨dumpsErrors_keyless,by rfl,by rfl,by rfl⟩

end password

end Photogram.AuthReplies
