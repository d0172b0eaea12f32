import Photogram.AuthGuard
import Photogram.ContentConnection

/-!
# The inquiry at the authentication server

What the authentication server makes of the request the content server forms.
Nothing a client puts into its Authorization field moves the end of the
request or its path, so a buffer that holds the inquiry from its first byte
waits for its last one and is then answered for the subject of an accepted
token, or with an error.
-/

namespace Photogram.ServerInquiry

open CxxString EffectLog JsonValue QueryString JwtToken AuthResponse AuthRequest AuthHttpParser
open AuthConnection AuthDispatch AuthReceive AuthGuard ContentConnection

/-- Body of the answer to an inquiry. -/
def idBody (id : Bytes) : Json := .object [(ascii "id",.string id)]

section inquiry

variable (userAgent : FieldValue) (request : ClientRequest)

/-- The request line of the inquiry and its first field. -/
def inquiryHead : Bytes :=
  ascii "GET /getIdForServerByAccess HTTP/1.1\r\nHost: 127.0.0.1\r\nAuthorization:"

/-- The line end behind the Authorization field and the name of the next one. -/
def inquiryMiddle : Bytes := ascii "\r\nOrigin:"

/-- The Origin field and the name of the last one. -/
def inquiryTail : Bytes := ascii "localhost:8081\r\nUser-Agent:"

/-- The inquiry, split at blanks around the two values it takes. -/
theorem inquiry_eq :
    request.inquiry userAgent=inquiryHead++32::(request.authorization.bytes++inquiryMiddle++
      32::(inquiryTail++32::(userAgent.bytes++blankLine))) := by
  have hhead : ascii "GET "++ascii "/getIdForServerByAccess"++ascii " HTTP/1.1\r\nHost: "++
      ascii "127.0.0.1"++ascii "\r\nAuthorization: "=inquiryHead++[32] := by decide +kernel
  have hmiddle : ascii "\r\nOrigin: localhost:8081\r\nUser-Agent: "=
      inquiryMiddle++32::(inquiryTail++[32]) := by decide +kernel
  unfold ClientRequest.inquiry formRequestGetIdByAccess
  rw [hhead,hmiddle]
  simp only [List.append_assoc,List.cons_append,List.nil_append]
  rfl

/-- The only blank line of an inquiry ends it. -/
theorem inquiry_endsAtBlankLine : EndsAtBlankLine (request.inquiry userAgent) := by
  have hblank : (32 : UInt8) ∉ blankLine := by decide
  have hne : blankLine≠[] := by decide
  have hvalue : ¬blankLine<:+:request.authorization.bytes++inquiryMiddle := fun h =>
    absurd (isInfix_behind_head request.authorization.noReturn h) (by decide +kernel)
  have hlast : find? (userAgent.bytes++(blankLine++[])) blankLine 0=some userAgent.bytes.length :=
    find?_behind_head userAgent.noReturn
  rw [List.append_nil] at hlast
  unfold EndsAtBlankLine
  rw [inquiry_eq,find?_around hblank hne (by decide +kernel),find?_around hblank hne hvalue,
    find?_around hblank hne (by decide +kernel),hlast]
  refine ⟨_,rfl,?_⟩
  simp only [List.length_append,List.length_cons]
  have hfour : blankLine.length=4 := by decide
  omega

/-- The inquiry is recognized as a GET request by its first seven bytes. -/
theorem inquiry_getReqT : getReqT (request.inquiry userAgent)=some ⟨.get,3⟩ := by
  have hblank : find? inquiryHead (ascii " ") 0=some 3 := by decide +kernel
  rw [inquiry_eq,getReqT_append (by decide +kernel) hblank]
  decide +kernel

/-- The inquiry asks for the id of an access token. -/
theorem inquiry_getGetMsg (hs : (request.inquiry userAgent).length ≤ maxSize) :
    getGetMsg ((request.inquiry userAgent).drop 3)=.ok (some .getIdFsByAccess) := by
  have hdrop : (request.inquiry userAgent).drop 3=
      inquiryHead.drop 3++32::(request.authorization.bytes++inquiryMiddle++
        32::(inquiryTail++32::(userAgent.bytes++blankLine))) := by
    rw [inquiry_eq,List.drop_append_of_le_length (by decide +kernel)]
  have hslash : find? (inquiryHead.drop 3) (ascii "/") 0=some 1 := by decide +kernel
  have hstop : ((inquiryHead.drop 3).drop 1).findIdx? (· ∈ ascii " ?")=some 23 := by decide +kernel
  have hrest : ((request.inquiry userAgent).drop 3).length ≤ maxSize := by
    rw [List.length_drop]
    omega
  rw [hdrop] at hrest ⊢
  exact getMsg_append hrest hslash hstop (by decide) (by decide +kernel) (by decide +kernel)

/-- A parsed inquiry is the message for the id of an access token. -/
theorem parse_inquiry {setting : ParserSetting} {info : HttpTypesInfo}
    (hs : (request.inquiry userAgent).length ≤ maxSize)
    (h : parse setting (request.inquiry userAgent)=.ok (.success,info)) :
    ∃ getInfo,info=.get getInfo ∧ getInfo.msg=.getIdFsByAccess := by
  have htype := inquiry_getReqT userAgent request
  obtain ⟨type,htype',hfull⟩ := parse_success h
  rw [parse_complete setting hs htype' hfull] at h
  rw [htype] at htype'
  cases htype'
  obtain ⟨answer,hanswer,h⟩ := bind_eq_ok h
  rw [fieldStatus_success h] at hanswer
  have hrest : ((request.inquiry userAgent).drop 3).length ≤ maxSize := by
    rw [List.length_drop]
    omega
  obtain ⟨getInfo,hinfo,hmsg,_⟩ := parseGetT_true hrest hanswer
  rw [inquiry_getGetMsg userAgent request hs] at hmsg
  exact ⟨getInfo,hinfo,(Option.some.inj (Except.ok.inj hmsg)).symm⟩

end inquiry

section turns

variable {σ : Type} (services : Services σ)

/-- The events of a turn that accepted an access token for a user and
answered the inquiry with its id. -/
def AnswersInquiry (world : σ) (events : List Event) (id : Bytes) : Prop :=
  ∃ getInfo,.dispatched (.get getInfo) ∈ events ∧ getInfo.msg=.getIdFsByAccess ∧
    .tokenAccepted getInfo.accessToken id ∈ events ∧
    checkAccessToken services.jwt getInfo.accessToken secret (services.now world)=.ok id ∧
    .sent (.answerJson getInfo.origin (idBody id)) ∈ events

/-- An error reply with the status of a rejected token or of a server error. -/
def ErrorReply : Reply → Prop
  | .sendError _ code _ => code=ascii "401" ∨ code=ascii "500"
  | _ => False

/-- The case of an inquiry replies with the id or a server error. -/
theorem getCase_inquiry {getInfo : GetTInfo} (hmsg : getInfo.msg=.getIdFsByAccess) (id : Bytes) :
    Emits (getCase services getInfo id) fun event =>
      event=.sent (.answerJson getInfo.origin (idBody id)) ∨
        ∃ reply,event=.sent reply ∧ ErrorReply reply := by
  unfold getCase
  rw [hmsg]
  exact emits_attempt (emits_sendReply services _ (Or.inl rfl)) fun _ =>
    emits_sendReply services _ (Or.inr ⟨_,rfl,Or.inr rfl⟩)

/-- A dispatched inquiry is answered for the subject of its accepted token, or
with an error. -/
theorem dispatch_inquiry {getInfo : GetTInfo} (hmsg : getInfo.msg=.getIdFsByAccess) {world : σ}
    {reply : Reply} (h : .sent reply ∈ (dispatch services (.get getInfo) world).events) :
    ErrorReply reply ∨ ∃ origin id,reply=.answerJson origin (idBody id) ∧
      AnswersInquiry services world
        (.dispatched (.get getInfo)::(dispatch services (.get getInfo) world).events) id := by
  change .sent reply ∈ (dispatchGet services getInfo world).events at h
  change _ ∨ ∃ origin id,_ ∧ AnswersInquiry services world
    (_::(dispatchGet services getInfo world).events) id
  rw [dispatchGet_guarded services (by rw [hmsg]; simp)] at h ⊢
  cases hcheck : checkAccessToken services.jwt getInfo.accessToken secret (services.now world) with
  | error e =>
    obtain ⟨events,hrun,hsent⟩ := guarded_error services getInfo.origin (getCase services getInfo) hcheck
    rw [hrun] at h
    have hrefusal := hsent _ h
    cases hrefusal
    exact Or.inl (Or.inl rfl)
  | ok id =>
    rw [guarded_ok services (getCase services getInfo) hcheck] at h ⊢
    rcases List.mem_cons.mp h with hfirst|hrest
    · cases hfirst
    · rcases (getCase_inquiry services hmsg id).events world _ hrest with hid|⟨error,herror,hreply⟩
      · rw [hid] at hrest
        cases hid
        exact Or.inr ⟨_,id,rfl,getInfo,List.mem_cons_self,hmsg,
          List.mem_cons_of_mem _ List.mem_cons_self,hcheck,
          List.mem_cons_of_mem _ (List.mem_cons_of_mem _ hrest)⟩
      · cases herror
        exact Or.inl hreply

variable {userAgent : FieldValue} {request : ClientRequest}

/-- The turn that completes the inquiry replies for the subject of an
accepted token, or with an error. -/
theorem turn_inquiry {buffer chunk : Bytes} (hwhole : buffer++chunk=request.inquiry userAgent)
    {world : σ} {reply : Reply} (h : .sent reply ∈ (turn services buffer chunk world).events) :
    ErrorReply reply ∨ ∃ origin id,reply=.answerJson origin (idBody id) ∧
      AnswersInquiry services world (turn services buffer chunk world).events id := by
  rcases turn_events services buffer chunk world with hjudged|⟨info,hs,hparse,hevents⟩
  · rcases hjudged _ h with h|h <;> cases h
  · rw [hevents] at h ⊢
    rw [hwhole] at hs hparse
    obtain ⟨getInfo,rfl,hmsg⟩ := parse_inquiry userAgent request hs hparse
    rcases List.mem_cons.mp h with hfirst|hrest
    · cases hfirst
    · exact dispatch_inquiry services hmsg hrest

/-- A turn that holds at least seven bytes of the inquiry but not all of it
waits, unless the buffer grew beyond the greatest length. -/
theorem turn_inquiry_part {buffer chunk rest : Bytes} (hrest : rest≠[])
    (hsplit : buffer++chunk++rest=request.inquiry userAgent) (hseven : 7 ≤ (buffer++chunk).length)
    (world : σ) :
    turn services buffer chunk world=⟨.ok (buffer++chunk),world,[.waited]⟩ ∨
      turn services buffer chunk world=⟨.error (.thrown .lengthError),world,[]⟩ := by
  by_cases hs : (buffer++chunk).length ≤ maxSize
  · have htype := inquiry_getReqT userAgent request
    have hend := inquiry_endsAtBlankLine userAgent request
    rw [←hsplit] at htype hend
    have hfull := checkIsFullRequest_noBlank hs (noBlankLine_cut hend hrest) .get
    have hparse := parse_incomplete services.setting (getReqT_cut htype hseven (by dsimp only; omega))
      hfull (by simp)
    rw [turn_eq services hs,serveBuffer_notFullReq services world hparse]
    exact Or.inl rfl
  · have happend : append buffer chunk=.error (.thrown .lengthError) := if_neg hs
    unfold turn
    rw [compute_error_bind_run happend]
    exact Or.inr rfl

end turns

end Photogram.ServerInquiry
