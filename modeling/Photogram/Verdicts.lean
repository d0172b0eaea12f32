import Photogram.AuthReplies
import Photogram.LinkRuns
import Photogram.RequestTarget

/-!
# Verdicts

The other half of what the two servers owe each other: a client that presents
a token is answered for it. Once the server has taken in an inquiry, however it
was cut, its reply says the verdict of the token check on the text behind the
first Bearer of the client's Authorization field, and the content server calls
back with no other. Without a Bearer there is no reply.
-/

namespace Photogram.Verdicts

open CxxString EffectLog JsonValue QueryString JwtToken AuthResponse AuthRequest AuthHttpParser
open AuthConnection AuthDispatch AuthReceive AuthReplies AnotherServerConnection ContentConnection
open ServerInquiry Schedule AuthSession TwoServers ServedOnce

/-- The text behind the first Bearer of a field. -/
def bearer (field : Bytes) : Option Bytes :=
  (find? field bearerPrefix 0).map fun p => field.drop (p+bearerPrefix.length)

section inquiries

variable (userAgent : FieldValue) (request : ClientRequest)

/-- What stands between the method of an inquiry and its Authorization field. -/
def fieldHead : Bytes :=
  ascii " /getIdForServerByAccess HTTP/1.1\r\nHost: 127.0.0.1\r\nAuthorization"

/-- What follows the carriage return behind that field. -/
def fieldTail : Bytes :=
  10::(ascii "Origin: localhost:8081\r\nUser-Agent"++58::32::(userAgent.bytes++13::ascii "\n\r\n"))

/-- An inquiry behind its method, split around its Authorization field. -/
theorem inquiry_fields :
    (request.inquiry userAgent).drop 3=
      fieldHead++58::32::(request.authorization.bytes++13::fieldTail userAgent) := by
  have hhead : ascii "GET "++ascii "/getIdForServerByAccess"++ascii " HTTP/1.1\r\nHost: "++
      ascii "127.0.0.1"++ascii "\r\nAuthorization: "=ascii "GET"++(fieldHead++[58,32]) := by
    decide +kernel
  have hmiddle : ascii "\r\nOrigin: localhost:8081\r\nUser-Agent: "=
      13::10::(ascii "Origin: localhost:8081\r\nUser-Agent"++[58,32]) := by decide +kernel
  have hend : ascii "\r\n\r\n"=13::ascii "\n\r\n" := by decide
  unfold ClientRequest.inquiry formRequestGetIdByAccess fieldTail
  rw [hhead,hmiddle,hend]
  simp only [List.append_assoc,List.cons_append,List.nil_append]
  rfl

/-- A blank in front moves the first Bearer by one. -/
theorem find?_behind_blank (s : Bytes) :
    find? (32::s) bearerPrefix 0=(find? s bearerPrefix 0).map (1+·) := by
  have hhead : bearerPrefix.head?=some 66 := by decide
  have hother : (66 : UInt8) ∉ [(32 : UInt8)] := by decide
  exact find?_skip hhead hother s

/-- The first Bearer of an inquiry is that of its Authorization field. -/
theorem find?_inquiry (hagent : ¬bearerPrefix<:+:userAgent.bytes) :
    find? ((request.inquiry userAgent).drop 3) bearerPrefix 0=
      (find? request.authorization.bytes bearerPrefix 0).map (fieldHead.length+1+1+·) := by
  have hne : bearerPrefix≠[] := by decide
  have hfree : ¬bearerPrefix<:+:fieldHead := by decide +kernel
  have htail : find? (fieldTail userAgent) bearerPrefix 0=none := by
    have hfirst : ¬bearerPrefix<:+:10::ascii "Origin: localhost:8081\r\nUser-Agent" := by
      decide +kernel
    have hlast : ¬bearerPrefix<:+:ascii "\n\r\n" := by decide +kernel
    have hsplit : fieldTail userAgent=(10::ascii "Origin: localhost:8081\r\nUser-Agent")++
        58::32::(userAgent.bytes++13::ascii "\n\r\n") := rfl
    rw [hsplit,find?_around (by decide) hne hfirst,find?_behind_blank,
      find?_around (by decide) hne hagent,find?_zero_eq_none_iff.mpr hlast]
    rfl
  rw [inquiry_fields,find?_around (by decide) hne hfree,find?_behind_blank]
  cases hfield : find? request.authorization.bytes bearerPrefix 0 with
  | none =>
    rw [find?_around (by decide) hne (find?_zero_eq_none_iff.mp hfield),htail]
    rfl
  | some p =>
    rw [find?_append hfield]
    exact congrArg some (Nat.add_assoc _ 1 p).symm

/-- Behind its method an inquiry is parsed up to the token of its client. -/
theorem parse_inquiry_eq (setting : ParserSetting)
    (hs : (request.inquiry userAgent).length ≤ maxSize) :
    ∃ origin properties,parse setting (request.inquiry userAgent)=
      getValueWithSpace ((request.inquiry userAgent).drop 3) bearerPrefix 0>>=fun accessToken =>
        .ok (.success,.get ⟨origin,.getIdFsByAccess,[],accessToken,properties⟩) := by
  have hget := inquiry_getReqT userAgent request
  obtain ⟨blank,hblank,_⟩ := inquiry_endsAtBlankLine userAgent request
  have hfull := checkIsFullRequest_blank hs (find?_zero_isSome_iff.mp (by rw [hblank]; rfl))
    (show EHttpReq.get≠.post by simp)
  have hmsg := inquiry_getGetMsg userAgent request hs
  have hrest : ((request.inquiry userAgent).drop 3).length ≤ maxSize := by
    rw [List.length_drop]
    omega
  have hline : ∃ rest,(request.inquiry userAgent).drop 3=ascii " /getIdForServerByAccess"++32::rest := by
    have hhead : fieldHead=ascii " /getIdForServerByAccess"++32::
        ascii "HTTP/1.1\r\nHost: 127.0.0.1\r\nAuthorization" := by decide +kernel
    rw [inquiry_fields,hhead]
    exact ⟨_,by rw [List.append_assoc]; rfl⟩
  obtain ⟨rest,hline⟩ := hline
  have hquery : ∃ properties,URLParser ((request.inquiry userAgent).drop 3) ∅ 4=.ok properties := by
    have hspans : pairSpans ((ascii " /getIdForServerByAccess").drop 4) 4 0 0=some [⟨0,0,24⟩] := by
      rfl
    rw [hline,RequestTarget.URLParser_spans (by decide) (by decide +kernel),hspans]
    exact ⟨_,rfl⟩
  have horigin : ∃ origin,getValueSomeHeader ((request.inquiry userAgent).drop 3) originHeader 0=
      .ok (some origin) := by
    have hliteral : ascii "Origin: localhost:8081\r\nUser-Agent"=
        originHeader++ascii "localhost:8081\r\nUser-Agent" := by decide +kernel
    have hinside : originHeader<:+:(request.inquiry userAgent).drop 3 := by
      rw [inquiry_fields]
      unfold fieldTail
      rw [hliteral]
      refine ⟨fieldHead++58::32::(request.authorization.bytes++[13,10]),
        ascii "localhost:8081\r\nUser-Agent"++58::32::(userAgent.bytes++13::ascii "\n\r\n"),?_⟩
      simp only [List.append_assoc,List.cons_append,List.nil_append]
    obtain ⟨p,hp⟩ := Option.isSome_iff_exists.mp (find?_zero_isSome_iff.mpr hinside)
    exact ⟨_,getValueSomeHeader_some hrest (by decide) (by decide) hp⟩
  obtain ⟨properties,hquery⟩ := hquery
  obtain ⟨origin,horigin⟩ := horigin
  refine ⟨origin,properties,?_⟩
  rw [parse_complete setting hs hget hfull]
  unfold parseByMethod parseGetT parseMessage
  dsimp only
  rw [horigin,ok_bind]
  dsimp only
  rw [hmsg,ok_bind]
  dsimp only [parseGetFields]
  cases getValueWithSpace ((request.inquiry userAgent).drop 3) bearerPrefix 0 with
  | error failure => rfl
  | ok accessToken =>
    dsimp only [emptyGetInfo]
    rw [ok_bind,hquery]
    rfl

/-- The lookup of the token finds the text behind that Bearer, or raises. -/
theorem getValueWithSpace_inquiry (hs : (request.inquiry userAgent).length ≤ maxSize)
    (hagent : ¬bearerPrefix<:+:userAgent.bytes) :
    getValueWithSpace ((request.inquiry userAgent).drop 3) bearerPrefix 0=
      match bearer request.authorization.bytes with
      | some token => .ok token
      | none => .error (.thrown (.runtimeError notFoundText)) := by
  have hfind := find?_inquiry userAgent request hagent
  have hrest : ((request.inquiry userAgent).drop 3).length ≤ maxSize := by
    rw [List.length_drop]
    omega
  have hliteral : (13 : UInt8) ∉ bearerPrefix := by decide
  unfold bearer
  cases hfield : find? request.authorization.bytes bearerPrefix 0 with
  | none =>
    rw [hfield] at hfind
    exact getValueWithSpace_none hfind
  | some p =>
    rw [hfield] at hfind
    change _=some (fieldHead.length+1+1+p) at hfind
    obtain ⟨_,hinside⟩ := find?_bounds hfield
    obtain ⟨_,hend⟩ := find?_bounds hfind
    have hdrop : ((request.inquiry userAgent).drop 3).drop (fieldHead.length+1+1+p)=
        request.authorization.bytes.drop p++13::fieldTail userAgent := by
      have hsplit : fieldHead++58::32::(request.authorization.bytes++13::fieldTail userAgent)=
          (fieldHead++[58]++[32])++(request.authorization.bytes++13::fieldTail userAgent) := by
        simp only [List.append_assoc,List.cons_append,List.nil_append]
      have hlength : (fieldHead++[58]++[32]).length=fieldHead.length+1+1 := by
        rw [List.length_append,List.length_append]
        rfl
      rw [inquiry_fields,hsplit,←hlength,List.drop_length_add_append,
        List.drop_append_of_le_length (by omega)]
    have hreturn : (13 : UInt8) ∉ request.authorization.bytes.drop p := fun hmem =>
      request.authorization.noReturn (List.mem_of_mem_drop hmem)
    have hbegin : request.authorization.bytes.drop p++crlf<+:
        ((request.inquiry userAgent).drop 3).drop (fieldHead.length+1+1+p) := by
      rw [hdrop]
      exact ⟨(fieldTail userAgent).tail,by rw [List.append_assoc]; rfl⟩
    rw [getValueWithSpace_some hrest hliteral hfind,lineFrom_begins hbegin (by omega)
      (not_crlf_isInfix hreturn) (by rw [List.length_drop]; omega),List.drop_drop]
    rfl

/-- With a Bearer an inquiry is parsed, and asks for the subject of its token. -/
theorem parse_inquiry_some {token : Bytes} (setting : ParserSetting)
    (hs : (request.inquiry userAgent).length ≤ maxSize)
    (hagent : ¬bearerPrefix<:+:userAgent.bytes)
    (htoken : bearer request.authorization.bytes=some token) :
    ∃ getInfo,parse setting (request.inquiry userAgent)=.ok (.success,.get getInfo) ∧
      getInfo.msg=.getIdFsByAccess ∧ getInfo.accessToken=token := by
  obtain ⟨origin,properties,hparse⟩ := parse_inquiry_eq userAgent request setting hs
  rw [getValueWithSpace_inquiry userAgent request hs hagent,htoken] at hparse
  exact ⟨_,hparse,rfl,rfl⟩

/-- Without one the parser raises. -/
theorem parse_inquiry_none (setting : ParserSetting)
    (hs : (request.inquiry userAgent).length ≤ maxSize)
    (hagent : ¬bearerPrefix<:+:userAgent.bytes) (hnone : bearer request.authorization.bytes=none) :
    parse setting (request.inquiry userAgent)=.error (.thrown (.runtimeError notFoundText)) := by
  obtain ⟨origin,properties,hparse⟩ := parse_inquiry_eq userAgent request setting hs
  rw [getValueWithSpace_inquiry userAgent request hs hagent,hnone] at hparse
  exact hparse

end inquiries

section turns

variable {σ τ : Type}

/-- What the libraries of both servers are taken to do. -/
structure Conforming (env : Environment σ τ) : Prop where
  /-- Ids are read back. -/
  readsBack : ReadsBack env
  /-- Subjects are ids. -/
  decimal : DecimalSubjects env.auth
  /-- Ids can be written. -/
  dumpsIds : ∀ id,(∀ digit ∈ id,isDigit digit) → (env.auth.dump (idBody id)).isSome
  /-- So can error texts. -/
  dumpsErrors : DumpsErrors env.auth.dump
  /-- The client library does not call itself a token. -/
  agent : ¬bearerPrefix<:+:env.userAgent.bytes

/-- What the token check makes of a token, as the content server is told. -/
def judgement (services : Services σ) (token : Bytes) (world : σ) : Bytes :=
  match checkAccessToken services.jwt token secret (services.now world) with
  | .ok id => id
  | .error _ => unauthorized

variable {env : Environment σ τ} {request : ClientRequest} {buffer chunk token : Bytes}

/-- The turn over the last bytes of an inquiry with a token sends one reply,
which is read as the judgement of that token. -/
theorem turn_judges (h : Conforming env) (hwhole : buffer++chunk=request.inquiry env.userAgent)
    (hs : (request.inquiry env.userAgent).length ≤ maxSize)
    (htoken : bearer request.authorization.bytes=some token) (world : σ) :
    Returns (turn env.auth buffer chunk world).outcome ∧ ∃ reply serverReply,
      AuthRequestRuns.replies (turn env.auth buffer chunk world).events=[reply] ∧
      delivered env.auth.dump reply=some serverReply ∧
      verdict env.content.jsonParse serverReply=.ok (judgement env.auth token world) := by
  obtain ⟨getInfo,hparse,hmsg,rfl⟩ := parse_inquiry_some env.userAgent request env.auth.setting hs
    h.agent htoken
  rw [←hwhole] at hs hparse
  have hdispatch : dispatch env.auth (.get getInfo)=
      guarded env.auth getInfo.origin getInfo.accessToken (getCase env.auth getInfo) :=
    dispatchGet_guarded env.auth (by rw [hmsg]; simp)
  rw [turn_eq env.auth hs,serveBuffer_success env.auth world hparse,hdispatch]
  unfold judgement
  cases hcheck : checkAccessToken env.auth.jwt getInfo.accessToken secret (env.auth.now world) with
  | error e =>
    obtain ⟨text,htext⟩ := Option.isSome_iff_exists.mp
      (h.dumpsErrors (ascii "invalid access token") (by decide))
    have hcode : decimalValue (ascii "401")=401 := by decide +kernel
    rw [guarded_refused env.auth h.dumpsErrors getInfo.origin _ hcheck]
    refine ⟨⟨_,rfl⟩,refusal getInfo.origin,⟨401,text⟩,rfl,?_,rfl⟩
    unfold refusal delivered
    dsimp only
    rw [htext,hcode]
    rfl
  | ok id =>
    have hdigits := h.decimal _ _ _ hcheck
    obtain ⟨text,htext⟩ := Option.isSome_iff_exists.mp (h.dumpsIds id hdigits)
    have hsent : sendReply env.auth (.answerJson getInfo.origin (idBody id)) world=
        ⟨.ok (),world,[.sent (.answerJson getInfo.origin (idBody id))]⟩ := by
      have hbody : dumpText env.auth.dump (idBody id)=.ok text := by
        unfold dumpText
        rw [htext]
      unfold sendReply Reply.render
      dsimp only
      rw [hbody]
      rfl
    have hcase : getCase env.auth getInfo id world=
        ⟨.ok (),world,[.sent (.answerJson getInfo.origin (idBody id))]⟩ := by
      unfold getCase
      rw [hmsg]
      change attempt (sendReply env.auth (.answerJson getInfo.origin (idBody id))) _ world=_
      unfold attempt
      rw [hsent]
    rw [guarded_ok env.auth (getCase env.auth getInfo) hcheck,hcase]
    refine ⟨⟨_,rfl⟩,.answerJson getInfo.origin (idBody id),⟨200,text⟩,rfl,?_,?_⟩
    · unfold delivered
      dsimp only
      rw [htext]
      rfl
    · unfold verdict
      rw [if_pos rfl]
      dsimp only
      rw [h.readsBack id text hdigits htext]
      dsimp only
      rw [idMember_idBody hdigits]

/-- Without a Bearer it raises. -/
theorem turn_raises (h : Conforming env) (hwhole : buffer++chunk=request.inquiry env.userAgent)
    (hs : (request.inquiry env.userAgent).length ≤ maxSize)
    (hnone : bearer request.authorization.bytes=none) (world : σ) :
    turn env.auth buffer chunk world=⟨.error (.thrown (.runtimeError notFoundText)),world,[]⟩ := by
  have hparse := parse_inquiry_none env.userAgent request env.auth.setting hs h.agent hnone
  rw [←hwhole] at hs hparse
  rw [turn_eq env.auth hs]
  unfold serveBuffer
  rw [compute_error_bind_run hparse]

/-- A turn over a longer part of an inquiry than a string can hold raises. -/
theorem turn_outgrown {services : Services σ} (hs : maxSize<(buffer++chunk).length) (world : σ) :
    turn services buffer chunk world=⟨.error (.thrown .lengthError),world,[]⟩ := by
  unfold turn
  rw [compute_error_bind_run (show append buffer chunk=_ from if_neg (Nat.not_le.mpr hs))]

/-- A turn that holds at least seven bytes of an inquiry but not all of it
waits, when a string can hold them. -/
theorem turn_waits {services : Services σ} {userAgent : FieldValue} {rest : Bytes} (hrest : rest≠[])
    (hsplit : buffer++chunk++rest=request.inquiry userAgent) (hseven : 7 ≤ (buffer++chunk).length)
    (hs : (buffer++chunk).length ≤ maxSize) (world : σ) :
    turn services buffer chunk world=⟨.ok (buffer++chunk),world,[.waited]⟩ := by
  have htype := inquiry_getReqT userAgent request
  have hend := inquiry_endsAtBlankLine userAgent request
  rw [←hsplit] at htype hend
  have hparse := parse_incomplete services.setting (getReqT_cut htype hseven (by dsimp only; omega))
    (checkIsFullRequest_noBlank hs (noBlankLine_cut hend hrest) .get) (by simp)
  rw [turn_eq services hs,serveBuffer_notFullReq services world hparse]

end turns

section connections

variable {σ τ : Type} {env : Environment σ τ} {servers next : Servers σ}
  {action : TwoServers.Action σ τ}

/-- Steps keep what is known of every connection of the content server, if it
is known of all that await nothing and of every inquiry just written, stays
known while the log grows, and is kept by the turns over the inquiry. -/
theorem connections_of_step {known : List (Entry σ) → ℕ → Inquiry → Link → Prop}
    (hgrow : ∀ entry log number inquiry link,known log number inquiry link →
      known (entry::log) number inquiry link)
    (hfree : ∀ log number inquiry link,(∀ request,inquiry≠.awaiting request) →
      known log number inquiry link)
    (hwritten : ∀ log number request,
      known log number (.awaiting request) (.opened (request.inquiry env.userAgent)))
    (hserved : ∀ number request count world,action=.receives (.content number) count world →
      servers.inquiries number=.awaiting request →
      (servers.links (.content number)).ended=false → 0<count →
      count ≤ (servers.links (.content number)).inflight.length →
      known servers.log number (.awaiting request) (servers.links (.content number)) →
      known (.turn (.content number) ((servers.links (.content number)).buffer++
          (servers.links (.content number)).inflight.take count) world
          (turn env.auth (servers.links (.content number)).buffer
            ((servers.links (.content number)).inflight.take count) world).events::servers.log)
        number (.awaiting request) ((servers.links (.content number)).served count
          (turn env.auth (servers.links (.content number)).buffer
            ((servers.links (.content number)).inflight.take count) world)))
    (h : ∀ number,known servers.log number (servers.inquiries number)
      (servers.links (.content number))) (hstep : step env servers action=some next) (number : ℕ) :
    known next.log number (next.inquiries number) (next.links (.content number)) := by
  cases stepped_of_step hstep with
  | sent client bytes =>
    dsimp only
    rw [Function.update_of_ne (by simp)]
    exact h number
  | served peer count world hopen hpos hcount hbuffer =>
    dsimp only
    by_cases hpeer : peer=.content number
    · subst hpeer
      rw [Function.update_self]
      cases hinquiry : servers.inquiries number with
      | awaiting request =>
        exact hserved number request count world rfl hinquiry hopen hpos hcount (hinquiry ▸ h number)
      | _ => exact hfree _ _ _ _ nofun
    · rw [Function.update_of_ne (Ne.symm hpeer)]
      exact hgrow _ _ _ _ _ (h number)
  | asked other request world hidle =>
    dsimp only
    by_cases hother : number=other
    · subst hother
      rw [Function.update_self]
      refine hfree _ _ _ _ fun request => ?_
      unfold inquiryAfter
      split <;> nofun
    · rw [Function.update_of_ne hother]
      exact hgrow _ _ _ _ _ (h number)
  | written other request hasking =>
    dsimp only
    by_cases hother : number=other
    · subst hother
      rw [Function.update_self,Function.update_self]
      exact hwritten _ _ _
    · rw [Function.update_of_ne hother,
        Function.update_of_ne fun heq => hother (Peer.content.inj heq)]
      exact h number
  | broken other count request hasking =>
    dsimp only
    by_cases hother : number=other
    · subst hother
      rw [Function.update_self]
      exact hfree _ _ _ _ nofun
    · rw [Function.update_of_ne hother,
        Function.update_of_ne fun heq => hother (Peer.content.inj heq)]
      exact h number
  | dropped other action request hsends hawaiting =>
    dsimp only
    by_cases hother : number=other
    · subst hother
      rw [Function.update_self]
      exact hfree _ _ _ _ nofun
    · rw [Function.update_of_ne hother]
      exact h number
  | called other world request reply later serverReply id hawaiting hreplies hdelivered hverdict =>
    dsimp only
    by_cases hother : number=other
    · subst hother
      rw [Function.update_self]
      exact hfree _ _ _ _ nofun
    · rw [Function.update_of_ne hother]
      exact hgrow _ _ _ _ _ (h number)

/-- How far the turns over an awaited inquiry have come. -/
inductive Weighed (services : Services σ) (log : List (Entry σ)) (number : ℕ) (inquiry : Bytes)
    (link : Link) : Prop where
  /-- They wait for the rest of it. -/
  | waiting (hsplit : link.buffer++link.inflight=inquiry) (hrest : link.inflight≠[])
    (hseven : link.buffer=[] ∨ 7 ≤ link.buffer.length) (hreplies : link.replies=[])
    (hopen : link.ended=false)
  /-- The last one had all of it. -/
  | whole (world : σ) (buffer chunk : Bytes) (hwhole : buffer++chunk=inquiry)
    (hturn : .turn (.content number) inquiry world (turn services buffer chunk world).events ∈ log)
    (hdry : link.inflight=[])
    (hreplies : link.replies=AuthRequestRuns.replies (turn services buffer chunk world).events)
    (hended : link.ended=!(turn services buffer chunk world).outcome.isOk)
  /-- They had more of it than a string can hold. -/
  | outgrown (hlong : maxSize < inquiry.length) (hreplies : link.replies=[]) (hended : link.ended=true)

/-- What is known of a connection of the content server. -/
def Watched (env : Environment σ τ) (log : List (Entry σ)) (number : ℕ) (inquiry : Inquiry)
    (link : Link) : Prop :=
  ∀ request,inquiry=.awaiting request →
    Weighed env.auth log number (request.inquiry env.userAgent) link

/-- The turns stay where they are while the log grows. -/
theorem Weighed.cons {services : Services σ} {log : List (Entry σ)} {number : ℕ} {inquiry : Bytes}
    {link : Link} (h : Weighed services log number inquiry link) (entry : Entry σ) :
    Weighed services (entry::log) number inquiry link := by
  cases h with
  | waiting hsplit hrest hseven hreplies hopen =>
    exact .waiting hsplit hrest hseven hreplies hopen
  | whole world buffer chunk hwhole hturn hdry hreplies hended =>
    exact .whole world buffer chunk hwhole (List.mem_cons_of_mem _ hturn) hdry hreplies hended
  | outgrown hlong hreplies hended => exact .outgrown hlong hreplies hended

/-- A turn over more bytes of an inquiry brings them further. -/
theorem Weighed.served {services : Services σ} {log : List (Entry σ)} {number count : ℕ}
    {userAgent : FieldValue} {request : ClientRequest} {link : Link}
    (h : Weighed services log number (request.inquiry userAgent) link) (hopen : link.ended=false)
    (hpos : 0<count) (hcount : count ≤ link.inflight.length) (hstart : link.buffer=[] → 7 ≤ count)
    (world : σ) :
    Weighed services
      (.turn (.content number) (link.buffer++link.inflight.take count) world
        (turn services link.buffer (link.inflight.take count) world).events::log)
      number (request.inquiry userAgent)
      (link.served count (turn services link.buffer (link.inflight.take count) world)) := by
  cases h with
  | outgrown hlong hreplies hended =>
    rw [hopen] at hended
    cases hended
  | whole found buffer chunk hwhole hturn hdry hreplies hended =>
    rw [hdry,List.length_nil] at hcount
    omega
  | waiting hsplit hrest hseven hreplies hended =>
    have hparts : link.buffer++link.inflight.take count++link.inflight.drop count=
        request.inquiry userAgent := by
      rw [List.append_assoc,List.take_append_drop]
      exact hsplit
    obtain ⟨hinflight,hsent⟩ := LinkRuns.served_link link count
      (turn services link.buffer (link.inflight.take count) world)
    by_cases hlast : link.inflight.drop count=[]
    · rw [hlast,List.append_nil] at hparts
      refine .whole world link.buffer (link.inflight.take count) hparts ?_ (hinflight.trans hlast)
        ?_ ?_
      · rw [hparts]
        exact List.mem_cons_self
      · rw [hsent,hreplies,List.nil_append]
      · unfold Link.served
        cases (turn services link.buffer (link.inflight.take count) world).outcome <;> rfl
    · have hlength : 7 ≤ (link.buffer++link.inflight.take count).length := by
        rw [List.length_append,List.length_take]
        rcases hseven with hempty|hseven
        · have hfirst := hstart hempty
          omega
        · omega
      by_cases hs : (link.buffer++link.inflight.take count).length ≤ maxSize
      · rw [turn_waits hlast hparts hlength hs world]
        refine .waiting hparts hlast (Or.inr hlength) ?_ rfl
        exact (List.append_nil _).trans hreplies
      · rw [turn_outgrown (Nat.lt_of_not_le hs) world]
        refine .outgrown ?_ ((List.append_nil _).trans hreplies) rfl
        rw [←hparts,List.length_append]
        omega

/-- Every verdict in a log is the judgement of the token its request carries,
by a turn over its inquiry. -/
def Judged (env : Environment σ τ) (log : List (Entry σ)) : Prop :=
  ∀ number request id events,.called number request id events ∈ log →
    ∃ token world answered,bearer request.authorization.bytes=some token ∧
      .turn (.content number) (request.inquiry env.userAgent) world answered ∈ log ∧
      id=judgement env.auth token world

/-- They stay so while the log grows by other entries. -/
theorem Judged.cons {log : List (Entry σ)} (h : Judged env log) {entry : Entry σ}
    (hother : ∀ number request id events,entry≠.called number request id events) :
    Judged env (entry::log) := by
  intro number request id events hmem
  rcases List.mem_cons.mp hmem with heq|hmem
  · exact absurd heq.symm (hother number request id events)
  · obtain ⟨token,world,answered,htoken,hturn,hid⟩ := h number request id events hmem
    exact ⟨token,world,answered,htoken,List.mem_cons_of_mem _ hturn,hid⟩

/-- A connection whose turns had all of an inquiry has one reply, which is read
as the judgement of the token; without a token it has none. -/
theorem Weighed.judges (h : Conforming env) {log : List (Entry σ)} {number : ℕ}
    {request : ClientRequest} {link : Link}
    (hweighed : Weighed env.auth log number (request.inquiry env.userAgent) link) :
    link.replies=[] ∨ ∃ token world answered reply serverReply,
      bearer request.authorization.bytes=some token ∧
      .turn (.content number) (request.inquiry env.userAgent) world answered ∈ log ∧
      link.replies=[reply] ∧ delivered env.auth.dump reply=some serverReply ∧
      verdict env.content.jsonParse serverReply=.ok (judgement env.auth token world) := by
  cases hweighed with
  | waiting hsplit hrest hseven hreplies hopen => exact Or.inl hreplies
  | outgrown hlong hreplies hended => exact Or.inl hreplies
  | whole world buffer chunk hwhole hturn hdry hreplies hended =>
    by_cases hs : (request.inquiry env.userAgent).length ≤ maxSize
    · cases htoken : bearer request.authorization.bytes with
      | none =>
        rw [turn_raises h hwhole hs htoken world] at hreplies
        exact Or.inl hreplies
      | some token =>
        obtain ⟨_,reply,serverReply,hone,hdelivered,hverdict⟩ := turn_judges h hwhole hs htoken world
        exact Or.inr ⟨token,world,_,reply,serverReply,rfl,hturn,hreplies.trans hone,hdelivered,
          hverdict⟩
    · rw [←hwhole] at hs
      rw [turn_outgrown (Nat.lt_of_not_le hs) world] at hreplies
      exact Or.inl hreplies

/-- Steps keep the connections watched and the verdicts judged, when inquiries
start with seven bytes. -/
theorem step_judged (h : Conforming env)
    (hwatched : ∀ number,Watched env servers.log number (servers.inquiries number)
      (servers.links (.content number))) (hjudged : Judged env servers.log)
    (hstart : StartsWhole servers action) (hstep : step env servers action=some next) :
    (∀ number,Watched env next.log number (next.inquiries number) (next.links (.content number))) ∧
      Judged env next.log := by
  refine ⟨connections_of_step (fun entry _ _ _ _ hknown request hrequest =>
      (hknown request hrequest).cons entry) (fun _ _ _ _ hfree request hrequest =>
      absurd hrequest (hfree request)) ?_ ?_ hwatched hstep,?_⟩
  · intro log number request other hother
    cases hother
    exact .waiting rfl (inquiry_ne_nil env.userAgent request) (Or.inl rfl) rfl rfl
  · intro number request count world haction hawaiting hopen hpos hcount hknown other hother
    cases hother
    subst haction
    exact (hknown request rfl).served hopen hpos hcount hstart world
  · cases stepped_of_step hstep with
    | sent client bytes => exact hjudged
    | served peer count world hopen hpos hcount hbuffer => exact hjudged.cons nofun
    | asked number request world hidle => exact hjudged.cons nofun
    | written number request hasking => exact hjudged
    | broken number count request hasking => exact hjudged
    | dropped number action request hsends hawaiting => exact hjudged
    | called number world request reply later serverReply id hawaiting hreplies hdelivered hverdict =>
      intro other asked user events hmem
      rcases List.mem_cons.mp hmem with heq|hmem
      · cases heq
        rcases (hwatched number request hawaiting).judges h with hnone|
          ⟨token,found,answered,first,firstReply,htoken,hturn,hone,hfirst,hjudges⟩
        · rw [hnone] at hreplies
          cases hreplies
        · rw [hone] at hreplies
          cases hreplies
          cases hfirst.symm.trans hdelivered
          exact ⟨token,found,answered,htoken,List.mem_cons_of_mem _ hturn,
            Except.ok.inj (hverdict.symm.trans hjudges)⟩
      · obtain ⟨token,found,answered,htoken,hturn,hid⟩ := hjudged other asked user events hmem
        exact ⟨token,found,answered,htoken,List.mem_cons_of_mem _ hturn,hid⟩

/-- So do runs. -/
theorem judged_of_run (h : Conforming env) {actions : List (TwoServers.Action σ τ)}
    (hrun : run (step env) fresh actions=some servers)
    (hstart : EachMeets (step env) StartsWhole fresh actions) :
    (∀ number,Watched env servers.log number (servers.inquiries number)
      (servers.links (.content number))) ∧ Judged env servers.log :=
  run_invariant (fun _ _ _ hknown hwhole hstep => step_judged h hknown.1 hknown.2 hwhole hstep)
    ⟨fun _ _ hnone => Inquiry.noConfusion hnone,fun _ _ _ _ hmem =>
      absurd hmem List.not_mem_nil⟩ hstart hrun

/-- An awaited inquiry with a token has bytes that the server has not taken in,
or the reply that says the judgement of the token. -/
def Replied (env : Environment σ τ) (servers : Servers σ) (number : ℕ) (request : ClientRequest)
    (token : Bytes) : Prop :=
  ((servers.links (.content number)).inflight≠[] ∧ (servers.links (.content number)).replies=[]) ∨
    ∃ world answered reply serverReply,
      .turn (.content number) (request.inquiry env.userAgent) world answered ∈ servers.log ∧
      (servers.links (.content number)).replies=[reply] ∧
      delivered env.auth.dump reply=some serverReply ∧
      verdict env.content.jsonParse serverReply=.ok (judgement env.auth token world)

/-- In every run in which the first recv for every inquiry returns at least
seven bytes, the content server calls back only with the judgement of the
token that the Authorization field carries; an awaited inquiry that the server
has taken in whole has the reply that says so, and one without a token has no
reply. -/
theorem verdicts_judge (h : Conforming env) {actions : List (TwoServers.Action σ τ)}
    (hrun : run (step env) fresh actions=some servers)
    (hstart : EachMeets (step env) StartsWhole fresh actions) :
    Judged env servers.log ∧ ∀ number request,servers.inquiries number=.awaiting request →
      (request.inquiry env.userAgent).length ≤ maxSize →
      match bearer request.authorization.bytes with
      | some token => Replied env servers number request token
      | none => (servers.links (.content number)).replies=[] := by
  have hreached := judged_of_run h hrun hstart
  refine ⟨hreached.2,fun number request hawaiting hs => ?_⟩
  have hweighed := hreached.1 number request hawaiting
  cases hweighed with
  | outgrown hlong hreplies hended => omega
  | waiting hsplit hrest hseven hreplies hopen =>
    cases bearer request.authorization.bytes with
    | none => exact hreplies
    | some token => exact Or.inl ⟨hrest,hreplies⟩
  | whole world buffer chunk hwhole hturn hdry hreplies hended =>
    cases htoken : bearer request.authorization.bytes with
    | none =>
      rw [turn_raises h hwhole hs htoken world] at hreplies
      exact hreplies
    | some token =>
      obtain ⟨_,reply,serverReply,hone,hdelivered,hverdict⟩ := turn_judges h hwhole hs htoken world
      exact Or.inr ⟨world,_,reply,serverReply,hturn,hreplies.trans hone,hdelivered,hverdict⟩

/-- The sample libraries conform. -/
theorem conforming_withBob : Conforming withBob where
  readsBack := readsBack_withBob
  decimal := decimalSubjects_withBob
  dumpsIds _ _ := rfl
  dumpsErrors _ _ := rfl
  agent := by decide +kernel

/-- A client's request up to the reply to its inquiry, received in two parts. -/
def untilReply : List (TwoServers.Action ℕ Unit) :=
  [.asks 0 (postsRequest honestField) (),.writes 0,.receives (.content 0) 10 0,
    .receives (.content 0) 185 0]

/-- Token and length of an awaited inquiry. -/
def awaitedToken (servers : Servers ℕ) (number : ℕ) : Option (Option Bytes×ℕ) :=
  match servers.inquiries number with
  | .awaiting request =>
    some (bearer request.authorization.bytes,(request.inquiry withBob.userAgent).length)
  | _ => none

/-- The inquiry with a token has its reply. -/
theorem verdicts_judge_posts :
    ∃ servers request,run (step withBob) fresh untilReply=some servers ∧
      servers.inquiries 0=.awaiting request ∧ Judged withBob servers.log ∧
      Replied withBob servers 0 request (annToken 0 accessLifetime) ∧
      (servers.links (.content 0)).replies.length=1 := by
  have hmap : (run (step withBob) fresh untilReply).map (fun servers =>
      (awaitedToken servers 0,(servers.links (.content 0)).replies.length))=
      some (some (some (annToken 0 accessLifetime),195),1) := by decide +kernel
  have hstart : EachMeets (step withBob) StartsWhole fresh untilReply := by decide +kernel
  obtain ⟨servers,hrun,hseen⟩ := Option.map_eq_some_iff.mp hmap
  obtain ⟨hstate,hone⟩ := Prod.mk.inj hseen
  obtain ⟨hjudged,hreplied⟩ := verdicts_judge conforming_withBob hrun hstart
  unfold awaitedToken at hstate
  split at hstate
  · next request hawaiting =>
    obtain ⟨htoken,hlength⟩ := Prod.mk.inj (Option.some.inj hstate)
    have hjudges := hreplied 0 request hawaiting (by rw [hlength]; decide)
    rw [htoken] at hjudges
    exact ⟨servers,request,hrun,hawaiting,hjudged,hjudges,hone⟩
  · cases hstate

end connections

end Photogram.Verdicts
