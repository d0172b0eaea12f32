import Photogram.AuthGuard
import Photogram.ServedOnce

/-!
# Where tokens come from

Tokens are handed out by logins and renewals. As long as nobody presents a
token the server has not handed out before, each subject it accepts logged in
earlier with a password, however many renewals lie between, and so did each
user the content server acts for.
-/

namespace Photogram.TokenOrigins

open CxxString EffectLog JsonValue JwtToken AuthResponse AuthHttpParser AuthConnection AuthDispatch
open AuthGuard AuthSession ContentConnection Schedule TwoServers ServedOnce

/-- Tokens an event hands out. -/
def tokensIn : Event → List Bytes
  | .sent (.answerTokens _ refreshToken accessToken _) => [refreshToken,accessToken]
  | _ => []

section dispatching

variable {σ : Type} (services : Services σ)

/-- Tokens a login hands out are made for the key its password is checked for. -/
def MadeByLogin (postInfo : PostTInfo) (world : σ) : Event → Prop
  | .sent (.answerTokens _ refreshToken accessToken _) =>
    ∃ login password id time,textMember postInfo.jsonBody (ascii "login")=.ok login ∧
      textMember postInfo.jsonBody (ascii "password")=.ok password ∧
      (services.call (.checkPassword login password) world).1=.ok id ∧
      createRefreshToken services.jwt id secret time=.ok refreshToken ∧
      createAccessToken services.jwt id secret time=.ok accessToken
  | _ => True

/-- A renewal hands the presented token out again, and a token for its subject. -/
def MadeByRenewal (getInfo : GetTInfo) (world : σ) : Event → Prop
  | .sent (.answerTokens _ refreshToken accessToken _) => refreshToken=getInfo.refreshToken ∧
    ∃ id,checkRefreshToken services.jwt refreshToken secret (services.now world)=.ok id ∧
      createAccessToken services.jwt id secret (services.now world)=.ok accessToken
  | _ => True

/-- The event hands no token out. -/
def Tokenless (event : Event) : Prop := tokensIn event=[]

variable {services}

/-- Tokens of a login. -/
theorem login_made {postInfo : PostTInfo} (hmsg : postInfo.msg=.login) (world : σ) :
    ∀ event ∈ (dispatchPost services postInfo world).events,
      MadeByLogin services postInfo world event := by
  have hrun : Triple (·=world) (dispatchPost services postInfo) (fun _ _ => True)
      (MadeByLogin services postInfo world) := by
    unfold dispatchPost
    rw [hmsg]
    refine triple_ending (triple_answering services (fun _ _ => trivial) ?_)
    refine triple_bind (triple_compute _) fun login => ?_
    refine triple_bind (triple_compute _) fun password => ?_
    refine triple_bind (triple_callDb services trivial) fun id => ?_
    refine triple_bind (triple_newToken services) fun refreshToken => ?_
    refine triple_bind (triple_newToken services) fun accessToken => ?_
    refine triple_bind (triple_callDb services trivial) fun nickname => ?_
    refine triple_sendReply services ?_
    rintro _ ⟨after,⟨haccess,hrefresh,before,⟨hpassword,hlogin,rfl⟩,hcall⟩,_⟩
    exact ⟨login,password,id,_,hlogin,hpassword,congrArg Prod.fst hcall,hrefresh,haccess⟩
  exact (hrun world rfl).1

/-- Tokens of a renewal. -/
theorem renewal_made {getInfo : GetTInfo} (hmsg : getInfo.msg=.getNewToken) (world : σ) :
    ∀ event ∈ (dispatchGet services getInfo world).events,
      MadeByRenewal services getInfo world event := by
  have hrun : Triple (·=world) (dispatchGet services getInfo) (fun _ _ => True)
      (MadeByRenewal services getInfo world) := by
    unfold dispatchGet getCase renewToken
    rw [hmsg]
    refine triple_ending (triple_answering services (fun _ _ => trivial) ?_)
    refine triple_bind (triple_readWorld _) fun now => ?_
    refine triple_bind (triple_raising _) fun id => ?_
    refine triple_bind (triple_newToken services) fun accessToken => ?_
    refine triple_bind (triple_callDb services trivial) fun nickname => ?_
    refine triple_sendReply services ?_
    rintro _ ⟨after,⟨haccess,hchecked,hnow,rfl⟩,_⟩
    exact ⟨rfl,id,hnow ▸ hchecked,haccess⟩
  exact (hrun world rfl).1

/-- A call with its answer sent hands no token out, unless the answer does. -/
theorem tokenless_reply {call : DbCall} {reply : call.Answer → Reply}
    (hreply : ∀ answer,Tokenless (.sent (reply answer))) :
    Emits (callDb services call>>=fun answer => sendReply services (reply answer)) Tokenless :=
  emits_bind (emits_callDb services call rfl) fun answer => emits_sendReply services _ (hreply answer)

/-- Nor does a call that is answered without a body. -/
theorem tokenless_done (call : DbCall) (origin : Bytes) :
    Emits (callDb services call>>=fun _ => sendReply services (.answerEmpty origin)) Tokenless :=
  emits_bind (emits_callDb services call rfl) fun _ => emits_sendReply services _ rfl

/-- A case hands no token out when its body does not. -/
theorem tokenless_answering {origin : Bytes} {errors : CxxException → ErrorAnswer}
    {body : Handler σ Unit} (h : Emits body Tokenless) :
    Emits (answering services origin errors body) Tokenless :=
  emits_attempt h fun _ => emits_sendReply services _ rfl

/-- A guarded case hands no token out when its body does not. -/
theorem tokenless_guarded {origin token : Bytes} {body : Bytes → Handler σ Unit}
    (h : ∀ id,Emits (body id) Tokenless) (world : σ) :
    ∀ event ∈ (guarded services origin token body world).events,Tokenless event := by
  cases hcheck : checkAccessToken services.jwt token secret (services.now world) with
  | error e =>
    obtain ⟨events,hrun,hsent⟩ := guarded_error services origin body hcheck
    rw [hrun]
    intro event hmem
    rw [hsent event hmem]
    rfl
  | ok id =>
    rw [guarded_ok services body hcheck]
    exact List.forall_mem_cons.mpr ⟨rfl,(h id).events world⟩

/-- No GET message but a renewal hands tokens out. -/
theorem tokenless_getCase (getInfo : GetTInfo) (id : Bytes) (h : getInfo.msg≠.getNewToken) :
    Emits (getCase services getInfo id) Tokenless := by
  unfold getCase
  cases hmsg : getInfo.msg with
  | getNewToken => exact absurd hmsg h
  | getProfileByNickname => exact tokenless_answering (tokenless_reply fun _ => rfl)
  | getProfilePhoto => exact tokenless_answering (tokenless_reply fun _ => rfl)
  | getUsersList => exact tokenless_answering (tokenless_reply fun _ => rfl)
  | getPhotoById =>
    exact tokenless_answering (emits_bind (emits_compute _ _) fun _ => tokenless_reply fun _ => rfl)
  | makeFriend => exact tokenless_answering (tokenless_reply fun _ => rfl)
  | deleteFriend => exact tokenless_answering (tokenless_reply fun _ => rfl)
  | getStatus =>
    exact tokenless_answering (emits_bind (emits_compute _ _) fun _ => tokenless_reply fun _ => rfl)
  | getIdFsByAccess => exact tokenless_answering (emits_sendReply services _ rfl)

/-- No POST message but a login hands tokens out. -/
theorem tokenless_dispatchPost {postInfo : PostTInfo} (h : postInfo.msg≠.login) (world : σ) :
    ∀ event ∈ (dispatchPost services postInfo world).events,Tokenless event := by
  unfold dispatchPost
  cases hmsg : postInfo.msg with
  | login => exact absurd hmsg h
  | registration =>
    exact (emits_bind (tokenless_answering (tokenless_done _ _)) fun _ => emits_pure _ _).events
      world
  | updateProfilePhoto =>
    exact tokenless_guarded (fun id => tokenless_answering (tokenless_done _ _)) world
  | updateProfileData =>
    exact tokenless_guarded (fun id => tokenless_answering (tokenless_done _ _)) world
  | updateProfilePassword =>
    dsimp only
    cases hbody : postInfo.jsonBody.getString with
    | error failure =>
      rw [compute_error_bind_run rfl]
      exact fun _ hmem => absurd hmem List.not_mem_nil
    | ok hashedPassword =>
      rw [compute_ok_bind_run rfl]
      exact tokenless_guarded (fun id => tokenless_answering (tokenless_done _ _)) world

/-- Tokens are handed out by logins and renewals only. -/
theorem dispatch_tokens {info : HttpTypesInfo} {world : σ} {event : Event} {token : Bytes}
    (h : event ∈ (dispatch services info world).events) (htoken : token ∈ tokensIn event) :
    (∃ postInfo,info=.post postInfo ∧ postInfo.msg=.login ∧
        MadeByLogin services postInfo world event) ∨
      ∃ getInfo,info=.get getInfo ∧ getInfo.msg=.getNewToken ∧
        MadeByRenewal services getInfo world event := by
  have hnone : ¬Tokenless event := by
    intro hnone
    rw [hnone] at htoken
    exact absurd htoken List.not_mem_nil
  cases info with
  | monostate => exact absurd h List.not_mem_nil
  | options optionsInfo =>
    have hsent : Emits (dispatch services (.options optionsInfo)) Tokenless :=
      emits_bind (emits_sendReply services _ rfl) fun _ => emits_pure _ _
    exact absurd (hsent.events world _ h) hnone
  | post postInfo =>
    by_cases hmsg : postInfo.msg=.login
    · exact Or.inl ⟨postInfo,rfl,hmsg,login_made hmsg world event h⟩
    · exact absurd (tokenless_dispatchPost hmsg world event h) hnone
  | get getInfo =>
    by_cases hmsg : getInfo.msg=.getNewToken
    · exact Or.inr ⟨getInfo,rfl,hmsg,renewal_made hmsg world event h⟩
    · change event ∈ (dispatchGet services getInfo world).events at h
      rw [dispatchGet_guarded services hmsg] at h
      exact absurd (tokenless_guarded (fun id => tokenless_getCase getInfo id hmsg) world event h)
        hnone

end dispatching

section logs

variable {σ τ : Type}

/-- Tokens an entry hands out. -/
def tokensOf : Entry σ → List Bytes
  | .turn _ _ _ events => events.flatMap tokensIn
  | _ => []

/-- Tokens handed out in a log. -/
def issued (log : List (Entry σ)) : List Bytes := log.flatMap tokensOf

/-- A turn dispatched the login of a user with the right password. -/
def LoggedInAs (auth : Services σ) (id : Bytes) : Entry σ → Prop
  | .turn _ _ world events => ∃ postInfo login password,.dispatched (.post postInfo) ∈ events ∧
      postInfo.msg=.login ∧ textMember postInfo.jsonBody (ascii "login")=.ok login ∧
      textMember postInfo.jsonBody (ascii "password")=.ok password ∧
      (auth.call (.checkPassword login password) world).1=.ok id
  | _ => False

/-- Tokens an event presents: as accepted access tokens, or to be renewed. -/
def presentedIn : Event → List Bytes
  | .tokenAccepted accessToken _ => [accessToken]
  | .dispatched (.get getInfo) => if getInfo.msg=.getNewToken then [getInfo.refreshToken] else []
  | _ => []

/-- Each token that an entry presents and that is accepted was handed out before. -/
def HandedOutBefore (auth : Services σ) (earlier : List (Entry σ)) : Entry σ → Prop
  | .turn _ _ world events => ∀ token ∈ events.flatMap presentedIn,
      (checkAccessToken auth.jwt token secret (auth.now world)).isOk=true → token ∈ issued earlier
  | _ => True

/-- Nobody presents a token that was not handed out before. -/
def Unforged (auth : Services σ) : List (Entry σ) → Prop
  | [] => True
  | entry::earlier => HandedOutBefore auth earlier entry ∧ Unforged auth earlier

/-- The entry is a turn of the loop, or none of the authentication server. -/
def Genuine (auth : Services σ) : Entry σ → Prop
  | .turn _ buffered world events => ∃ buffer chunk,buffered=buffer++chunk ∧
      events=(turn auth buffer chunk world).events
  | _ => True

/-- Users an entry acts for: subjects of accepted tokens, and those an operation
of the content server is called for. -/
def actsFor : Entry σ → List Bytes
  | .turn _ _ _ events => events.filterMap subjectAccepted
  | .called _ _ _ events => events.filterMap userServed
  | .handled _ _ _ => []

/-- Every user an entry of a kind acts for logged in before. -/
def LoggedInBefore (auth : Services σ) (kind : Entry σ → Prop) : List (Entry σ) → Prop
  | [] => True
  | entry::earlier => (kind entry → ∀ id ∈ actsFor entry,∃ login ∈ earlier,
      LoggedInAs auth id login) ∧ LoggedInBefore auth kind earlier

/-- Subjects of the tokens that a log hands out are decimal numerals. -/
def DecimalIssued (auth : Services σ) (log : List (Entry σ)) : Prop :=
  ∀ token ∈ issued log,∀ now id,checkAccessToken auth.jwt token secret now=.ok id →
    ∀ digit ∈ id,isDigit digit

/-- Every token handed out was signed for a user who logged in. -/
def Rooted (auth : Services σ) (log : List (Entry σ)) : Prop :=
  ∀ token ∈ issued log,∃ id issuedAt lifetime,
    auth.jwt.sign (claimsFor id issuedAt lifetime) secret=.ok token ∧
      ∃ login ∈ log,LoggedInAs auth id login

variable {auth : Services σ} {log : List (Entry σ)}

/-- What a turn shows is judged, or behind its dispatched request. -/
theorem turn_dispatched {buffer chunk : Bytes} {world : σ} {event : Event}
    (h : event ∈ (turn auth buffer chunk world).events) :
    (event=.waited ∨ event=.discarded) ∨ ∃ info,
      (turn auth buffer chunk world).events=.dispatched info::(dispatch auth info world).events ∧
      (event=.dispatched info ∨ event ∈ (dispatch auth info world).events) := by
  rcases turn_events auth buffer chunk world with hjudged|⟨info,_,_,hevents⟩
  · exact Or.inl (hjudged event h)
  · refine Or.inr ⟨info,hevents,?_⟩
    rw [hevents] at h
    exact List.mem_cons.mp h

/-- Tokens a genuine turn hands out are signed for a user that logs in with it,
or for the subject of a token it accepts for renewal, or presented to it. -/
theorem turn_tokens {buffer chunk : Bytes} {world : σ} {token : Bytes}
    (h : token ∈ (turn auth buffer chunk world).events.flatMap tokensIn) :
    (∃ id issuedAt lifetime,auth.jwt.sign (claimsFor id issuedAt lifetime) secret=.ok token ∧
        ∀ peer,LoggedInAs auth id
          (.turn peer (buffer++chunk) world (turn auth buffer chunk world).events)) ∨
      ∃ presented id,presented ∈ (turn auth buffer chunk world).events.flatMap presentedIn ∧
        checkAccessToken auth.jwt presented secret (auth.now world)=.ok id ∧
        (token=presented ∨ ∃ issuedAt lifetime,
          auth.jwt.sign (claimsFor id issuedAt lifetime) secret=.ok token) := by
  obtain ⟨event,hevent,htoken⟩ := List.mem_flatMap.mp h
  rcases turn_dispatched hevent with hjudged|⟨info,hevents,hfirst|hbehind⟩
  · rcases hjudged with rfl|rfl
    · exact absurd htoken List.not_mem_nil
    · exact absurd htoken List.not_mem_nil
  · rw [hfirst] at htoken
    exact absurd htoken List.not_mem_nil
  have hdispatched : .dispatched info ∈ (turn auth buffer chunk world).events := by
    rw [hevents]
    exact List.mem_cons_self
  rcases dispatch_tokens hbehind htoken with ⟨postInfo,rfl,hmsg,hmade⟩|⟨getInfo,rfl,hmsg,hmade⟩
  · cases event with
    | sent reply =>
      cases reply with
      | answerTokens origin refreshToken accessToken nickname =>
        obtain ⟨login,password,id,time,hlogin,hpassword,hcall,hrefresh,haccess⟩ := hmade
        have hlogged : ∀ peer,LoggedInAs auth id
            (.turn peer (buffer++chunk) world (turn auth buffer chunk world).events) :=
          fun _ => ⟨postInfo,login,password,hdispatched,hmsg,hlogin,hpassword,hcall⟩
        rcases List.mem_cons.mp htoken with rfl|htoken
        · exact Or.inl ⟨id,time,_,hrefresh,hlogged⟩
        · rw [List.mem_singleton.mp htoken]
          exact Or.inl ⟨id,time,_,haccess,hlogged⟩
      | _ => exact absurd htoken List.not_mem_nil
    | _ => exact absurd htoken List.not_mem_nil
  · cases event with
    | sent reply =>
      cases reply with
      | answerTokens origin refreshToken accessToken nickname =>
        obtain ⟨hpresented,id,hchecked,haccess⟩ := hmade
        have hpresents :
            refreshToken ∈ (turn auth buffer chunk world).events.flatMap presentedIn := by
          have hrenewed : presentedIn (.dispatched (.get getInfo))=[getInfo.refreshToken] :=
            if_pos hmsg
          refine List.mem_flatMap.mpr ⟨_,hdispatched,?_⟩
          rw [hrenewed,hpresented]
          exact List.mem_singleton_self _
        have haccepted := (checkRefreshToken_ok_iff _ _ _ _ _).mp hchecked
        refine Or.inr ⟨refreshToken,id,hpresents,haccepted,?_⟩
        rcases List.mem_cons.mp htoken with rfl|htoken
        · exact Or.inl rfl
        · rw [List.mem_singleton.mp htoken]
          exact Or.inr ⟨_,_,haccess⟩
      | _ => exact absurd htoken List.not_mem_nil
    | _ => exact absurd htoken List.not_mem_nil

/-- A token is shown as accepted when it is. -/
theorem turn_accepted {buffer chunk : Bytes} {world : σ} {token id : Bytes}
    (h : .tokenAccepted token id ∈ (turn auth buffer chunk world).events) :
    checkAccessToken auth.jwt token secret (auth.now world)=.ok id := by
  rcases turn_dispatched h with hjudged|⟨info,_,hfirst|hbehind⟩
  · rcases hjudged with heq|heq <;> cases heq
  · cases hfirst
  have hevents := dispatch_events auth info world
  cases hrequired : requiredToken info with
  | none =>
    rw [hrequired] at hevents
    exact (hevents _ hbehind).elim
  | some required =>
    rw [hrequired] at hevents
    rcases hevents with hsent|⟨subject,rest,haccepted,heq,hrest⟩
    · exact (hsent _ hbehind).elim
    · rw [heq] at hbehind
      rcases List.mem_cons.mp hbehind with hhead|htail
      · cases hhead
        exact haccepted
      · exact (hrest _ htail).elim

/-- An accepted token that was handed out leads back to the login of its subject. -/
theorem Rooted.accepted (hjwt : auth.jwt.Verifies) (h : Rooted auth log) {token id : Bytes}
    {now : ℕ} (hissued : token ∈ issued log)
    (haccepted : checkAccessToken auth.jwt token secret now=.ok id) :
    ∃ login ∈ log,LoggedInAs auth id login := by
  obtain ⟨subject,issuedAt,lifetime,hsign,hlogin⟩ := h token hissued
  rw [((checkAccessToken_signed hjwt hsign).mp haccepted).1]
  exact hlogin

/-- A login stays in the log. -/
theorem exists_login_cons {id : Bytes} (entry : Entry σ)
    (h : ∃ login ∈ log,LoggedInAs auth id login) :
    ∃ login ∈ entry::log,LoggedInAs auth id login := by
  obtain ⟨login,hmem,hlogin⟩ := h
  exact ⟨login,List.mem_cons_of_mem _ hmem,hlogin⟩

/-- Tokens stay rooted while the log grows by genuine entries without forgery. -/
theorem Rooted.cons (hjwt : auth.jwt.Verifies) (h : Rooted auth log) {entry : Entry σ}
    (hgenuine : Genuine auth entry) (hbefore : HandedOutBefore auth log entry) :
    Rooted auth (entry::log) := by
  intro token hmem
  rcases List.mem_append.mp hmem with hnew|hold
  · cases entry with
    | turn peer buffered world events =>
      obtain ⟨buffer,chunk,rfl,rfl⟩ := hgenuine
      rcases turn_tokens hnew with ⟨id,issuedAt,lifetime,hsign,hlogged⟩|
        ⟨presented,id,hpresents,haccepted,htoken⟩
      · exact ⟨id,issuedAt,lifetime,hsign,_,List.mem_cons_self,hlogged peer⟩
      · have hissued := hbefore presented hpresents (by rw [haccepted]; rfl)
        rcases htoken with rfl|⟨issuedAt,lifetime,hsign⟩
        · obtain ⟨subject,issuedAt,lifetime,hsign,hlogin⟩ := h token hissued
          exact ⟨subject,issuedAt,lifetime,hsign,exists_login_cons _ hlogin⟩
        · exact ⟨id,issuedAt,lifetime,hsign,
            exists_login_cons _ (h.accepted hjwt hissued haccepted)⟩
    | handled number request events => exact absurd hnew List.not_mem_nil
    | called number request id events => exact absurd hnew List.not_mem_nil
  · obtain ⟨id,issuedAt,lifetime,hsign,hlogin⟩ := h token hold
    exact ⟨id,issuedAt,lifetime,hsign,exists_login_cons _ hlogin⟩

/-- Without forgery every token of a genuine log is rooted. -/
theorem rooted_of_unforged (hjwt : auth.jwt.Verifies) (hgenuine : ∀ entry ∈ log,Genuine auth entry)
    (h : Unforged auth log) : Rooted auth log := by
  induction log with
  | nil => exact fun token hmem => absurd hmem List.not_mem_nil
  | cons entry earlier ih =>
    obtain ⟨hfirst,hrest⟩ := List.forall_mem_cons.mp hgenuine
    exact (ih hrest h.2).cons hjwt hfirst h.1

/-- A token that a turn of an unforged log accepts is handed out in the log. -/
theorem Unforged.issued (h : Unforged auth log) {peer : Peer} {buffered : Bytes} {world : σ}
    {events : List Event} {token id : Bytes} (hmem : .turn peer buffered world events ∈ log)
    (haccepted : .tokenAccepted token id ∈ events)
    (hchecked : checkAccessToken auth.jwt token secret (auth.now world)=.ok id) :
    token ∈ TokenOrigins.issued log := by
  induction log with
  | nil => exact absurd hmem List.not_mem_nil
  | cons entry earlier ih =>
    refine List.mem_append_right _ ?_
    rcases List.mem_cons.mp hmem with rfl|hmem
    · exact h.1 token (List.mem_flatMap.mpr ⟨_,haccepted,List.mem_singleton_self token⟩)
        (by rw [hchecked]; rfl)
    · exact ih h.2 hmem

/-- Where their subjects are decimal numerals, so are the ids that inquiries are answered with. -/
theorem DecimalIssued.answers (h : DecimalIssued auth log) (hunforged : Unforged auth log) :
    DecimalAnswers auth log := by
  rintro peer buffered world events id hmem ⟨getInfo,_,_,haccepted,hchecked,_⟩
  exact h _ (hunforged.issued hmem haccepted hchecked) _ id hchecked

/-- The entry is a turn of the authentication server. -/
def IsTurn : Entry σ → Prop
  | .turn _ _ _ _ => True
  | _ => False

/-- Every subject a turn accepts logged in before. -/
theorem turns_logged_in (hjwt : auth.jwt.Verifies) (hgenuine : ∀ entry ∈ log,Genuine auth entry)
    (h : Unforged auth log) : LoggedInBefore auth IsTurn log := by
  induction log with
  | nil => exact trivial
  | cons entry earlier ih =>
    obtain ⟨hfirst,hrest⟩ := List.forall_mem_cons.mp hgenuine
    refine ⟨fun hturn id hid => ?_,ih hrest h.2⟩
    cases entry with
    | turn peer buffered world events =>
      obtain ⟨buffer,chunk,rfl,rfl⟩ := hfirst
      obtain ⟨event,hevent,hsubject⟩ := List.mem_filterMap.mp hid
      unfold subjectAccepted at hsubject
      split at hsubject
      · next token accepted =>
        cases hsubject
        have haccepted := turn_accepted hevent
        have hpresented : token ∈ (turn auth buffer chunk world).events.flatMap presentedIn :=
          List.mem_flatMap.mpr ⟨_,hevent,List.mem_singleton_self token⟩
        exact (rooted_of_unforged hjwt hrest h.2).accepted hjwt
          (h.1 token hpresented (by rw [haccepted]; rfl)) haccepted
      · cases hsubject
    | handled number request events => exact hturn.elim
    | called number request id events => exact hturn.elim

/-- A user an entry of the log acts for logged in before that entry. -/
theorem LoggedInBefore.acts {kind : Entry σ → Prop} (h : LoggedInBefore auth kind log)
    {entry : Entry σ} (hmem : entry ∈ log) (hkind : kind entry) {id : Bytes}
    (hid : id ∈ actsFor entry) : ∃ login ∈ log,LoggedInAs auth id login := by
  induction log with
  | nil => exact absurd hmem List.not_mem_nil
  | cons first earlier ih =>
    rcases List.mem_cons.mp hmem with rfl|hmem
    · exact exists_login_cons _ (h.1 hkind id hid)
    · exact exists_login_cons _ (ih h.2 hmem)

/-- So did a subject accepted in a turn. -/
theorem LoggedInBefore.turn (h : LoggedInBefore auth IsTurn log) {peer : Peer} {buffered : Bytes}
    {world : σ} {events : List Event} (hmem : .turn peer buffered world events ∈ log)
    {token id : Bytes} (haccepted : .tokenAccepted token id ∈ events) :
    ∃ login ∈ log,LoggedInAs auth id login :=
  h.acts hmem trivial (List.mem_filterMap.mpr ⟨_,haccepted,rfl⟩)

/-- So did every user the content server acts for, where the log is vouched for. -/
theorem all_logged_in {env : Environment σ τ} (h : LoggedInBefore env.auth IsTurn log)
    (hvouched : Vouched env log) : LoggedInBefore env.auth (fun _ => True) log := by
  induction log with
  | nil => exact trivial
  | cons entry earlier ih =>
    refine ⟨fun _ id hid => ?_,ih h.2 hvouched.2⟩
    cases entry with
    | turn peer buffered world events => exact h.1 trivial id hid
    | handled number request events => exact absurd hid List.not_mem_nil
    | called number request user events =>
      obtain ⟨event,hevent,huser⟩ := List.mem_filterMap.mp hid
      cases event with
      | responded response => cases huser
      | operation op =>
        obtain ⟨hacting,world,answered,hturn,_,_,_,haccepted,_⟩ := hvouched.1 op hevent
        change op.actingUser=some id at huser
        have hid : id=user := by
          rcases hacting with hnobody|hsome
          · rw [hnobody] at huser
            cases huser
          · exact Option.some.inj (huser.symm.trans hsome)
        rw [hid]
        exact h.2.turn hturn haccepted

end logs

section runs

variable {σ τ : Type} {env : Environment σ τ}

/-- Every step logs genuine entries. -/
theorem step_genuine {servers next : Servers σ} {action : Action σ τ}
    (h : ∀ entry ∈ servers.log,Genuine env.auth entry) (hstep : step env servers action=some next) :
    ∀ entry ∈ next.log,Genuine env.auth entry := by
  cases stepped_of_step hstep with
  | sent client bytes => exact h
  | served peer count world hopen hpos hcount hbuffer =>
    exact List.forall_mem_cons.mpr ⟨⟨_,_,rfl,rfl⟩,h⟩
  | asked number request world hidle => exact List.forall_mem_cons.mpr ⟨trivial,h⟩
  | written number request hasking => exact h
  | broken number count request hasking => exact h
  | dropped number action request hsends hawaiting => exact h
  | called number world request reply later serverReply id hawaiting hreplies hdelivered hverdict =>
    exact List.forall_mem_cons.mpr ⟨trivial,h⟩

/-- The log of a run is genuine. -/
theorem genuine_of_run {actions : List (Action σ τ)} {final : Servers σ}
    (hrun : run (step env) fresh actions=some final) : ∀ entry ∈ final.log,Genuine env.auth entry :=
  run_invariant (fun _ _ _ h (_ : True) hstep => step_genuine h hstep)
    (fun _ hmem => absurd hmem List.not_mem_nil) (eachMeets_always (fun _ _ => trivial) _ _) hrun

/-- It is vouched for, if the first recv for every inquiry returns at least seven bytes. -/
theorem vouched_of_run (hread : ReadsBack env) {actions : List (Action σ τ)} {final : Servers σ}
    (hdecimal : DecimalAnswers env.auth final.log)
    (hstart : EachMeets (step env) StartsWhole fresh actions)
    (hrun : run (step env) fresh actions=some final) : Vouched env final.log := by
  have hkeep : ∀ (servers : Servers σ) (action : Action σ τ) (next : Servers σ),
      (DecimalAnswers env.auth servers.log → Honest env servers) → StartsWhole servers action →
      step env servers action=some next → DecimalAnswers env.auth next.log → Honest env next := by
    intro servers action next h hwhole hstep hlater
    have hbefore : DecimalAnswers env.auth servers.log :=
      fun peer buffered world events id hmem => hlater peer buffered world events id
        (log_subset hstep hmem)
    exact step_honest hread hbefore (h hbefore) hwhole hstep
  exact (run_invariant hkeep (fun _ => honest_fresh) hstart hrun hdecimal).vouched

/-- In a run in which nobody presents a token that was not handed out before,
every subject the authentication server accepts logged in earlier; and if the
first recv for every inquiry returns at least seven bytes, so did every user
the content server acts for. -/
theorem acts_for_logged_in (hjwt : env.auth.jwt.Verifies) {actions : List (Action σ τ)}
    {final : Servers σ} (hrun : run (step env) fresh actions=some final)
    (hunforged : Unforged env.auth final.log) :
    LoggedInBefore env.auth IsTurn final.log ∧
      (ReadsBack env → DecimalIssued env.auth final.log →
        EachMeets (step env) StartsWhole fresh actions →
          LoggedInBefore env.auth (fun _ => True) final.log) := by
  have hturns := turns_logged_in hjwt (genuine_of_run hrun) hunforged
  exact ⟨hturns,fun hread hdecimal hstart =>
    all_logged_in hturns (vouched_of_run hread (hdecimal.answers hunforged) hstart hrun)⟩

instance (auth : Services σ) (earlier : List (Entry σ)) :
    (entry : Entry σ) → Decidable (HandedOutBefore auth earlier entry)
  | .turn _ _ world events => inferInstanceAs (Decidable (∀ token ∈ events.flatMap presentedIn,
      (checkAccessToken auth.jwt token secret (auth.now world)).isOk=true → token ∈ issued earlier))
  | .handled _ _ _ => isTrue trivial
  | .called _ _ _ _ => isTrue trivial

/-- That nobody presents such a token can be decided entry by entry. -/
def decideUnforged (auth : Services σ) : (log : List (Entry σ)) → Decidable (Unforged auth log)
  | [] => isTrue trivial
  | _::earlier =>
    have : Decidable (Unforged auth earlier) := decideUnforged auth earlier
    inferInstanceAs (Decidable (_ ∧ _))

instance (auth : Services σ) (log : List (Entry σ)) : Decidable (Unforged auth log) :=
  decideUnforged auth log

/-- The two servers with a user who has a password. -/
def withAnn : Environment ℕ Unit := {withBob with auth := {withBob.auth with call := oneUser.call}}

/-- The login of that user. -/
def loginRequest : Bytes :=
  ascii "POST /login HTTP/1.1\r\nOrigin: o\r\nContent-Length: 30\r\n\r\n"++
    ascii "\x7b\"login\":\"a@b\",\"password\":\"p\"\x7d"

/-- The user logs in, and asks the content server for posts with the access token. -/
theorem acts_for_logged_in_ann :
    ∃ final,run (step withAnn) fresh ([.sends 3 loginRequest,.receives (.client 3) 85 0]++
        servedInParts (postsRequest honestField) [10,185])=some final ∧
      users final.log=[ascii "1"] ∧
      LoggedInBefore withAnn.auth (fun _ => True) final.log := by
  have hmap : (run (step withAnn) fresh ([.sends 3 loginRequest,.receives (.client 3) 85 0]++
      servedInParts (postsRequest honestField) [10,185])).map (fun final =>
        (users final.log,decide (Unforged withAnn.auth final.log)))=some ([ascii "1"],true) := by
    decide +kernel
  have hstart : EachMeets (step withAnn) StartsWhole fresh
      ([.sends 3 loginRequest,.receives (.client 3) 85 0]++
        servedInParts (postsRequest honestField) [10,185]) := by decide +kernel
  obtain ⟨final,hrun,hseen⟩ := Option.map_eq_some_iff.mp hmap
  obtain ⟨husers,hunforged⟩ := Prod.mk.inj hseen
  exact ⟨final,hrun,husers,(acts_for_logged_in verifies_lettersJwt hrun
    (of_decide_eq_true hunforged)).2 readsBack_withBob
    (fun token _ => decimalSubjects_withBob token) hstart⟩

end runs

end Photogram.TokenOrigins
