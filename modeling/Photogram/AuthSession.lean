import Photogram.AuthDispatch

/-!
# Sessions

A login hands out a refresh token and an access token, and every answered
renewal one more access token for the subject of the token it is given. The
checkers do not tell the two kinds of tokens apart, so a session ends with
its refresh token only if no access token is renewed after that.
-/

namespace Photogram.AuthSession

open CxxString EffectLog JsonValue JwtToken AuthResponse AuthHttpParser AuthConnection AuthDispatch

/-- Access token an event hands to the client. -/
def handedOut : Event → Option Bytes
  | .sent (.answerTokens _ _ accessToken _) => some accessToken
  | _ => none

/-- A renewal request, with the world its dispatch finds. -/
structure Renewal (σ : Type) where
  /-- The parsed request. -/
  getInfo : GetTInfo
  /-- The world of its dispatch. -/
  world : σ
  /-- The request asks for a new token. -/
  asks : getInfo.msg=.getNewToken

section sessions

variable {σ : Type} (services : Services σ)

/-- A dispatched login that found its user at a time and handed out two tokens. -/
def LoggedIn (postInfo : PostTInfo) (world : σ) (time : ℕ) (refresh access : Bytes) : Prop :=
  postInfo.msg=.login ∧ ∃ login password,textMember postInfo.jsonBody (ascii "login")=.ok login ∧
    textMember postInfo.jsonBody (ascii "password")=.ok password ∧
    time=services.now (services.call (.checkPassword login password) world).2 ∧
    ∃ origin nickname,.sent (.answerTokens origin refresh access nickname) ∈
      (dispatch services (.post postInfo) world).events

/-- Access tokens after a renewal. -/
def renew (tokens : List Bytes) (renewal : Renewal σ) : List Bytes :=
  tokens++(dispatch services (.get renewal.getInfo) renewal.world).events.filterMap handedOut

/-- Access tokens obtained from a login and the renewals behind it. -/
def obtained (access : Bytes) (renewals : List (Renewal σ)) : List Bytes :=
  renewals.foldl (renew services) [access]

/-- Every renewal presents the refresh token or an access token obtained before. -/
def Presents (refresh : Bytes) : List Bytes → List (Renewal σ) → Prop
  | _,[] => True
  | tokens,renewal::rest =>
    renewal.getInfo.refreshToken ∈ refresh::tokens ∧
      Presents refresh (renew services tokens renewal) rest

/-- A renewal by another token than the refresh token happens in a second
that begins within the lifetime of the login. -/
def Timely (time : ℕ) (refresh : Bytes) (renewal : Renewal σ) : Prop :=
  renewal.getInfo.refreshToken≠refresh →
    numericDate (services.now renewal.world)*ticksPerSecond ≤ time+refreshLifetime

/-- No token of a list is accepted as access token later than a bound. -/
def EndsBy (bound : ℕ) (tokens : List Bytes) : Prop :=
  ∀ token ∈ tokens,∀ now id,checkAccessToken services.jwt token secret now=.ok id → now ≤ bound

end sessions

section replies

variable {σ : Type} (services : Services σ)

/-- Tokens handed out were made for one user at one time. -/
def MadeAt (time : ℕ) : Event → Prop
  | .sent (.answerTokens _ refresh access _) =>
    ∃ id,createRefreshToken services.jwt id secret time=.ok refresh ∧
      createAccessToken services.jwt id secret time=.ok access
  | _ => True

/-- An access token handed out was made at a time for the subject of a presented token. -/
def RenewedAt (presented : Bytes) (time : ℕ) : Event → Prop
  | .sent (.answerTokens _ _ access _) =>
    ∃ id,checkRefreshToken services.jwt presented secret time=.ok id ∧
      createAccessToken services.jwt id secret time=.ok access
  | _ => True

/-- The tokens of a login were made when its user was found. -/
theorem login_madeAt {postInfo : PostTInfo} {world : σ} {time : ℕ} {refresh access : Bytes}
    (h : LoggedIn services postInfo world time refresh access) :
    ∃ id,createRefreshToken services.jwt id secret time=.ok refresh ∧
      createAccessToken services.jwt id secret time=.ok access := by
  obtain ⟨hmsg,login,password,hlogin,hpassword,htime,origin,nickname,hsent⟩ := h
  have hrun : Triple (·=world) (dispatchPost services postInfo) (fun _ _ => True)
      (MadeAt services time) := by
    unfold dispatchPost
    rw [hmsg]
    dsimp only
    rw [hlogin,hpassword,compute_ok_bind_run rfl,compute_ok_bind_run rfl]
    refine triple_ending (triple_answering services (fun _ _ => trivial) ?_)
    refine triple_bind (triple_callDb services trivial) fun id => ?_
    refine triple_bind (triple_newToken services) fun refreshToken => ?_
    refine triple_bind (triple_newToken services) fun accessToken => ?_
    refine triple_bind (triple_callDb services trivial) fun nickname => ?_
    refine triple_sendReply services ?_
    rintro _ ⟨after,⟨haccess,hrefresh,before,rfl,hcall⟩,_⟩
    have hnow : services.now after=time := by rw [htime,hcall]
    rw [hnow] at haccess hrefresh
    exact ⟨id,hrefresh,haccess⟩
  exact (hrun world rfl).1 _ hsent

/-- The access token of a renewal was made for the subject of the token it presents. -/
theorem renewal_renewedAt (renewal : Renewal σ) :
    ∀ event ∈ (dispatch services (.get renewal.getInfo) renewal.world).events,
      RenewedAt services renewal.getInfo.refreshToken (services.now renewal.world) event := by
  have hrun : Triple (·=renewal.world) (dispatchGet services renewal.getInfo) (fun _ _ => True)
      (RenewedAt services renewal.getInfo.refreshToken (services.now renewal.world)) := by
    unfold dispatchGet getCase renewToken
    rw [renewal.asks]
    dsimp only
    refine triple_ending (triple_answering services (fun _ _ => trivial) ?_)
    refine triple_bind (triple_readWorld _) fun now => ?_
    refine triple_bind (triple_raising _) fun id => ?_
    refine triple_bind (triple_newToken services) fun accessToken => ?_
    refine triple_bind (triple_callDb services trivial) fun nickname => ?_
    refine triple_sendReply services ?_
    rintro _ ⟨after,⟨haccess,hchecked,hnow,rfl⟩,_⟩
    exact ⟨id,hnow ▸ hchecked,haccess⟩
  exact (hrun renewal.world rfl).1

end replies

section bounds

variable {σ : Type} (services : Services σ)

/-- An access token made in a second that begins within the lifetime of the login. -/
def MadeWithin (time : ℕ) (token : Bytes) : Prop :=
  ∃ id issued,createAccessToken services.jwt id secret issued=.ok token ∧
    numericDate issued*ticksPerSecond ≤ time+refreshLifetime

/-- Such a token is not accepted after the lifetime of the login and its own. -/
theorem madeWithin_accepted (hjwt : services.jwt.Verifies) {time now : ℕ} {token id : Bytes}
    (h : MadeWithin services time token)
    (haccepted : checkAccessToken services.jwt token secret now=.ok id) :
    now ≤ time+refreshLifetime+accessLifetime := by
  obtain ⟨subject,issued,hmade,hissued⟩ := h
  have hnow := ((checkAccessToken_signed hjwt hmade).mp haccepted).2
  have hexpiry := numericDate_add_accessLifetime issued
  omega

/-- A timely renewal hands out such tokens only. -/
theorem renew_madeWithin (hjwt : services.jwt.Verifies) {time : ℕ} {id refresh : Bytes}
    (hrefresh : createRefreshToken services.jwt id secret time=.ok refresh) {tokens : List Bytes}
    (htokens : ∀ token ∈ tokens,MadeWithin services time token) {renewal : Renewal σ}
    (htimely : Timely services time refresh renewal) :
    ∀ token ∈ renew services tokens renewal,MadeWithin services time token := by
  intro token hmem
  rcases List.mem_append.mp hmem with hmem|hmem
  · exact htokens token hmem
  · obtain ⟨event,hevent,htoken⟩ := List.mem_filterMap.mp hmem
    have hrenewed := renewal_renewedAt services renewal event hevent
    unfold handedOut at htoken
    split at htoken
    · cases htoken
      obtain ⟨subject,hchecked,hmade⟩ := hrenewed
      refine ⟨subject,_,hmade,?_⟩
      by_cases hpresented : renewal.getInfo.refreshToken=refresh
      · rw [hpresented] at hchecked
        have hnow := ((checkAccessToken_signed hjwt hrefresh).mp
          ((checkRefreshToken_ok_iff _ _ _ _ _).mp hchecked)).2
        exact le_trans (numericDate_mul_le _) (le_trans hnow (numericDate_mul_le _))
      · exact htimely hpresented
    · cases htoken

/-- After timely renewals every access token is one made within the lifetime of the login. -/
theorem obtained_madeWithin (hjwt : services.jwt.Verifies) {time : ℕ} {id refresh : Bytes}
    (hrefresh : createRefreshToken services.jwt id secret time=.ok refresh)
    (renewals : List (Renewal σ)) :
    ∀ tokens : List Bytes,(∀ token ∈ tokens,MadeWithin services time token) →
      (∀ renewal ∈ renewals,Timely services time refresh renewal) →
        ∀ token ∈ renewals.foldl (renew services) tokens,MadeWithin services time token := by
  induction renewals with
  | nil => exact fun _ htokens _ => htokens
  | cons renewal rest ih =>
    intro tokens htokens htimely
    refine ih _ (renew_madeWithin services hjwt hrefresh htokens (htimely renewal ?_)) ?_
    · exact List.mem_cons_self
    · exact fun later hlater => htimely later (List.mem_cons_of_mem _ hlater)

/-- When every renewal by an access token is timely, no access token obtained
from a login is accepted later than seven days and fifteen minutes after it. -/
theorem session_ends (hjwt : services.jwt.Verifies) {postInfo : PostTInfo} {world : σ} {time : ℕ}
    {refresh access : Bytes} (hlogin : LoggedIn services postInfo world time refresh access)
    (renewals : List (Renewal σ))
    (htimely : ∀ renewal ∈ renewals,Timely services time refresh renewal) :
    EndsBy services (time+refreshLifetime+accessLifetime) (obtained services access renewals) := by
  obtain ⟨id,hrefresh,haccess⟩ := login_madeAt services hlogin
  intro token hmem now subject haccepted
  refine madeWithin_accepted services hjwt ?_ haccepted
  refine obtained_madeWithin services hjwt hrefresh renewals [access] ?_ htimely token hmem
  rintro _ hfirst
  rw [List.mem_singleton.mp hfirst]
  exact ⟨id,time,haccess,le_trans (numericDate_mul_le _) (Nat.le_add_right _ _)⟩

/-- A renewal in a later second hands out only tokens that outlive the bound. -/
theorem late_renewal (hjwt : services.jwt.Verifies) {time : ℕ} (renewal : Renewal σ)
    (hlate : time+refreshLifetime < numericDate (services.now renewal.world)*ticksPerSecond) :
    ∀ token ∈ renew services [] renewal,∃ now id,
      checkAccessToken services.jwt token secret now=.ok id ∧
        time+refreshLifetime+accessLifetime < now := by
  intro token hmem
  obtain ⟨event,hevent,htoken⟩ := List.mem_filterMap.mp hmem
  have hrenewed := renewal_renewedAt services renewal event hevent
  unfold handedOut at htoken
  split at htoken
  · cases htoken
    obtain ⟨subject,_,hmade⟩ := hrenewed
    refine ⟨_,subject,(checkAccessToken_signed hjwt hmade).mpr ⟨rfl,le_refl _⟩,?_⟩
    rw [numericDate_add_accessLifetime]
    omega
  · cases htoken

end bounds

section runs

/-- A server with one user, over the clock as its world. -/
def oneUser : Services ℕ where
  setting := ⟨fun _ => none,.lenient⟩
  jwt := lettersJwt
  now := id
  dump := dumpPlain
  call
    | .checkPassword _ _,clock => (.ok (ascii "1"),clock)
    | .getNicknameById _,clock => (.ok (ascii "ann"),clock)
    | _,clock => (.error (.runtimeError "500"),clock)

/-- The login of the user. -/
def annLogin : PostTInfo :=
  ⟨ascii " o",.login,
    .object [(ascii "login",.string (ascii "a@b")),(ascii "password",.string (ascii "p"))],
    [],∅,∅,[]⟩

/-- A token of the user with a lifetime. -/
def annToken (issued lifetime : ℕ) : Bytes :=
  letters 8 (numericDate issued)++letters 8 (numericDate (issued+lifetime))++ascii "1"++46::secret

/-- A renewal by a token at a time. -/
def renewalBy (token : Bytes) (clock : ℕ) : Renewal ℕ :=
  ⟨⟨ascii " o",.getNewToken,token,[],∅⟩,clock,rfl⟩

/-- The user logs in at the start of the clock. -/
theorem loggedIn_ann :
    LoggedIn oneUser annLogin 0 0 (annToken 0 refreshLifetime) (annToken 0 accessLifetime) := by
  refine ⟨rfl,ascii "a@b",ascii "p",rfl,rfl,rfl,ascii " o",ascii "ann",?_⟩
  have hrun : (dispatch oneUser (.post annLogin) 0).events=
      [.dbCall (.checkPassword (ascii "a@b") (ascii "p")),.dbCall (.getNicknameById (ascii "1")),
        .sent (.answerTokens (ascii " o") (annToken 0 refreshLifetime) (annToken 0 accessLifetime)
          (ascii "ann"))] := by rfl
  rw [hrun]
  exact List.mem_cons_of_mem _ (List.mem_cons_of_mem _ List.mem_cons_self)

/-- Renewed by its refresh token in its last moment, the session still ends in time. -/
theorem session_ends_refreshed :
    EndsBy oneUser (0+refreshLifetime+accessLifetime)
      (obtained oneUser (annToken 0 accessLifetime)
        [renewalBy (annToken 0 refreshLifetime) refreshLifetime]) :=
  session_ends oneUser verifies_lettersJwt loggedIn_ann _ fun renewal hmem => by
    rw [List.mem_singleton.mp hmem]
    exact fun h => absurd rfl h

/-- Renewed once more by the access token of that renewal, it does not. -/
theorem session_prolonged :
    oneUser.jwt.Verifies ∧
      LoggedIn oneUser annLogin 0 0 (annToken 0 refreshLifetime) (annToken 0 accessLifetime) ∧
      Presents oneUser (annToken 0 refreshLifetime) [annToken 0 accessLifetime]
        [renewalBy (annToken 0 refreshLifetime) refreshLifetime,
          renewalBy (annToken refreshLifetime accessLifetime) (refreshLifetime+accessLifetime)] ∧
      ¬EndsBy oneUser (0+refreshLifetime+accessLifetime)
        (obtained oneUser (annToken 0 accessLifetime)
          [renewalBy (annToken 0 refreshLifetime) refreshLifetime,
            renewalBy (annToken refreshLifetime accessLifetime)
              (refreshLifetime+accessLifetime)]) := by
  refine ⟨verifies_lettersJwt,loggedIn_ann,⟨by decide +kernel,by decide +kernel,trivial⟩,?_⟩
  intro h
  have hnow := h (annToken (refreshLifetime+accessLifetime) accessLifetime) (by decide +kernel)
    (refreshLifetime+accessLifetime+accessLifetime) (ascii "1") (by decide +kernel)
  exact absurd hnow (by decide +kernel)

end runs

end Photogram.AuthSession
