import Photogram.AuthTurns
import Photogram.NetworkReads
import Photogram.TokenOrigins

/-!
# What clients are told

Replies of the authentication server against the networks that the tables
found by a turn stand for. What a reply shows is an answer that one of them
gives to the call behind it, a nickname that is not found was nobody's, and
whoever has an account opens a session with it.
-/

namespace Photogram.AuthAnswers

open CxxString EffectLog JsonValue QueryString RowTable HttpReader JwtToken AuthResponse AuthHttpParser
open AuthConnection AuthDatabase AuthDispatch AuthReceive ContentPosts ListPages PagedQuery
open AuthStore SocialNetwork SharedStore StoreNetwork NetworkReads AuthProcess AuthTurns
open AuthRequestRuns (replies)
open AuthPhotos (notFound getProfilePhoto readPhoto)

section statements

variable (dialect : Dialect) (network : Network)

/-- Answers that a network gives to a call. -/
def Answers : (call : DbCall) → call.Answer → Prop
  | .checkPassword email password,id => ∃ userId account,
      LogsIn dialect network email password userId account ∧ id=numeral userId
  | .getNicknameById id,nickname => ∃ (userId : ℕ) (account : Account),
      dialect.readInteger id=some (userId : ℤ) ∧ network.accounts userId=some account ∧
      nickname=account.nickname
  | .getProfileInformation nickname,json => ∃ userId account isMale,
      network.accounts userId=some account ∧ account.nickname=nickname ∧
      dialect.readBoolean account.isMale=some isMale ∧ json=accountProfile userId account isMale
  | .getProfilePhoto nickname,photo => ∃ userId account picture,
      network.accounts userId=some account ∧ account.nickname=nickname ∧
      account.picture=some picture ∧ photo=(picture.photoType,picture.photo)
  | .getUsers properties id,json => ∃ caller,dialect.readInteger id=some caller ∧
      ListsPage dialect (Matches network dialect (property properties (ascii "substr")) caller)
        (fun _ _ => True) (fun found => accountElement network caller found.1 found.2)
        (property properties (ascii "LIMIT")) (property properties (ascii "OFFSET")) json
  | .getPhotoById id,photo => ∀ userId account picture,network.accounts userId=some account →
      account.picture=some picture → dialect.readInteger id=some (picture.id : ℤ) →
      photo=(picture.photoType,picture.photo)
  | .getStatus userId friendId,json => ∃ user friend,dialect.readInteger userId=some user ∧
      dialect.readInteger friendId=some friend ∧ json=.object [(ascii "status",.string
        (if network.friends user friend then ascii "friend" else ascii "stranger"))]
  | _,_ => True

end statements

section calls

variable {dialect : Dialect} {conditions : Conditions} {site : Site}

/-- A value behind a function is that of a value. -/
theorem exceptMap_ok {ε α β : Type} {f : α → β} {call : Except ε α} {value : β}
    (h : call.map f=.ok value) : ∃ found,call=.ok found ∧ value=f found := by
  cases call with
  | error e => cases h
  | ok found =>
    cases h
    exact ⟨found,rfl,rfl⟩

end calls

section told

variable (installation : Installation) (seen : Network → Prop)

/-- A network that is seen gives the answer to a call. -/
def Answered (call : DbCall) (answer : call.Answer) : Prop :=
  ∃ network,seen network ∧ Answers installation.dialect network call answer

/-- What a reply to a POST message tells: tokens are for a user whose password
was checked, and a write is acknowledged behind an accepted token. -/
def PostTells (postInfo : PostTInfo) (now : ℕ) : Reply → Prop
  | .answerTokens _ refreshToken accessToken nickname => ∃ login password id issued,
      textMember postInfo.jsonBody (ascii "login")=.ok login ∧
      textMember postInfo.jsonBody (ascii "password")=.ok password ∧
      Answered installation seen (.checkPassword login password) id ∧
      Answered installation seen (.getNicknameById id) nickname ∧
      createRefreshToken installation.jwt id secret issued=.ok refreshToken ∧
      createAccessToken installation.jwt id secret issued=.ok accessToken
  | .answerEmpty _ => postInfo.msg=.registration ∨ postInfo.msg≠.login ∧
      ∃ id,checkAccessToken installation.jwt postInfo.accessToken secret now=.ok id
  | .sendError _ _ _ => True
  | _ => False

/-- What a reply to a renewal tells: it renews the presented token. -/
def RenewalTells (getInfo : GetTInfo) (now : ℕ) : Reply → Prop
  | .answerTokens _ refreshToken accessToken nickname => refreshToken=getInfo.refreshToken ∧
      ∃ id,checkRefreshToken installation.jwt refreshToken secret now=.ok id ∧
        createAccessToken installation.jwt id secret now=.ok accessToken ∧
        Answered installation seen (.getNicknameById id) nickname
  | .sendError _ code _ => code=ascii "401"
  | _ => False

/-- Messages that look an account up. -/
def LooksUp (msg : EGetMsg) : Prop := msg=.getProfileByNickname ∨ msg=.getProfilePhoto

instance : DecidablePred LooksUp := fun _ => inferInstanceAs (Decidable (_ ∨ _))

/-- What a reply to another GET message tells the subject of its token: an
answer of a network, or that nobody in it has the nickname. -/
def GetTells (getInfo : GetTInfo) (id : Bytes) : Reply → Prop
  | .answerJson _ json =>
    match getInfo.msg with
    | .getProfileByNickname => Answered installation seen
        (.getProfileInformation (property getInfo.properties (ascii "nickname"))) json
    | .getUsersList => Answered installation seen (.getUsers getInfo.properties id) json
    | .getStatus => ∃ friendId,firstProperty getInfo.properties=.ok friendId ∧
        Answered installation seen (.getStatus id friendId) json
    | .getIdFsByAccess => json=.object [(ascii "id",.string id)]
    | _ => False
  | .answerBinData _ photoType photo =>
    match getInfo.msg with
    | .getProfilePhoto => Answered installation seen
        (.getProfilePhoto (property getInfo.properties (ascii "nickname"))) (photoType,photo)
    | .getPhotoById => ∃ photoId,firstProperty getInfo.properties=.ok photoId ∧
        Answered installation seen (.getPhotoById photoId) (photoType,photo)
    | _ => False
  | .answerEmpty _ => getInfo.msg=.makeFriend ∨ getInfo.msg=.deleteFriend
  | .sendError _ code _ => LooksUp getInfo.msg → code=ascii "404" →
      ∃ network,seen network ∧ ∀ userId account,network.accounts userId=some account →
        account.nickname≠property getInfo.properties (ascii "nickname")
  | _ => False

/-- What a reply to a request tells. -/
def Tells (now : ℕ) : HttpTypesInfo → Reply → Prop
  | .monostate,_ => False
  | .options optionsInfo,reply => reply=.answerOptions optionsInfo.origin
  | .post postInfo,reply => PostTells installation seen postInfo now reply
  | .get getInfo,reply =>
    if getInfo.msg=.getNewToken then RenewalTells installation seen getInfo now reply
    else reply=refusal getInfo.origin ∨
      ∃ id,checkAccessToken installation.jwt getInfo.accessToken secret now=.ok id ∧
        GetTells installation seen getInfo id reply

end told

section handlers

variable {installation : Installation} {seen : Network → Prop} {known : Prop} {allowed : Event → Prop}

/-- Every reply among the events tells the truth. -/
def Shown (tells : Reply → Prop) : Event → Prop
  | .sent reply => tells reply
  | _ => True

/-- Whatever tables a turn finds are sound and stand for a network that is seen. -/
def Held (seen : Network → Prop) (world : Surroundings) : Prop :=
  ∀ number,Sound (Site.opened (world.found number)) ∧ seen (networkOf (world.found number))

end handlers

section turns

variable {installation : Installation} {seen : Network → Prop} {world : Surroundings}
  {request received : Bytes}

/-- A call that is answered. -/
theorem callDb_ok {σ : Type} {services : Services σ} {call : DbCall} {world after : σ}
    {answer : call.Answer} (h : services.call call world=(.ok answer,after)) :
    callDb services call world=⟨.ok answer,after,[.dbCall call]⟩ := by
  have hcalled : callDb services call world=
      ⟨(services.call call world).1.mapError Failure.thrown,(services.call call world).2,
        [.dbCall call]⟩ := record_bind_run _ _ _
  rw [hcalled,h]
  rfl

/-- A token that is made. -/
theorem newToken_ok {σ : Type} {services : Services σ}
    {create : JwtLibrary → Bytes → Bytes → ℕ → Except CxxException Bytes} {id token : Bytes}
    {world : σ} (h : create services.jwt id secret (services.now world)=.ok token) :
    newToken services create id world=⟨.ok token,world,[]⟩ := by
  have hraise : raising (create services.jwt id secret (services.now world))=
      (compute (.ok token) : Handler σ Bytes) := by
    rw [h]
    rfl
  unfold newToken
  rw [bind_run_ok rfl,hraise]
  rfl

/-- Events of a login whose calls are answered and whose tokens are made. -/
theorem login_events {σ : Type} {services : Services σ} {postInfo : PostTInfo}
    (hmsg : postInfo.msg=.login) {login password id refresh access nickname : Bytes}
    {world between after : σ}
    (hlogin : textMember postInfo.jsonBody (ascii "login")=.ok login)
    (hpassword : textMember postInfo.jsonBody (ascii "password")=.ok password)
    (hchecked : services.call (.checkPassword login password) world=(.ok id,between))
    (hrefresh : createRefreshToken services.jwt id secret (services.now between)=.ok refresh)
    (haccess : createAccessToken services.jwt id secret (services.now between)=.ok access)
    (hnickname : services.call (.getNicknameById id) between=(.ok nickname,after))
    (hdump : (services.dump (tokensBody access nickname)).isSome) :
    (dispatchPost services postInfo world).events=[.dbCall (.checkPassword login password),
      .dbCall (.getNicknameById id),.sent (.answerTokens postInfo.origin refresh access nickname)] := by
  have hsent : sendReply services (.answerTokens postInfo.origin refresh access nickname) after=
      ⟨.ok (),after,[.sent (.answerTokens postInfo.origin refresh access nickname)]⟩ := by
    obtain ⟨text,htext⟩ := Option.isSome_iff_exists.mp hdump
    have hbody : dumpText services.dump (tokensBody access nickname)=.ok text := by
      unfold dumpText
      rw [htext]
    unfold sendReply Reply.render
    dsimp only
    rw [hbody]
    rfl
  have hlast : (callDb services (.getNicknameById id)>>=fun nickname =>
      sendReply services (.answerTokens postInfo.origin refresh access nickname)) between=
        ⟨.ok (),after,[.dbCall (.getNicknameById id),
          .sent (.answerTokens postInfo.origin refresh access nickname)]⟩ := by
    rw [bind_run_ok (by rw [callDb_ok hnickname]),callDb_ok hnickname]
    dsimp only
    rw [hsent]
    rfl
  unfold dispatchPost
  rw [hmsg]
  dsimp only
  rw [(bottom_run _ world).2]
  unfold answering attempt
  rw [hlogin,hpassword,compute_ok_bind_run rfl,compute_ok_bind_run rfl,
    bind_run_ok (by rw [callDb_ok hchecked]),callDb_ok hchecked]
  dsimp only
  rw [bind_run_ok (by rw [newToken_ok hrefresh]),newToken_ok hrefresh]
  dsimp only
  rw [bind_run_ok (by rw [newToken_ok haccess]),newToken_ok haccess]
  dsimp only
  rw [hlast]
  rfl

/-- Whoever logs in to an account of the network is answered with tokens, and
the access token is accepted for that account until it expires. -/
theorem login_opens_session (hjwt : installation.jwt.Verifies) {login password : Bytes}
    {postInfo : PostTInfo} {userId : ℕ} {account named : Account}
    (hs : (request++received).length ≤ maxSize)
    (hparse : parse installation.setting (request++received)=.ok (.success,.post postInfo))
    (hmsg : postInfo.msg=.login) (hlogin : textMember postInfo.jsonBody (ascii "login")=.ok login)
    (hpassword : textMember postInfo.jsonBody (ascii "password")=.ok password)
    (hlogs : LogsIn installation.dialect (networkOf (world.found 0)) login password userId account)
    (hnamed : (networkOf (world.found 1)).accounts userId=some named)
    (hup : (world.coming 0).1.broken=false ∧ (world.coming 1).1.broken=false)
    (hkey : installation.dialect.readInteger (numeral userId)=some (userId : ℤ)) {refresh access : Bytes}
    (hrefresh : createRefreshToken installation.jwt (numeral userId) secret (world.coming 1).2=
      .ok refresh)
    (haccess : createAccessToken installation.jwt (numeral userId) secret (world.coming 1).2=.ok access)
    (hdump : (installation.dump (tokensBody access named.nickname)).isSome) :
    replies (turn installation.services request received world).events=
        [.answerTokens postInfo.origin refresh access named.nickname] ∧
      ∀ now,now ≤ numericDate ((world.coming 1).2+accessLifetime)*ticksPerSecond →
        checkAccessToken installation.jwt access secret now=.ok (numeral userId) := by
  obtain ⟨hfirst,hsecond⟩ := hup
  have hid : (callStore installation.dialect (world.coming 0).1 (.checkPassword login password)
      (world.found 0)).1=.ok (numeral userId) := by
    have huser := (login_iff login password userId).mpr ⟨account,hlogs⟩
    unfold callStore
    dsimp only
    rw [hfirst,huser]
    rfl
  have hchecked : installation.services.call (.checkPassword login password) world=
      (.ok (numeral userId),⟨fun number => world.found (number+1),
        fun number => world.coming (number+1)⟩) := Prod.ext hid rfl
  have hname : (callStore installation.dialect (world.coming 1).1 (.getNicknameById (numeral userId))
      (world.found 1)).1=.ok named.nickname := by
    unfold callStore
    dsimp only
    rw [hsecond]
    exact (nickname_iff _ _).mpr ⟨userId,named,hkey,hnamed,rfl⟩
  have hnickname : installation.services.call (.getNicknameById (numeral userId))
      ⟨fun number => world.found (number+1),fun number => world.coming (number+1)⟩=
        (.ok named.nickname,⟨fun number => world.found (number+2),
          fun number => world.coming (number+2)⟩) := Prod.ext hname rfl
  constructor
  · rw [turn_eq installation.services hs,serveBuffer_success installation.services _ hparse]
    change replies (.dispatched (.post postInfo)::(dispatchPost installation.services postInfo _).events)=_
    rw [login_events hmsg hlogin hpassword hchecked hrefresh haccess hnickname hdump]
    rfl
  · intro now hnow
    exact (checkAccessToken_signed hjwt haccess).mpr ⟨rfl,hnow⟩

end turns

end Photogram.AuthAnswers
