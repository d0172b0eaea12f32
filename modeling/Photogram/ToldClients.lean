import Photogram.AuthAnswers
import Photogram.ContentRoutes
import Photogram.WholeSystem

/-!
# What clients of both servers are told

Replies of a turn, whose calls find the tables as the transactions of others
have left them, tell how the network was at moments since its recv returned.
The callback of an inquiry tells how it is when it is invoked.
-/

namespace Photogram.ToldClients

open CxxString EffectLog JsonValue QueryString JwtToken AuthResponse AuthHttpParser AuthConnection
open AuthReceive AnotherServerConnection ContentConnection ContentHandlers ContentPosts ListPages
open PagedQuery Schedule AuthStore SocialNetwork SharedStore StoreNetwork NetworkReads AuthProcess
open HttpReader AuthAnswers TurnsUnderWay ContentAnswers TwoServers WholeSystem
open AuthRequestRuns (replies)

section moments

variable {deployment : Deployment} {system next : System} {deed : Deed} {deeds : List Deed}
  {peer : Peer} {serving : Serving} {network : Network}

/-- The network at a moment since the latest recv of a peer returned. -/
def Moment (deployment : Deployment) (deeds : List Deed) (peer : Peer) (network : Network) : Prop :=
  ∃ earlier later,deeds=earlier++later ∧
    (∀ deed ∈ later,∀ count coming,deed≠.receives peer count coming) ∧
    network=networkBy deployment earlier

/-- A moment stays one until the next recv. -/
theorem Moment.concat (h : Moment deployment deeds peer network)
    (hdeed : ∀ count coming,deed≠.receives peer count coming) :
    Moment deployment (deeds++[deed]) peer network := by
  obtain ⟨earlier,later,rfl,hlater,hnetwork⟩ := h
  refine ⟨earlier,later++[deed],List.append_assoc _ _ _,fun other hmem => ?_,hnetwork⟩
  rcases List.mem_append.mp hmem with hmem|hmem
  · exact hlater other hmem
  · rwa [List.mem_singleton.mp hmem]

/-- The tables behind a run stand for the network at the last moment. -/
theorem moment_last (hrun : run (step deployment) opened deeds=some system) :
    Moment deployment deeds peer (networkOf system.site.store) :=
  ⟨deeds,[],(List.append_nil _).symm,fun _ hmem => absurd hmem List.not_mem_nil,run_network hrun⟩

/-- Moments are behind the latest recv. -/
theorem moment_cases {first rest : List Deed} {count : ℕ} {coming : ℕ → Conditions×ℕ}
    (h : Moment deployment (first++.receives peer count coming::rest) peer network) :
    ∃ number,network=networkBy deployment (first++.receives peer count coming::rest.take number) := by
  obtain ⟨earlier,later,hsplit,hlater,hnetwork⟩ := h
  rcases List.append_eq_append_iff.mp hsplit with ⟨part,rfl,hrest⟩|⟨part,rfl,hrest⟩
  · cases part with
    | nil =>
      have hsame : later=.receives peer count coming::rest := hrest.symm
      rw [hsame] at hlater
      exact absurd rfl (hlater _ List.mem_cons_self count coming)
    | cons head tail =>
      obtain ⟨rfl,hbehind⟩ := List.cons.inj hrest
      have htail : rest=tail++later := hbehind
      refine ⟨tail.length,?_⟩
      rw [hnetwork,htail,List.take_left]
  · exact absurd rfl (hlater (.receives peer count coming) (by simp [hrest]) count coming)

/-- Whatever tables the calls of turns under way have found are sound, and stand
for the network at a moment since their recv returned. -/
theorem run_found (hrun : run (step deployment) opened deeds=some system) :
    ∀ peer serving,system.serving peer=some serving → ∀ store ∈ serving.found,
      Sound (Site.opened store) ∧ Moment deployment deeds peer (networkOf store) := by
  have hopened : ∀ peer serving,opened.serving peer=some serving → ∀ store ∈ serving.found,
      Sound (Site.opened store) ∧ Moment deployment [] peer (networkOf store) := by
    intro peer serving h
    cases h
  refine @run_history System Deed (step deployment) opened system (fun deeds system =>
    ∀ peer serving,system.serving peer=some serving → ∀ store ∈ serving.found,
      Sound (Site.opened store) ∧ Moment deployment deeds peer (networkOf store)) hopened ?_ deeds hrun
  intro taken state deed next htaken h hstep
  have hkept : ∀ {peer serving},state.serving peer=some serving →
      (∀ count coming,deed≠.receives peer count coming) → ∀ store ∈ serving.found,
        Sound (Site.opened store) ∧ Moment deployment (taken++[deed]) peer (networkOf store) :=
    fun hserving hdeed store hmem =>
      (h _ _ hserving store hmem).imp_right fun hmoment => hmoment.concat hdeed
  cases stepped_of_step hstep with
  | began other count coming hidle hopen hpos hcount hbuffer =>
    intro peer serving hserving
    rcases serving_update hserving with ⟨_,hnew⟩|⟨hne,hserving⟩
    · cases hnew
      exact fun _ hmem => absurd hmem List.not_mem_nil
    · refine hkept hserving fun count coming heq => hne ?_
      cases heq
      rfl
  | transacted other another move site hother hnext hmove =>
    intro peer serving hserving
    rcases serving_update hserving with ⟨rfl,hnew⟩|⟨_,hserving⟩
    · cases hnew
      intro store hmem
      rcases found_behind hmem with hmem|rfl
      · exact hkept hother nofun store hmem
      · exact ⟨(run_orderly htaken).sound.opened,(moment_last htaken).concat nofun⟩
    · exact hkept hserving nofun
  | replied other another servers hother hnext hfronts hservers =>
    intro peer serving hserving
    rcases serving_update hserving with ⟨_,hnone⟩|⟨_,hserving⟩
    · cases hnone
    · exact hkept hserving nofun
  | acted deed action servers hreceives htransacts hreplies haction hservers =>
    intro peer serving hserving
    exact hkept hserving (hreceives peer)

end moments

section turns

variable {deployment : Deployment} {system next : System} {deeds : List Deed} {peer : Peer}
  {serving : Serving}

/-- A turn that ends sends the replies of its events. -/
theorem replies_sent (hserving : system.serving peer=some serving)
    (hstep : step deployment system (.replies peer)=some next) :
    serving.next deployment.installation system.site=none ∧
      (next.servers.links peer).replies=(system.servers.links peer).replies++
        replies (serving.ran deployment.installation).events := by
  cases stepped_of_step hstep with
  | replied peer found servers hfound hnext hfronts hservers =>
    cases hserving.symm.trans hfound
    refine ⟨hnext,?_⟩
    unfold TwoServers.step at hservers
    dsimp only at hservers
    split at hservers
    · cases hservers
      dsimp only
      rw [Function.update_self,(LinkRuns.served_link _ _ _).2,hfronts.1,hfronts.2]
      rfl
    · cases hservers
  | acted deed action servers hreceives htransacts hreplies => exact absurd rfl (hreplies peer)

/-- A turn that ends could have found, wherever its calls did not look, the
tables as they are now. -/
theorem held_over (hrun : run (step deployment) opened deeds=some system)
    (hserving : system.serving peer=some serving) :
    Held (Moment deployment deeds peer) (serving.over system.site.store) := by
  intro number
  change Sound (Site.opened (serving.found.getD number system.site.store)) ∧
    Moment deployment deeds peer (networkOf (serving.found.getD number system.site.store))
  by_cases hnumber : number<serving.found.length
  · rw [List.getD_eq_getElem _ _ hnumber]
    exact run_found hrun peer serving hserving _ (List.getElem_mem hnumber)
  · rw [List.getD_eq_default _ _ (Nat.not_lt.mp hnumber)]
    exact ⟨(run_orderly hrun).sound.opened,moment_last hrun⟩

/-- The replies of a turn that ends are those that it would have given there. -/
theorem replies_over (hrun : run (step deployment) opened deeds=some system)
    (hserving : system.serving peer=some serving)
    (hstep : step deployment system (.replies peer)=some next) :
    (next.servers.links peer).replies=(system.servers.links peer).replies++
      replies (turn deployment.installation.services serving.buffer serving.received
        (serving.over system.site.store)).events := by
  obtain ⟨hnext,hsent⟩ := replies_sent hserving hstep
  rw [((run_orderly hrun).progress peer serving hserving).ran_over hnext]
  exact hsent

/-- Wherever clients, the network and failures lead both servers: whoever logs
in to an account that the network has at all moments of the turn is answered
with tokens, and the access token is accepted for that account until it
expires. -/
theorem account_opens_session (hjwt : deployment.installation.jwt.Verifies)
    (hrun : run (step deployment) opened deeds=some system)
    (hserving : system.serving peer=some serving)
    (hstep : step deployment system (.replies peer)=some next) {login password : Bytes}
    {postInfo : PostTInfo} {userId : ℕ}
    (hs : (serving.buffer++serving.received).length ≤ maxSize)
    (hparse : parse deployment.installation.setting (serving.buffer++serving.received)=
      .ok (.success,.post postInfo))
    (hmsg : postInfo.msg=.login) (hlogin : textMember postInfo.jsonBody (ascii "login")=.ok login)
    (hpassword : textMember postInfo.jsonBody (ascii "password")=.ok password)
    (hlogs : ∀ network,Moment deployment deeds peer network →
      ∃ account,LogsIn deployment.installation.dialect network login password userId account)
    (hup : (serving.coming 0).1.broken=false ∧ (serving.coming 1).1.broken=false)
    (hkey : deployment.installation.dialect.readInteger (numeral userId)=some (userId : ℤ))
    {refresh access : Bytes}
    (hrefresh : createRefreshToken deployment.installation.jwt (numeral userId) secret
      (serving.coming 1).2=.ok refresh)
    (haccess : createAccessToken deployment.installation.jwt (numeral userId) secret
      (serving.coming 1).2=.ok access)
    (hdump : ∀ network account,Moment deployment deeds peer network →
      network.accounts userId=some account →
      (deployment.installation.dump (tokensBody access account.nickname)).isSome) :
    ∃ nickname,(next.servers.links peer).replies=(system.servers.links peer).replies++
        [.answerTokens postInfo.origin refresh access nickname] ∧
      ∀ now,now ≤ numericDate ((serving.coming 1).2+accessLifetime)*ticksPerSecond →
        checkAccessToken deployment.installation.jwt access secret now=.ok (numeral userId) := by
  have hheld := held_over hrun hserving
  obtain ⟨account,haccount⟩ := hlogs _ (hheld 0).2
  obtain ⟨named,hnamed⟩ := hlogs _ (hheld 1).2
  obtain ⟨hsent,haccepted⟩ := login_opens_session hjwt hs hparse hmsg hlogin hpassword haccount
    hnamed.found hup hkey hrefresh haccess (hdump _ named (hheld 1).2 hnamed.found)
  refine ⟨named.nickname,?_,haccepted⟩
  rw [replies_over hrun hserving hstep,hsent]

/-- The user 18 logs in, and takes its turn. -/
def signingIn : List Deed :=
  (eighteenth++[.sends 4 TokenOrigins.loginRequest])++
    .receives (.client 4) TokenOrigins.loginRequest.length fine::
      [.transacts (.client 4),.transacts (.client 4)]

/-- The user that a login with the password finds. -/
def foundBy (system : System) : Option ℕ :=
  (AuthPhotos.checkPassword plainDialect.upper plainDialect.verify false (ascii "a@b") (ascii "p")
    system.site.store.accounts).1.toOption

/-- It finds an account of the network. -/
theorem foundBy_logsIn {deeds : List Deed} {system : System} {userId : ℕ}
    (hrun : run (step plainDeployment) opened deeds=some system) (h : foundBy system=some userId) :
    ∃ account,LogsIn plainDialect (networkBy plainDeployment deeds) (ascii "a@b") (ascii "p") userId
      account := by
  rw [←run_network hrun]
  exact (login_iff _ _ userId).mp (ok_of_toOption h)

/-- The turn is that of the sample login, and nothing breaks down. -/
def Signs (serving : Serving) : Prop :=
  serving.buffer++serving.received=TokenOrigins.loginRequest ∧
    ((serving.coming 0).1.broken=false ∧ (serving.coming 1).1.broken=false) ∧
    (serving.coming 1).2=0

instance : DecidablePred Signs := fun _ => inferInstanceAs (Decidable (_ ∧ _))

/-- The parsed login. -/
def loginInfo : PostTInfo :=
  {emptyPostInfo with
    origin := ascii " o",
    msg := .login,
    jsonBody := .object [(ascii "login",.string (ascii "a@b")),(ascii "password",.string (ascii "p"))]}

/-- The user 18 logs in, and the token is accepted. -/
theorem account_opens_session_eighteenth :
    ∃ system next refresh access nickname,
      run (step plainDeployment) opened signingIn=some system ∧
      step plainDeployment system (.replies (.client 4))=some next ∧
      (next.servers.links (.client 4)).replies=(system.servers.links (.client 4)).replies++
        [.answerTokens (ascii " o") refresh access nickname] ∧
      checkAccessToken lettersJwt access secret 0=.ok (ascii "18") := by
  have hmap : ((run (step plainDeployment) opened ((eighteenth++[.sends 4 TokenOrigins.loginRequest])++
        [.receives (.client 4) TokenOrigins.loginRequest.length fine])).bind fun first =>
      (step plainDeployment first (.transacts (.client 4))).bind fun second =>
        (step plainDeployment second (.transacts (.client 4))).bind fun last =>
          (last.serving (.client 4)).bind fun serving =>
            (step plainDeployment last (.replies (.client 4))).map fun _ =>
              ([foundBy first,foundBy second,foundBy last],decide (Signs serving)))=
      some ([some 18,some 18,some 18],true) := by
    decide +kernel
  obtain ⟨first,hfirst,hseen⟩ := Option.bind_eq_some_iff.mp hmap
  obtain ⟨second,hsecond,hseen⟩ := Option.bind_eq_some_iff.mp hseen
  obtain ⟨last,hlast,hseen⟩ := Option.bind_eq_some_iff.mp hseen
  obtain ⟨serving,hserving,hseen⟩ := Option.bind_eq_some_iff.mp hseen
  obtain ⟨next,hstep,hseen⟩ := Option.map_eq_some_iff.mp hseen
  obtain ⟨husers,hsigns⟩ := Prod.mk.inj hseen
  obtain ⟨hone,husers⟩ := List.cons.inj husers
  obtain ⟨htwo,husers⟩ := List.cons.inj husers
  obtain ⟨hthree,_⟩ := List.cons.inj husers
  obtain ⟨hbytes,hup,hclock⟩ := of_decide_eq_true hsigns
  have hbetween := run_concat hfirst hsecond
  have hrun := run_concat hbetween hlast
  rw [List.append_assoc] at hbetween
  rw [List.append_assoc,List.append_assoc] at hrun
  have hlogs : ∀ network,Moment plainDeployment signingIn (.client 4) network →
      ∃ account,LogsIn plainDialect network (ascii "a@b") (ascii "p") 18 account := by
    intro network hmoment
    obtain ⟨number,hnetwork⟩ := moment_cases hmoment
    rw [hnetwork]
    rcases number with _|_|number
    · exact foundBy_logsIn hfirst hone
    · exact foundBy_logsIn hbetween htwo
    · rw [List.take_of_length_le (Nat.le_add_left 2 number)]
      exact foundBy_logsIn hrun hthree
  obtain ⟨refresh,hrefresh⟩ : ∃ refresh,createRefreshToken lettersJwt (numeral 18) secret 0=
      .ok refresh := ⟨_,rfl⟩
  obtain ⟨access,haccess⟩ : ∃ access,createAccessToken lettersJwt (numeral 18) secret 0=
      .ok access := ⟨_,rfl⟩
  have hparse : parse plainInstallation.setting TokenOrigins.loginRequest=
      .ok (.success,.post loginInfo) := by rfl
  rw [←hclock] at hrefresh haccess
  obtain ⟨nickname,hsent,haccepted⟩ := @account_opens_session plainDeployment last next signingIn
    (.client 4) serving verifies_lettersJwt hrun hserving hstep (ascii "a@b") (ascii "p") loginInfo 18
    (hbytes ▸ by decide +kernel) (hbytes ▸ hparse) rfl rfl rfl hlogs hup (by decide +kernel) refresh
    access hrefresh haccess fun _ _ _ _ => rfl
  exact ⟨last,next,refresh,access,nickname,hrun,hstep,hsent,haccepted 0 (Nat.zero_le _)⟩

end turns

section callbacks

variable {deployment : Deployment} {system next : System} {deeds : List Deed} {number : ℕ}
  {found : Circumstances×Arrangement latestFirst} {request : ClientRequest} {id : Bytes}
  {events : List ContentEvent}

end callbacks

end Photogram.ToldClients
