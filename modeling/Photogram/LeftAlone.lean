import Photogram.AuthAnswers
import Photogram.Bystanders
import Photogram.WholeSystem

/-!
# Users whose password nobody presents

In runs of both servers in which each token that a turn presents was handed out
before: a user whose registration is over and whose password no login presents
keeps the account, the friends and the posts, and likes nothing new, whatever
all other clients do and however the transactions of their turns interleave.
-/

namespace Photogram.LeftAlone

open CxxString EffectLog JsonValue JwtToken AuthConnection AuthReceive AuthGuard ContentConnection
open ContentHandlers ContentPosts ListPages PagedQuery Schedule AuthStore SocialNetwork SharedStore
open StoreNetwork NetworkReads AuthProcess AuthAnswers AuthTurns TurnsUnderWay ContentAnswers TokenOrigins
open TwoServers Bystanders WholeSystem

section statements

/-- A turn dispatches a login with the password of the account of a user. -/
def SignsIn (dialect : Dialect) (user : ℕ) : Entry Surroundings → Prop
  | .turn _ _ world events => ∃ postInfo login password account,
      .dispatched (.post postInfo) ∈ events ∧ postInfo.msg=.login ∧
      textMember postInfo.jsonBody (ascii "login")=.ok login ∧
      textMember postInfo.jsonBody (ascii "password")=.ok password ∧
      LogsIn dialect (networkOf (world.found 0)) login password user account
  | _ => False

/-- The database system reads a numeral as its number. -/
def ReadsNumerals (dialect : Dialect) : Prop :=
  ∀ (number : ℕ) (key : ℤ),dialect.readInteger (HttpReader.numeral number)=some key → key=number

/-- Whenever a turn goes on or ends, each token that it presents was handed out
by a reply before. -/
def HandedOut (deployment : Deployment) (system : System) : Deed → Prop
  | .transacts peer | .replies peer => ∀ serving ∈ system.serving peer,
      HandedOutBefore deployment.installation.services system.servers.log
        (turnEntry deployment (peer,serving))
  | _ => True

instance (deployment : Deployment) (system : System) :
    (deed : Deed) → Decidable (HandedOut deployment system deed)
  | .transacts peer | .replies peer => inferInstanceAs (Decidable (∀ serving ∈ system.serving peer,_))
  | .sends _ _ | .receives _ _ _ | .asks _ _ _ | .writes _ | .breaks _ _ | .reads _ _ => isTrue trivial

end statements

section vetting

variable {deployment : Deployment} {system next final : System} {deed : Deed} {deeds : List Deed}

/-- What holds in a run in which no token is forged. -/
structure Vetted (deployment : Deployment) (system : System) : Prop where
  /-- The tables and the turns. -/
  orderly : Orderly deployment system
  /-- The turns of the log are turns of the loop. -/
  genuine : ∀ entry ∈ system.servers.log,Genuine deployment.installation.services entry
  /-- Their tokens were handed out. -/
  unforged : Unforged deployment.installation.services system.servers.log
  /-- The content server acts for users who are vouched for. -/
  honest : Honest (environment deployment) system.servers

/-- Nothing has happened yet. -/
theorem vetted_opened : Vetted deployment opened :=
  ⟨orderly_opened,fun _ hmem => absurd hmem List.not_mem_nil,trivial,honest_fresh⟩

/-- Nothing but the end of a turn presents a token. -/
theorem unforged_acted {action : TwoServers.Action Surroundings Scene}
    {servers : Servers Surroundings} (h : Unforged deployment.installation.services system.servers.log)
    (haction : ∀ peer count world,action≠.receives peer count world)
    (hstep : TwoServers.step (environment deployment) system.servers action=some servers) :
    Unforged deployment.installation.services servers.log := by
  cases moved_of_step hstep with
  | served peer count world => exact absurd rfl (haction peer count world)
  | asked number request world => exact ⟨trivial,h⟩
  | called number world request reply serverReply id => exact ⟨trivial,h⟩
  | _ => exact h

/-- A deed of the content server, a client or the network is no turn. -/
theorem action_acted {action : TwoServers.Action Surroundings Scene}
    (hreplies : ∀ peer,deed≠.replies peer) (haction : actionOf system deed=some action) :
    ∀ peer count world,action≠.receives peer count world := by
  rintro peer count world rfl
  cases deed with
  | replies other => exact hreplies other rfl
  | _ => cases haction

/-- Tokens are handed out for keys of users. -/
theorem Vetted.decimal (hjwt : deployment.installation.jwt.Verifies) (h : Vetted deployment system) :
    DecimalAnswers deployment.installation.services system.servers.log := by
  refine DecimalIssued.answers (fun token hissued now id hchecked => ?_) h.unforged
  obtain ⟨login,_,hlogin⟩ := (rooted_of_unforged hjwt h.genuine h.unforged).accepted hjwt hissued
    hchecked
  cases login with
  | turn peer buffered world events =>
    obtain ⟨_,_,_,_,_,_,_,hcall⟩ := hlogin
    obtain ⟨userId,_,rfl⟩ := exceptMap_ok hcall
    exact HttpReader.numeral_digits userId
  | handled number request events => exact hlogin.elim
  | called number request user events => exact hlogin.elim

/-- Every step keeps a run vetted. -/
theorem Vetted.step (hjwt : deployment.installation.jwt.Verifies)
    (hread : ReadsBack (environment deployment)) (h : Vetted deployment system)
    (hwhole : WholeStart system deed) (hhanded : HandedOut deployment system deed)
    (hstep : WholeSystem.step deployment system deed=some next) : Vetted deployment next := by
  have horderly := step_orderly h.orderly hstep
  have hserved : ∀ {action servers},actionOf system deed=some action →
      TwoServers.step (environment deployment) system.servers action=some servers →
      (∀ entry ∈ servers.log,Genuine (environment deployment).auth entry) ∧
        Honest (environment deployment) servers := by
    intro action servers haction hservers
    refine ⟨@step_genuine _ _ (environment deployment) _ _ _ h.genuine hservers,?_⟩
    exact @step_honest _ _ (environment deployment) hread _ _ (h.decimal hjwt) _ h.honest
      (hwhole _ haction) hservers
  cases stepped_of_step hstep with
  | began peer count coming hidle hopen hpos hcount hbuffer =>
    exact ⟨horderly,h.genuine,h.unforged,h.honest⟩
  | transacted peer serving move site hserving hnext hmove =>
    exact ⟨horderly,h.genuine,h.unforged,h.honest⟩
  | replied peer serving servers hserving hnext hfronts hservers =>
    obtain ⟨hgenuine,hhonest⟩ := hserved (by unfold actionOf; dsimp only; rw [hserving]; rfl) hservers
    refine ⟨horderly,hgenuine,?_,hhonest⟩
    dsimp only
    rw [log_replied hfronts hservers]
    exact ⟨hhanded serving hserving,h.unforged⟩
  | acted deed action servers hreceives htransacts hreplies haction hservers =>
    obtain ⟨hgenuine,hhonest⟩ := hserved haction hservers
    exact ⟨horderly,hgenuine,unforged_acted h.unforged (action_acted hreplies haction) hservers,hhonest⟩

/-- A step keeps what the log holds. -/
theorem step_log (hstep : WholeSystem.step deployment system deed=some next) :
    system.servers.log ⊆ next.servers.log := by
  cases stepped_of_step hstep with
  | began peer count coming hidle hopen hpos hcount hbuffer => exact List.Subset.refl _
  | transacted peer serving move site hserving hnext hmove => exact List.Subset.refl _
  | replied peer serving servers hserving hnext hfronts hservers => exact log_subset hservers
  | acted deed action servers hreceives htransacts hreplies haction hservers => exact log_subset hservers

end vetting

section users

variable {deployment : Deployment} {system next final : System} {deed : Deed} {deeds : List Deed}
  {user : ℕ}

/-- Whoever the next transaction of a turn writes for, the turn has accepted a token of. -/
theorem next_accepted {installation : Installation} {site : Site} {serving : Serving} {move : Move}
    {id : Bytes} (hnext : serving.next installation site=some move) (hwriter : writer move=some id) :
    ∃ token,.tokenAccepted token id ∈ (serving.ran installation).events := by
  unfold Serving.next at hnext
  cases hserving : serving.registering with
  | some userId =>
    rw [hserving] at hnext
    obtain ⟨stage,_,rfl⟩ := Option.map_eq_some_iff.mp hnext
    cases stage with
    | undoing photoId => cases photoId <;> cases hwriter
    | _ => cases hwriter
  | none =>
    rw [hserving] at hnext
    obtain ⟨call,hpending,rfl⟩ := Option.map_eq_some_iff.mp hnext
    have hmem : call ∈ calls (serving.ran installation).events := List.mem_of_getElem? hpending
    obtain ⟨event,hevent,hsome⟩ := List.mem_filterMap.mp hmem
    have hcall : .dbCall call ∈ (serving.ran installation).events := by
      cases event with
      | dbCall made =>
        cases hsome
        exact hevent
      | _ => cases hsome
    have hmove : callMove (serving.coming serving.found.length).1 call=
        .call (serving.coming serving.found.length).1 call := by
      refine callMove_call fun postInfo heq => ?_
      subst heq
      cases hwriter
    rw [hmove] at hwriter
    exact writer_accepted (turn_guarded installation.services serving.buffer serving.received
      serving.world) hcall hwriter

/-- A callback for other users leaves a user settled and untouched. -/
theorem callback_untouched (h : Sound system.site) (hsettled : Settled system.site user)
    (request : ClientRequest) (id : Bytes) (found : Circumstances×Arrangement latestFirst)
    (hothers : ∀ op,.operation op ∈ (onGetId deployment.content request id
        (sceneOf system found)).events → ∀ acting,op.actingUser=some acting →
      deployment.installation.dialect.readInteger acting≠some (user : ℤ)) :
    Settled {system.site with store :=
        (onGetId deployment.content request id (sceneOf system found)).world.store} user ∧
      Untouched user (networkOf system.site.store)
        (networkOf (onGetId deployment.content request id (sceneOf system found)).world.store) := by
  rcases @callback_cases deployment request id (sceneOf system found) with
    ⟨_,hsame⟩|⟨operation,outcome,hevents,hstore,_⟩
  · rw [hsame]
    exact ⟨hsettled,.refl user _⟩
  · have hop : .operation (operationOf operation) ∈
        (onGetId deployment.content request id (sceneOf system found)).events :=
      hevents ▸ List.mem_cons_self
    have hstep : SharedStore.step deployment.installation.dialect system.site
        (.operation found.1 found.2 (operationOf operation))=some {system.site with
          store := (operateStore deployment.installation.dialect found.1 found.2
            (operationOf operation) system.site.store).2} := rfl
    rw [hstore]
    exact step_untouched h hsettled
      (fun acting hwriter => hothers _ hop acting (writer_acting hwriter)) hstep

/-- A step of a run in which nobody logs in as a settled user leaves the user
settled and untouched. -/
theorem Vetted.untouched (hjwt : deployment.installation.jwt.Verifies)
    (h : Vetted deployment system) (hafter : Vetted deployment next)
    (hsettled : Settled system.site user) (hhanded : HandedOut deployment system deed)
    (hnobody : ∀ entry ∈ next.servers.log,∀ id,LoggedInAs deployment.installation.services id entry →
      deployment.installation.dialect.readInteger id≠some (user : ℤ))
    (hstep : WholeSystem.step deployment system deed=some next) :
    Settled next.site user ∧ Untouched user (networkOf system.site.store) (networkOf next.site.store) := by
  cases stepped_of_step hstep with
  | began peer count coming hidle hopen hpos hcount hbuffer => exact ⟨hsettled,.refl user _⟩
  | replied peer serving servers hserving hnext hfronts hservers => exact ⟨hsettled,.refl user _⟩
  | transacted peer serving move site hserving hnext hmove =>
    refine step_untouched h.orderly.sound hsettled (fun id hwriter => ?_) hmove
    obtain ⟨token,htoken⟩ := next_accepted hnext hwriter
    have haccepted := turn_accepted htoken
    have hpresented : token ∈ (serving.ran deployment.installation).events.flatMap presentedIn :=
      List.mem_flatMap.mpr ⟨_,htoken,List.mem_singleton_self token⟩
    have hissued := hhanded serving hserving token hpresented (by rw [haccepted]; rfl)
    obtain ⟨login,hlogin,hid⟩ := (rooted_of_unforged hjwt h.genuine h.unforged).accepted hjwt hissued
      haccepted
    exact hnobody login hlogin id hid
  | acted deed action servers hreceives htransacts hreplies haction hservers =>
    have hturns : LoggedInBefore (environment deployment).auth IsTurn servers.log :=
      @turns_logged_in _ deployment.installation.services _ hjwt hafter.genuine hafter.unforged
    have hlogins := all_logged_in hturns hafter.honest.vouched
    cases deed with
    | asks number request found =>
      rw [storeBehind_asks]
      exact ⟨hsettled,.refl user _⟩
    | reads number found =>
      unfold storeBehind
      dsimp only
      split
      · next request id hcalled =>
        obtain ⟨after,hreads,hlog⟩ := reads_called hcalled found
        cases hstep.symm.trans hreads
        refine callback_untouched h.orderly.sound hsettled request id found fun op hop acting hacting => ?_
        obtain ⟨login,hlogin,hid⟩ := hlogins.acts (hlog ▸ List.mem_cons_self) trivial
          (List.mem_filterMap.mpr ⟨_,hop,hacting⟩)
        exact hnobody login hlogin acting hid
      · exact ⟨hsettled,.refl user _⟩
    | _ => exact ⟨hsettled,.refl user _⟩

/-- Whoever logs in as a user has the password of the account. -/
theorem loggedInAs_signsIn (hnumerals : ReadsNumerals deployment.installation.dialect)
    {entry : Entry Surroundings} {id : Bytes}
    (h : LoggedInAs deployment.installation.services id entry)
    (hid : deployment.installation.dialect.readInteger id=some (user : ℤ)) :
    SignsIn deployment.installation.dialect user entry := by
  cases entry with
  | turn peer buffered world events =>
    obtain ⟨postInfo,login,password,hdispatched,hmsg,hlogin,hpassword,hcall⟩ := h
    obtain ⟨userId,huser,rfl⟩ := exceptMap_ok hcall
    obtain rfl := Int.ofNat_inj.mp (hnumerals userId user hid)
    cases hbroken : (world.coming 0).1.broken with
    | true =>
      rw [hbroken] at huser
      cases huser
    | false =>
      rw [hbroken] at huser
      obtain ⟨account,hlogs⟩ := (login_iff login password user).mp huser
      exact ⟨postInfo,login,password,account,hdispatched,hmsg,hlogin,hpassword,hlogs⟩
  | handled number request events => exact h.elim
  | called number request id events => exact h.elim

/-- In every run of both servers in which each token that a turn presents was
handed out before and the first recv for every inquiry returns at least seven
bytes: a user whose registration is over and whose password no login presents
keeps the account, the friends and the posts, and likes nothing new, whatever
all other clients do. -/
theorem without_password_untouched (hjwt : deployment.installation.jwt.Verifies)
    (hread : ReadsBack (environment deployment))
    (hnumerals : ReadsNumerals deployment.installation.dialect) {earlier later : List Deed}
    {before after : System} (hearlier : run (step deployment) opened earlier=some before)
    (hlater : run (step deployment) before later=some after)
    (hfair : EachMeets (step deployment)
      (fun system deed => WholeStart system deed ∧ HandedOut deployment system deed) opened
      (earlier++later))
    (hsettled : Settled before.site user)
    (hnobody : ∀ entry ∈ after.servers.log,¬SignsIn deployment.installation.dialect user entry) :
    Untouched user (networkOf before.site.store) (networkOf after.site.store) := by
  obtain ⟨hfirst,hrest⟩ := hfair.append hearlier
  have hvetted : Vetted deployment before :=
    run_invariant (fun _ _ _ h hboth hstep => h.step hjwt hread hboth.1 hboth.2 hstep)
      vetted_opened hfirst hearlier
  -- what the last log lacks, no log before it holds
  have hkeep : ∀ (state : System) (deed : Deed) (reached : System),
      (Vetted deployment state ∧
        ((∀ entry ∈ state.servers.log,¬SignsIn deployment.installation.dialect user entry) →
          Settled state.site user ∧
            Untouched user (networkOf before.site.store) (networkOf state.site.store))) →
      WholeStart state deed ∧ HandedOut deployment state deed →
      step deployment state deed=some reached →
      Vetted deployment reached ∧
        ((∀ entry ∈ reached.servers.log,¬SignsIn deployment.installation.dialect user entry) →
          Settled reached.site user ∧
            Untouched user (networkOf before.site.store) (networkOf reached.site.store)) := by
    rintro state deed reached ⟨hstate,huntouched⟩ ⟨hwhole,hgiven⟩ hstep
    have hreached := hstate.step hjwt hread hwhole hgiven hstep
    refine ⟨hreached,fun hsilent => ?_⟩
    obtain ⟨hstill,hbefore⟩ := huntouched fun entry hmem => hsilent entry (step_log hstep hmem)
    obtain ⟨hlast,hafter⟩ := hstate.untouched hjwt hreached hstill hgiven
      (fun entry hmem id hlogin hid => hsilent entry hmem (loggedInAs_signsIn hnumerals hlogin hid))
      hstep
    exact ⟨hlast,hbefore.trans hafter⟩
  exact ((run_invariant hkeep ⟨hvetted,fun _ => ⟨hsettled,.refl user _⟩⟩ hrest hlater).2 hnobody).2

/-- Users whose passwords the logins of an entry present. -/
def signedIn (dialect : Dialect) : Entry Surroundings → List ℕ
  | .turn _ _ world events => events.filterMap fun
    | .dispatched (.post postInfo) =>
      if postInfo.msg=.login then do
        let login ← (textMember postInfo.jsonBody (ascii "login")).toOption
        let password ← (textMember postInfo.jsonBody (ascii "password")).toOption
        (AuthPhotos.checkPassword dialect.upper dialect.verify false login password
          (world.found 0).accounts).1.toOption
      else none
    | _ => none
  | _ => []

/-- They can be computed. -/
theorem mem_signedIn {dialect : Dialect} {entry : Entry Surroundings}
    (h : SignsIn dialect user entry) : user ∈ signedIn dialect entry := by
  cases entry with
  | turn peer buffered world events =>
    obtain ⟨postInfo,login,password,account,hdispatched,hmsg,hlogin,hpassword,hlogs⟩ := h
    have hchecked := (login_iff login password user).mpr ⟨account,hlogs⟩
    refine List.mem_filterMap.mpr ⟨_,hdispatched,?_⟩
    dsimp only
    rw [if_pos hmsg,hlogin,hpassword]
    exact congrArg Except.toOption hchecked
  | handled number request events => exact h.elim
  | called number request id events => exact h.elim

/-- The user 18 logs in, and has the user 1 for a friend. -/
def befriending : List Deed :=
  exchanged 4 loginRequest fine 2++exchanged 4
    (ascii "GET /makeFriend?friend_id=1 HTTP/1.1\r\nOrigin: o\r\nAuthorization: Bearer "++
      (createAccessToken lettersJwt (ascii "18") secret 0).toOption.getD []++ascii "\r\n\r\n") fine 1

/-- The user 1 is left alone. -/
theorem without_password_untouched_bob :
    ∃ before after,run (step plainDeployment) opened eighteenth=some before ∧
      run (step plainDeployment) before befriending=some after ∧
      (networkOf after.site.store).friends 18 1=true ∧
      Untouched 1 (networkOf before.site.store) (networkOf after.site.store) := by
  have hmap : ((run (step plainDeployment) opened eighteenth).bind fun before =>
      (run (step plainDeployment) before befriending).map fun after =>
        ((before.site.store.accounts.users.next,(before.site.registering 1).isNone),
          (networkOf after.site.store).friends 18 1,
          after.servers.log.flatMap (signedIn plainDialect)))=
      some ((19,true),true,[18]) := by
    decide +kernel
  have hfair : EachMeets (step plainDeployment)
      (fun system deed => WholeStart system deed ∧ HandedOut plainDeployment system deed) opened
      (eighteenth++befriending) := by
    decide +kernel
  obtain ⟨before,hearlier,hseen⟩ := Option.bind_eq_some_iff.mp hmap
  obtain ⟨after,hlater,hseen⟩ := Option.map_eq_some_iff.mp hseen
  obtain ⟨hbefore,hafter⟩ := Prod.mk.inj hseen
  obtain ⟨hregistered,hidle⟩ := Prod.mk.inj hbefore
  obtain ⟨hfriends,hsigned⟩ := Prod.mk.inj hafter
  have hsettled : Settled before.site 1 :=
    ⟨hregistered ▸ by decide,Option.isNone_iff_eq_none.mp hidle⟩
  have hnumerals : ReadsNumerals plainDialect := by
    intro number key hkey
    have hread : (HttpReader.readNumeral (HttpReader.numeral number)).map Int.ofNat=some key := hkey
    rw [HttpReader.readNumeral_numeral] at hread
    exact (Option.some.inj hread).symm
  have hnobody : ∀ entry ∈ after.servers.log,¬SignsIn plainDialect 1 entry := by
    intro entry hentry hsigns
    have hmem := List.mem_flatMap.mpr ⟨entry,hentry,mem_signedIn hsigns⟩
    rw [hsigned] at hmem
    exact absurd hmem (by decide)
  refine ⟨before,after,hearlier,hlater,hfriends,?_⟩
  exact @without_password_untouched plainDeployment 1 verifies_lettersJwt readsBack_withBob
    hnumerals eighteenth befriending before after hearlier hlater hfair
    hsettled hnobody

end users

end Photogram.LeftAlone
