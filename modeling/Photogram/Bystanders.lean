import Photogram.StoreNetwork
import Photogram.TokenOrigins

/-!
# Users who are not there

Whatever calls and operations the two servers make, and in whatever order the
database runs their transactions: a user nobody has logged in as keeps the
account, the friends and the posts, and likes nothing new.
-/

namespace Photogram.Bystanders

open CxxString EffectLog JsonValue JwtToken RowTable AuthConnection AuthDatabase AuthDispatch
open AuthGuard ContentConnection ContentPosts ListPages AuthStore SocialNetwork SharedStore
open StoreNetwork TokenOrigins TwoServers
open AuthPhotos (setPicture_users)
open Schedule (run run_invariant EachMeets eachMeets_of_forall)

section network

/-- A user's part of a network is what it was; likes of others are counted. -/
structure Untouched (user : ℕ) (before after : Network) : Prop where
  /-- The account. -/
  account : after.accounts user=before.accounts user
  /-- The friends. -/
  friends : after.friends user=before.friends user
  /-- No post is gone, and none but its number of likes has changed. -/
  kept : ∀ postId publication,before.publications postId=some publication →
    publication.owner=user → ∃ likeCount,
      after.publications postId=some {publication with likeCount := likeCount}
  /-- No post is new. -/
  nothingNew : ∀ postId publication,after.publications postId=some publication →
    publication.owner=user → ∃ likeCount,
      before.publications postId=some {publication with likeCount := likeCount}
  /-- No like is new. -/
  likes : ∀ postId,after.likes postId user=true → before.likes postId user=true

variable {user : ℕ} {before after last : Network}

/-- A network that stays. -/
theorem Untouched.refl (user : ℕ) (network : Network) : Untouched user network network :=
  ⟨rfl,rfl,fun _ publication h _ => ⟨publication.likeCount,h⟩,
    fun _ publication h _ => ⟨publication.likeCount,h⟩,fun _ h => h⟩

/-- One change after the other. -/
theorem Untouched.trans (h : Untouched user before after) (hlast : Untouched user after last) :
    Untouched user before last where
  account := hlast.account.trans h.account
  friends := hlast.friends.trans h.friends
  kept postId publication hbefore howner := by
    obtain ⟨likeCount,hafter⟩ := h.kept postId publication hbefore howner
    obtain ⟨lastCount,hlater⟩ := hlast.kept postId _ hafter howner
    exact ⟨lastCount,hlater⟩
  nothingNew postId publication hlater howner := by
    obtain ⟨likeCount,hafter⟩ := hlast.nothingNew postId publication hlater howner
    obtain ⟨firstCount,hbefore⟩ := h.nothingNew postId _ hafter howner
    exact ⟨firstCount,hbefore⟩
  likes postId hlater := h.likes postId (hlast.likes postId hlater)

/-- A change of another account. -/
theorem untouched_setAccount {userId : ℕ} (hne : userId≠user) (account : Option Account) :
    Untouched user before (before.setAccount userId account) where
  account := Function.update_of_ne hne.symm _ _
  friends := rfl
  kept := (Untouched.refl user before).kept
  nothingNew := (Untouched.refl user before).nothingNew
  likes := (Untouched.refl user before).likes

/-- A change of the account of another key. -/
theorem untouched_onAccount {userId : ℤ} (hne : userId≠user) (change : Account → Account) :
    Untouched user before (before.onAccount userId change) where
  account := if_neg hne.symm
  friends := rfl
  kept := (Untouched.refl user before).kept
  nothingNew := (Untouched.refl user before).nothingNew
  likes := (Untouched.refl user before).likes

/-- A change of the friends of another user. -/
theorem untouched_setFriend {userId : ℤ} (hne : userId≠user) (friendId : ℤ) (status : Bool) :
    Untouched user before (before.setFriend userId friendId status) where
  account := rfl
  friends := funext fun _ => if_neg fun h => hne h.1.symm
  kept := (Untouched.refl user before).kept
  nothingNew := (Untouched.refl user before).nothingNew
  likes := (Untouched.refl user before).likes

/-- A post of another user. -/
theorem untouched_published {postId : ℕ} {publication : Publication}
    (hfresh : before.publications postId=none) (hne : publication.owner≠user) :
    Untouched user before (before.after (.published postId publication)) where
  account := rfl
  friends := rfl
  kept id kept hkept howner := by
    have hother : id≠postId := by
      rintro rfl
      rw [hfresh] at hkept
      cases hkept
    exact ⟨kept.likeCount,(Function.update_of_ne hother _ _).trans hkept⟩
  nothingNew id kept hkept howner := by
    have hother : id≠postId := by
      rintro rfl
      change Function.update before.publications id (some publication) id=some kept at hkept
      rw [Function.update_self] at hkept
      cases hkept
      exact hne howner
    exact ⟨kept.likeCount,(Function.update_of_ne hother _ _).symm.trans hkept⟩
  likes _ h := h

/-- The loss of a post of another user. -/
theorem untouched_retracted {postId : ℤ}
    (hother : ∀ id publication,before.publications id=some publication → (id : ℤ)=postId →
      publication.owner≠user) :
    Untouched user before (before.after (.retracted postId)) where
  account := rfl
  friends := rfl
  kept id kept hkept howner :=
    ⟨kept.likeCount,(if_neg fun hid => hother id kept hkept hid howner).trans hkept⟩
  nothingNew id kept hkept howner := by
    change (if (id : ℤ)=postId then none else before.publications id)=some kept at hkept
    split at hkept
    · cases hkept
    · exact ⟨kept.likeCount,hkept⟩
  likes id h := by
    change (if id=postId then false else before.likes id user)=true at h
    split at h
    · cases h
    · exact h

/-- A click of another user. -/
theorem untouched_clicked {postId userId : ℤ} (hne : userId≠user) :
    Untouched user before (before.after (.clicked postId userId)) where
  account := rfl
  friends := rfl
  kept id kept hkept howner := by
    change ∃ likeCount,(if (id : ℤ)=postId then (before.publications id).map _
      else before.publications id)=_
    rw [hkept]
    split
    · exact ⟨_,rfl⟩
    · exact ⟨kept.likeCount,rfl⟩
  nothingNew id kept hkept howner := by
    change (if (id : ℤ)=postId then (before.publications id).map _
      else before.publications id)=some kept at hkept
    split at hkept
    · obtain ⟨old,hold,rfl⟩ := Option.map_eq_some_iff.mp hkept
      exact ⟨old.likeCount,hold⟩
    · exact ⟨kept.likeCount,hkept⟩
  likes id h := by
    change (if id=postId ∧ (user : ℤ)=userId then _ else before.likes id user)=true at h
    rwa [if_neg fun hboth => hne hboth.2.symm] at h

end network

section store

variable {dialect : Dialect} {site next : Site} {user : ℕ}

/-- User a transaction writes for. -/
def writer : Move → Option Bytes
  | .call _ (.updateProfilePhoto _ id) | .call _ (.updateProfileData _ id)
  | .call _ (.updateProfilePassword _ id) | .call _ (.makeFriend id _)
  | .call _ (.deleteFriend id _) => some id
  | .operation _ _ (.addNewPost id _) | .operation _ _ (.delPostById _ id)
  | .operation _ _ (.likeClicked _ id) => some id
  | _ => none

/-- The user is there, and no registration of it is under way. -/
structure Settled (site : Site) (user : ℕ) : Prop where
  /-- The key is handed out. -/
  registered : user<site.store.accounts.users.next
  /-- Its registration is over. -/
  idle : site.registering user=none

/-- A stage of another registration leaves a user settled. -/
theorem Settled.staged (h : Settled site user) {accounts : Database} {userId : ℕ}
    {stage : Option Stage} (hne : userId≠user)
    (hnext : site.store.accounts.users.next ≤ accounts.users.next) :
    Settled (site.staged accounts userId stage) user :=
  ⟨Nat.lt_of_lt_of_le h.registered hnext,(Function.update_of_ne hne.symm _ _).trans h.idle⟩

/-- A registration under way is another user's. -/
theorem Settled.other (h : Settled site user) {userId : ℕ} {stage : Stage}
    (hstage : site.registering userId=some stage) : userId≠user := by
  rintro rfl
  rw [h.idle] at hstage
  cases hstage

/-- A call that writes hands out no key. -/
theorem next_written {call : DbCall} {after : Store} (h : Written dialect site.store after call) :
    after.accounts.users.next=site.store.accounts.users.next := by
  cases call with
  | updateProfilePhoto postInfo id =>
    obtain ⟨key,_,rfl⟩ := h
    dsimp only
    rw [setPicture_users]
  | updateProfileData jsonBody id =>
    obtain ⟨key,profile,accounts,_,_,hupdate,rfl⟩ := h
    dsimp only
    rw [(updateUser_ok hupdate).1]
    rfl
  | updateProfilePassword password id =>
    obtain ⟨key,_,rfl⟩ := h
    rfl
  | makeFriend userId friendId =>
    obtain ⟨row,_,_,rfl⟩ := h
    rfl
  | deleteFriend userId friendId =>
    obtain ⟨row,_,_,rfl⟩ := h
    rfl
  | _ => exact h.elim

/-- A call for another user changes nothing of a user. -/
theorem untouched_call {conditions : Conditions} {call : DbCall} (network : Network)
    (hwriter : ∀ id,writer (.call conditions call)=some id →
      dialect.readInteger id≠some (user : ℤ)) :
    Untouched user network (network.replay (callChanges dialect call)) := by
  cases call with
  | updateProfilePhoto postInfo id =>
    have hother := hwriter id rfl
    unfold callChanges
    dsimp only
    cases hkey : dialect.readInteger id with
    | none => exact .refl user network
    | some key => exact untouched_onAccount (fun heq => hother (hkey.trans (congrArg some heq))) _
  | updateProfileData jsonBody id =>
    have hother := hwriter id rfl
    unfold callChanges
    dsimp only
    cases profileUpdate jsonBody with
    | error failure => exact .refl user network
    | ok profile =>
      cases hkey : dialect.readInteger id with
      | none => exact .refl user network
      | some key => exact untouched_onAccount (fun heq => hother (hkey.trans (congrArg some heq))) _
  | updateProfilePassword password id =>
    have hother := hwriter id rfl
    unfold callChanges
    dsimp only
    cases hkey : dialect.readInteger id with
    | none => exact .refl user network
    | some key => exact untouched_onAccount (fun heq => hother (hkey.trans (congrArg some heq))) _
  | makeFriend userId friendId =>
    have hother := hwriter userId rfl
    unfold callChanges
    dsimp only
    cases hkey : dialect.readInteger userId with
    | none => exact .refl user network
    | some key =>
      cases dialect.readInteger friendId with
      | none => exact .refl user network
      | some friend =>
        exact untouched_setFriend (fun heq => hother (hkey.trans (congrArg some heq))) friend true
  | deleteFriend userId friendId =>
    have hother := hwriter userId rfl
    unfold callChanges
    dsimp only
    cases hkey : dialect.readInteger userId with
    | none => exact .refl user network
    | some key =>
      cases dialect.readInteger friendId with
      | none => exact .refl user network
      | some friend =>
        exact untouched_setFriend (fun heq => hother (hkey.trans (congrArg some heq))) friend false
  | _ => exact .refl user network

/-- An operation for another user changes nothing of a user. -/
theorem untouched_operation {circumstances : Circumstances}
    {arrangement : PagedQuery.Arrangement latestFirst} {op : DbOperation} {after : Tables}
    (hwriter : ∀ id,writer (.operation circumstances arrangement op)=some id →
      dialect.readInteger id≠some (user : ℤ))
    (heffected : Effected dialect circumstances site.store.content after op) :
    Untouched user (networkOf site.store) ((networkOf site.store).replay
      (operationChanges dialect circumstances site.store.content op)) := by
  cases op with
  | addNewPost userId propertyMap =>
    obtain ⟨owner,howner,_⟩ := heffected
    have hother := hwriter userId rfl
    unfold operationChanges
    dsimp only
    rw [howner] at hother ⊢
    refine untouched_published ?_ fun heq => hother (congrArg some heq)
    change (site.store.content.posts.lookup _).map _=none
    rw [lookup_next]
    rfl
  | delPostById postId id =>
    obtain ⟨post,owner,hpost,howner,⟨row,hrow,hid,howned⟩,_⟩ := heffected
    have hother := hwriter id rfl
    unfold operationChanges
    dsimp only
    rw [hpost]
    rw [howner] at hother
    refine untouched_retracted fun key publication hpublication hkey heq => hother ?_
    obtain ⟨found,hfound,rfl⟩ := Option.map_eq_some_iff.mp hpublication
    obtain ⟨hmem,hfoundId⟩ := lookup_eq_some_iff.mp hfound
    have hsame : found=row := eq_of_key_eq site.store.content.posts hmem hrow
      (Int.ofNat_inj.mp (by rw [hfoundId,hid,hkey]))
    rw [←howned,←hsame]
    exact congrArg some heq
  | likeClicked postId userId =>
    obtain ⟨post,fan,hpost,hfan,_⟩ := heffected
    have hother := hwriter userId rfl
    unfold operationChanges
    dsimp only
    rw [hfan] at hother
    rw [hpost,hfan]
    exact untouched_clicked fun heq => hother (congrArg some heq)
  | getPostsList id limit offset => exact heffected.elim
  | getPostsListById authorId userId limit offset => exact heffected.elim
  | getPostPhotoById photoId => exact heffected.elim

/-- A transaction for another user leaves a settled user settled and untouched. -/
theorem step_untouched {move : Move} (h : Sound site) (hsettled : Settled site user)
    (hwriter : ∀ id,writer move=some id → dialect.readInteger id≠some (user : ℤ))
    (hstep : SharedStore.step dialect site move=some next) :
    Settled next user ∧ Untouched user (networkOf site.store) (networkOf next.store) := by
  have hmoved := step_moved hstep
  rw [(step_refined h hstep).network]
  generalize committed dialect site move=changes at hmoved
  cases hmoved with
  | stayed => exact ⟨hsettled,.refl user _⟩
  | wrote conditions call after hwritten =>
    refine ⟨⟨?_,hsettled.idle⟩,untouched_call (networkOf site.store) hwriter⟩
    exact (next_written hwritten).symm ▸ hsettled.registered
  | operated circumstances arrangement op after heffected =>
    exact ⟨⟨hsettled.registered,hsettled.idle⟩,untouched_operation hwriter heffected⟩
  | inserted userProperties binaryData after hpictures husers =>
    have hne : site.store.accounts.users.next≠user := (Nat.ne_of_lt hsettled.registered).symm
    refine ⟨hsettled.staged hne ?_,untouched_setAccount hne _⟩
    rw [husers]
    exact Nat.le_succ _
  | pictured userId userProperties binaryData hstage =>
    exact ⟨hsettled.staged (hsettled.other hstage) (Nat.le_refl _),.refl user _⟩
  | unpictured userId userProperties binaryData hstage =>
    exact ⟨hsettled.staged (hsettled.other hstage) (Nat.le_refl _),.refl user _⟩
  | connected userId userProperties binaryData photoId hstage =>
    have hne := hsettled.other hstage
    exact ⟨hsettled.staged hne (Nat.le_refl _),
      untouched_onAccount (fun heq => hne (Int.ofNat_inj.mp heq)) _⟩
  | unconnected userId userProperties binaryData photoId hstage =>
    exact ⟨hsettled.staged (hsettled.other hstage) (Nat.le_refl _),.refl user _⟩
  | unphotographed broken userId photoId hstage =>
    refine ⟨hsettled.staged (hsettled.other hstage) (Nat.le_of_eq ?_),.refl user _⟩
    split <;> rfl
  | removed userId hstage =>
    have hne := hsettled.other hstage
    exact ⟨hsettled.staged hne (Nat.le_refl _),untouched_setAccount hne _⟩
  | abandoned userId hstage =>
    exact ⟨hsettled.staged (hsettled.other hstage) (Nat.le_refl _),.refl user _⟩

/-- Transactions for other users leave a settled user untouched, in any order. -/
theorem run_untouched {final : Site} {moves : List Move} (h : Sound site)
    (hsettled : Settled site user)
    (hwriters : ∀ move ∈ moves,∀ id,writer move=some id → dialect.readInteger id≠some (user : ℤ))
    (hrun : run (SharedStore.step dialect) site moves=some final) :
    Untouched user (networkOf site.store) (networkOf final.store) := by
  have hkeep : ∀ (state : Site) (move : Move) (reached : Site),
      (Sound state ∧ Settled state user ∧
        Untouched user (networkOf site.store) (networkOf state.store)) →
      (∀ id,writer move=some id → dialect.readInteger id≠some (user : ℤ)) →
      SharedStore.step dialect state move=some reached →
      Sound reached ∧ Settled reached user ∧
        Untouched user (networkOf site.store) (networkOf reached.store) := by
    rintro state move reached ⟨hsound,hstate,huntouched⟩ hwriter hstep
    obtain ⟨hreached,hafter⟩ := step_untouched hsound hstate hwriter hstep
    exact ⟨(step_refined hsound hstep).sound,hreached,huntouched.trans hafter⟩
  exact (run_invariant hkeep ⟨h,hsettled,.refl user _⟩ (eachMeets_of_forall hwriters site) hrun).2.2

end store

section servers

variable {σ τ : Type} {env : Environment σ τ} {log : List (Entry σ)} {dialect : Dialect}

/-- A transaction of a call or an operation in the log; a registration is anybody's. -/
def MadeIn (log : List (Entry σ)) : Move → Prop
  | .call _ call => ∃ peer buffered world events,
      .turn peer buffered world events ∈ log ∧ .dbCall call ∈ events
  | .operation _ _ op => ∃ number request id events,
      .called number request id events ∈ log ∧ .operation op ∈ events
  | _ => True

/-- Whoever a call of a guarded turn writes for, a token was accepted for. -/
theorem writer_accepted {auth : Services σ} {buffered : Bytes} {world : σ} {events : List Event}
    (h : GuardedTurn auth buffered world events) {conditions : Conditions} {call : DbCall}
    (hcall : .dbCall call ∈ events) {id : Bytes} (hwriter : writer (.call conditions call)=some id) :
    ∃ token,.tokenAccepted token id ∈ events := by
  obtain ⟨before,after,hsplit⟩ := List.append_of_mem hcall
  have hacts : ∀ subject,ActsFor subject call → subject=some id := by
    intro subject hsubject
    cases call with
    | updateProfilePhoto postInfo user => exact hsubject.trans hwriter
    | updateProfileData jsonBody user => exact hsubject.trans hwriter
    | updateProfilePassword password user => exact hsubject.trans hwriter
    | makeFriend user friend => exact hsubject.trans hwriter
    | deleteFriend user friend => exact hsubject.trans hwriter
    | _ => cases hwriter
  rcases h before call after hsplit with ⟨_,_,_,hnobody⟩|⟨token,subject,haccepted,_,_,hsubject⟩
  · exact absurd (hacts none hnobody) nofun
  · cases hacts _ hsubject
    exact ⟨token,hsplit ▸ List.mem_append_left _ haccepted⟩

/-- An operation is called for the user it writes for. -/
theorem writer_acting {circumstances : Circumstances}
    {arrangement : PagedQuery.Arrangement latestFirst} {op : DbOperation} {id : Bytes}
    (h : writer (.operation circumstances arrangement op)=some id) : op.actingUser=some id := by
  cases op with
  | addNewPost userId propertyMap => exact h
  | delPostById postId userId => exact h
  | likeClicked postId userId => exact h
  | _ => cases h

/-- Whoever a transaction of the servers writes for has logged in. -/
theorem writer_logged_in (hguarded : ∀ entry ∈ log,Guarded env.auth entry)
    (hlogins : LoggedInBefore env.auth (fun _ => True) log) {move : Move} (hmade : MadeIn log move)
    {id : Bytes} (hwriter : writer move=some id) : ∃ login ∈ log,LoggedInAs env.auth id login := by
  cases move with
  | call conditions call =>
    obtain ⟨peer,buffered,world,events,hturn,hcall⟩ := hmade
    obtain ⟨token,haccepted⟩ := writer_accepted (hguarded _ hturn) hcall hwriter
    exact hlogins.acts hturn trivial (List.mem_filterMap.mpr ⟨_,haccepted,rfl⟩)
  | operation circumstances arrangement op =>
    obtain ⟨number,request,user,events,hcalled,hop⟩ := hmade
    exact hlogins.acts hcalled trivial (List.mem_filterMap.mpr ⟨_,hop,writer_acting hwriter⟩)
  | _ => cases hwriter

/-- In every run of the two servers in which no token is forged and nobody logs
in as a user, and however the database orders the transactions they make on
tables that transactions have led to: the user is untouched. -/
theorem bystander_untouched (hjwt : env.auth.jwt.Verifies) (hread : ReadsBack env)
    {actions : List (Action σ τ)} {servers : Servers σ}
    (hrun : run (TwoServers.step env) fresh actions=some servers)
    (hdecimal : DecimalIssued env.auth servers.log)
    (hstart : EachMeets (TwoServers.step env) StartsWhole fresh actions)
    (hunforged : Unforged env.auth servers.log) {user : ℕ}
    (hnobody : ∀ entry ∈ servers.log,∀ id,LoggedInAs env.auth id entry →
      dialect.readInteger id≠some (user : ℤ))
    {site final : Site} {earlier moves : List Move}
    (hreached : run (SharedStore.step dialect) (Site.opened emptyStore) earlier=some site)
    (hsettled : Settled site user) (hmade : ∀ move ∈ moves,MadeIn servers.log move)
    (hmoves : run (SharedStore.step dialect) site moves=some final) :
    Untouched user (networkOf site.store) (networkOf final.store) := by
  have hguarded : ∀ entry ∈ servers.log,Guarded env.auth entry :=
    run_invariant (fun _ _ _ h (_ : True) hstep => step_guarded h hstep)
      (fun _ hmem => absurd hmem List.not_mem_nil)
      (Schedule.eachMeets_always (fun _ _ => trivial) _ _) hrun
  have hlogins := all_logged_in (turns_logged_in hjwt (genuine_of_run hrun) hunforged)
    (vouched_of_run hread (hdecimal.answers hunforged) hstart hrun)
  refine run_untouched (run_sound sound_empty hreached) hsettled (fun move hmove id hwriter => ?_)
    hmoves
  obtain ⟨entry,hentry,hlogin⟩ := writer_logged_in hguarded hlogins (hmade move hmove) hwriter
  exact hnobody entry hentry id hlogin

/-- The user 2 registers and publishes a post. -/
def bobPosts : List Move :=
  [.addProperties false AuthPhotos.namedForm (ascii "first"),.addNewPhoto false 1,
    .connectPropertiesAndPhoto false 1,
    .addProperties false AuthPhotos.secondForm (ascii "other"),.addNewPhoto false 2,
    .connectPropertiesAndPhoto false 2,
    .operation PostPhotos.healthy (PagedQuery.Arrangement.ofSort latestFirst)
      (.addNewPost (ascii "2") PostPhotos.photoForm)]

/-- A click on the first post, with the token of the user 1. -/
def likeRequest : ClientRequest :=
  ⟨.post,ascii "/likeClicked?post_id=1",ascii "o",honestField,⟨[],Nat.zero_le _⟩,⟨[],Nat.zero_le _⟩⟩

/-- The user 1 logs in and clicks. -/
def annClicks : List (TwoServers.Action ℕ Unit) :=
  [.sends 3 loginRequest,.receives (.client 3) 85 0]++servedInParts likeRequest [10,185]

/-- Clicks of an entry, by post and user. -/
def clicksOf : Entry ℕ → List (Bytes×Bytes)
  | .called _ _ _ events => events.filterMap fun
    | .operation (.likeClicked postId userId) => some (postId,userId)
    | _ => none
  | _ => []

/-- A click of a log is made in it. -/
theorem madeIn_click {log : List (Entry ℕ)} {postId userId : Bytes}
    (h : (postId,userId) ∈ log.flatMap clicksOf) (circumstances : Circumstances)
    (arrangement : PagedQuery.Arrangement latestFirst) :
    MadeIn log (.operation circumstances arrangement (.likeClicked postId userId)) := by
  obtain ⟨entry,hentry,hclick⟩ := List.mem_flatMap.mp h
  cases entry with
  | called number request id events =>
    obtain ⟨event,hevent,hsome⟩ := List.mem_filterMap.mp hclick
    split at hsome
    · cases hsome
      exact ⟨number,request,id,events,hentry,hevent⟩
    · cases hsome
  | turn peer buffered world events => exact absurd hclick List.not_mem_nil
  | handled number request events => exact absurd hclick List.not_mem_nil

/-- The user 1 logs in and likes the post of the user 2, who is not there. -/
theorem bystander_untouched_bob :
    ∃ servers site final,run (TwoServers.step withAnn) fresh annClicks=some servers ∧
      run (SharedStore.step plainDialect) (Site.opened emptyStore) bobPosts=some site ∧
      run (SharedStore.step plainDialect) site [.operation PostPhotos.healthy
        (PagedQuery.Arrangement.ofSort latestFirst) (.likeClicked (ascii "1") (ascii "1"))]=
          some final ∧
      Untouched 2 (networkOf site.store) (networkOf final.store) := by
  have hservers : (run (TwoServers.step withAnn) fresh annClicks).map (fun servers =>
      (servers.log.flatMap clicksOf,decide (Unforged withAnn.auth servers.log)))=
      some ([(ascii "1",ascii "1")],true) := by
    decide +kernel
  have hstart : EachMeets (TwoServers.step withAnn) StartsWhole fresh annClicks := by decide +kernel
  have hsite : (run (SharedStore.step plainDialect) (Site.opened emptyStore) bobPosts).map
      (fun site => (site.store.accounts.users.next,(site.registering 2).isNone))=some (3,true) := by
    decide +kernel
  obtain ⟨servers,hrun,hseen⟩ := Option.map_eq_some_iff.mp hservers
  obtain ⟨hclicks,hunforged⟩ := Prod.mk.inj hseen
  obtain ⟨site,hreached,hstate⟩ := Option.map_eq_some_iff.mp hsite
  obtain ⟨hnext,hidle⟩ := Prod.mk.inj hstate
  obtain ⟨final,hclicked⟩ : ∃ final,run (SharedStore.step plainDialect) site
      [.operation PostPhotos.healthy (PagedQuery.Arrangement.ofSort latestFirst)
        (.likeClicked (ascii "1") (ascii "1"))]=some final := ⟨_,rfl⟩
  have hmade : ∀ move ∈ [Move.operation PostPhotos.healthy
      (PagedQuery.Arrangement.ofSort latestFirst) (.likeClicked (ascii "1") (ascii "1"))],
      MadeIn servers.log move := by
    intro move hmove
    rw [List.mem_singleton.mp hmove]
    exact madeIn_click (hclicks ▸ List.mem_singleton_self _) _ _
  have hgenuine : Unforged withAnn.auth servers.log := of_decide_eq_true hunforged
  have hsettled : Settled site 2 := ⟨by omega,Option.isNone_iff_eq_none.mp hidle⟩
  have hnobody : ∀ entry ∈ servers.log,∀ id,LoggedInAs withAnn.auth id entry →
      plainDialect.readInteger id≠some ((2 : ℕ) : ℤ) := by
    -- the sample database answers every password with the user 1
    intro entry _ id hlogin
    cases entry with
    | turn peer buffered world events =>
      obtain ⟨_,_,_,_,_,_,_,hid⟩ := hlogin
      cases hid
      decide +kernel
    | handled number request events => exact hlogin.elim
    | called number request user events => exact hlogin.elim
  have huntouched := @bystander_untouched ℕ Unit withAnn plainDialect verifies_lettersJwt
    readsBack_withBob annClicks servers hrun (fun token _ => decimalSubjects_withBob token) hstart
    hgenuine 2 hnobody site final bobPosts _ hreached hsettled hmade
  exact ⟨servers,site,final,hrun,hreached,hclicked,huntouched hclicked⟩

end servers

end Photogram.Bystanders
