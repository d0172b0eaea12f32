import Photogram.ContentRoutes
import Photogram.WholeSystem

/-!
# What is published is served

A photo that the content server has acknowledged is served again with the
bytes of the form it came in, whatever the clients of both servers do between,
as long as nobody deletes its post. Texts are free of NUL, where a parameter of
a statement would end; photos are parameters of bytes.
-/

namespace Photogram.PublishedPhotos

open CxxString EffectLog QueryString RowTable AnotherServerConnection ContentConnection
open ContentHandlers ContentPosts ContentStatus ListPages PagedQuery Schedule AuthConnection
open AuthDispatch AuthStore SocialNetwork SharedStore StoreNetwork NetworkReads ContentAnswers
open WholeSystem

section networks

variable {network : Network} {postId : ℕ} {picture : PostPhoto}

/-- A post of the network has a photo. -/
def Pictured (network : Network) (postId : ℕ) (picture : PostPhoto) : Prop :=
  ∃ publication,network.publications postId=some publication ∧ publication.photo=some picture

/-- A change leaves a post its photo: it neither deletes nor publishes it. -/
def Leaves (postId : ℕ) (change : Change) : Prop :=
  change≠.retracted postId ∧ ∀ publication,change≠.published postId publication

/-- Such a change does. -/
theorem Pictured.after (h : Pictured network postId picture) {change : Change}
    (hleaves : Leaves postId change) : Pictured (network.after change) postId picture := by
  obtain ⟨publication,hfound,hphoto⟩ := h
  obtain ⟨hkept,hnew⟩ := hleaves
  cases change with
  | published other new =>
    have hother : postId≠other := by
      rintro rfl
      exact hnew new rfl
    exact ⟨publication,(Function.update_of_ne hother _ _).trans hfound,hphoto⟩
  | retracted other =>
    have hother : ¬(postId : ℤ)=other := by
      rintro rfl
      exact hkept rfl
    exact ⟨publication,(if_neg hother).trans hfound,hphoto⟩
  | clicked other user =>
    by_cases hclicked : (postId : ℤ)=other
    · refine ⟨_,(if_pos hclicked).trans (congrArg (Option.map _) hfound),?_⟩
      exact hphoto
    · exact ⟨publication,(if_neg hclicked).trans hfound,hphoto⟩
  | _ => exact ⟨publication,hfound,hphoto⟩

/-- So do many. -/
theorem Pictured.replay {changes : List Change} (h : Pictured network postId picture)
    (hleaves : ∀ change ∈ changes,Leaves postId change) :
    Pictured (network.replay changes) postId picture := by
  induction changes generalizing network with
  | nil => exact h
  | cons change rest ih =>
    obtain ⟨hfirst,hrest⟩ := List.forall_mem_cons.mp hleaves
    exact ih (h.after hfirst) hrest

end networks

section reports

variable {dialect : Dialect} {deployment : Deployment} {system next final : System} {deed : Deed}
  {deeds : List Deed} {postId : ℕ} {picture : PostPhoto}

/-- Key of the post that a change publishes. -/
def publishedKey : Change → Option ℕ
  | .published postId _ => some postId
  | _ => none

/-- No call of the authentication server publishes. -/
theorem callChanges_publishedKey (call : DbCall) :
    ∀ change ∈ callChanges dialect call,publishedKey change=none := by
  intro change hmem
  cases call with
  | updateProfilePhoto postInfo id =>
    obtain ⟨key,_,rfl⟩ := List.mem_map.mp hmem
    rfl
  | updateProfileData jsonBody id =>
    unfold callChanges at hmem
    dsimp only at hmem
    split at hmem
    · obtain ⟨key,_,rfl⟩ := List.mem_map.mp hmem
      rfl
    · exact absurd hmem List.not_mem_nil
  | updateProfilePassword password id =>
    obtain ⟨key,_,rfl⟩ := List.mem_map.mp hmem
    rfl
  | makeFriend userId friendId =>
    obtain ⟨user,_,hmem⟩ := List.mem_flatMap.mp hmem
    obtain ⟨friend,_,rfl⟩ := List.mem_map.mp hmem
    rfl
  | deleteFriend userId friendId =>
    obtain ⟨user,_,hmem⟩ := List.mem_flatMap.mp hmem
    obtain ⟨friend,_,rfl⟩ := List.mem_map.mp hmem
    rfl
  | _ => exact absurd hmem List.not_mem_nil

/-- An operation publishes the next key at most. -/
theorem operationChanges_publishedKey {circumstances : Circumstances} {tables : Tables}
    {op : DbOperation} : ∀ change ∈ operationChanges dialect circumstances tables op,
      ∀ key,publishedKey change=some key → key=tables.posts.next := by
  intro change hmem key hkey
  cases op with
  | addNewPost userId propertyMap =>
    obtain ⟨user,_,rfl⟩ := List.mem_map.mp hmem
    exact (Option.some.inj hkey).symm
  | delPostById id userId =>
    obtain ⟨post,_,rfl⟩ := List.mem_map.mp hmem
    cases hkey
  | likeClicked id userId =>
    obtain ⟨post,_,hmem⟩ := List.mem_flatMap.mp hmem
    obtain ⟨user,_,rfl⟩ := List.mem_map.mp hmem
    cases hkey
  | _ => exact absurd hmem List.not_mem_nil

/-- A transaction publishes the next key at most. -/
theorem committed_publishedKey {site : Site} {move : Move} :
    ∀ change ∈ committed dialect site move,∀ key,publishedKey change=some key →
      key=site.store.content.posts.next := by
  intro change hmem key hkey
  unfold committed at hmem
  cases move with
  | call conditions call =>
    dsimp only at hmem
    split at hmem
    · rw [callChanges_publishedKey call change hmem] at hkey
      cases hkey
    · exact absurd hmem List.not_mem_nil
  | operation circumstances arrangement op =>
    dsimp only at hmem
    split at hmem
    · exact operationChanges_publishedKey change hmem key hkey
    · exact absurd hmem List.not_mem_nil
  | addProperties broken userProperties binaryData =>
    dsimp only at hmem
    split at hmem
    · cases List.mem_singleton.mp hmem
      cases hkey
    · exact absurd hmem List.not_mem_nil
  | connectPropertiesAndPhoto broken userId =>
    dsimp only at hmem
    split at hmem
    · split at hmem
      · exact absurd hmem List.not_mem_nil
      · cases List.mem_singleton.mp hmem
        cases hkey
    · exact absurd hmem List.not_mem_nil
  | deleteRow broken userId =>
    dsimp only at hmem
    split at hmem
    · exact absurd hmem List.not_mem_nil
    · cases List.mem_singleton.mp hmem
      cases hkey
  | addNewPhoto broken userId => exact absurd hmem List.not_mem_nil
  | deletePhoto broken userId => exact absurd hmem List.not_mem_nil

/-- A deed publishes the next key at most. -/
theorem reported_publishedKey : ∀ change ∈ (reported deployment system deed).map Prod.snd,
    ∀ key,publishedKey change=some key → key=system.site.store.content.posts.next := by
  intro change hmem key hkey
  unfold reported at hmem
  cases deed with
  | transacts peer =>
    dsimp only at hmem
    split at hmem
    · rw [map_source] at hmem
      exact committed_publishedKey change hmem key hkey
    · exact absurd hmem List.not_mem_nil
  | reads number found =>
    dsimp only at hmem
    split at hmem
    · rw [map_source] at hmem
      obtain ⟨op,_,hmem⟩ := List.mem_flatMap.mp hmem
      split at hmem
      · exact operationChanges_publishedKey change hmem key hkey
      · unfold unconfirmed at hmem
        split at hmem
        · exact operationChanges_publishedKey change hmem key hkey
        · exact absurd hmem List.not_mem_nil
    · exact absurd hmem List.not_mem_nil
  | _ => exact absurd hmem List.not_mem_nil

/-- A deed that does not delete a post leaves it its photo. -/
theorem deed_pictured (h : Sound system.site)
    (hpictured : Pictured (networkOf system.site.store) postId picture)
    (hkept : .retracted postId ∉ (reported deployment system deed).map Prod.snd)
    (hstep : step deployment system deed=some next) :
    Pictured (networkOf next.site.store) postId picture := by
  rw [(WholeSystem.step_refined h hstep).network]
  refine hpictured.replay fun change hmem => ⟨?_,?_⟩
  · rintro rfl
    exact hkept hmem
  · rintro publication rfl
    obtain ⟨found,hfound,_⟩ := hpictured
    have hnext : postId=system.site.store.content.posts.next := reported_publishedKey _ hmem postId rfl
    obtain ⟨row,hrow,_⟩ := Option.map_eq_some_iff.mp hfound
    rw [hnext,lookup_next] at hrow
    cases hrow

/-- So does a run. -/
theorem run_pictured (h : Sound system.site)
    (hpictured : Pictured (networkOf system.site.store) postId picture)
    (hkept : .retracted postId ∉
      (ledger (step deployment) (reported deployment) system deeds).map Prod.snd)
    (hrun : run (step deployment) system deeds=some final) :
    Pictured (networkOf final.site.store) postId picture := by
  induction deeds generalizing system with
  | nil =>
    cases hrun
    exact hpictured
  | cons deed rest ih =>
    unfold run at hrun
    unfold ledger at hkept
    cases hstep : step deployment system deed with
    | none =>
      rw [hstep] at hrun
      cases hrun
    | some next =>
      rw [hstep] at hrun hkept
      rw [List.map_append] at hkept
      have hparts := not_or.mp (List.mem_append.not.mp hkept)
      exact ih (WholeSystem.step_refined h hstep).sound (deed_pictured h hpictured hparts.1 hstep) hparts.2 hrun

end reports

section callbacks

variable {deployment : Deployment} {request : ClientRequest} {id : Bytes} {scene : Scene} {key : ℕ}

/-- An acknowledged POST has succeeded with its operation, which has made the network. -/
theorem acknowledged_post (h : Sound (Site.opened scene.store)) (hmethod : request.method=.post)
    {operation : PostOperation} (hasked : postOperation request id=some (.ok operation))
    {origin : Bytes} (hanswer : .formResponseOk origin ∈
      responses (onGetId deployment.content request id scene).events) :
    operation.Succeeds deployment.installation.dialect.readInteger scene.circumstances
        scene.store.content ∧
      networkOf (onGetId deployment.content request id scene).world.store=
        (networkOf scene.store).replay (operationChanges deployment.installation.dialect
          scene.circumstances scene.store.content (operationOf operation)) := by
  by_cases hword : id ∈ [unauthorized,badRequest,internalServerError]
  · have hwords : id=unauthorized ∨ id=badRequest ∨ id=internalServerError := by
      simpa only [List.mem_cons,List.not_mem_nil,or_false] using hword
    have hevents : ∃ status,onGetId deployment.content request id=
        respond (.wordError status request.origin) := by
      unfold onGetId
      rcases hwords with rfl|rfl|rfl
      · exact ⟨401,rfl⟩
      · exact ⟨400,rfl⟩
      · exact ⟨500,rfl⟩
    obtain ⟨status,hcall⟩ := hevents
    rw [hcall] at hanswer
    cases List.mem_singleton.mp hanswer
  · rw [ContentRoutes.onGetId_client deployment.content request hword] at hanswer ⊢
    rcases @tryBlock_cases deployment request id scene with
      ⟨outcome,hblock,hnone⟩|⟨found,hfound,outcome,hblock,hok⟩
    · rw [serveTarget_post_run deployment.content hmethod id hblock] at hanswer
      cases outcome with
      | error e => cases List.mem_singleton.mp hanswer
      | ok value =>
        rw [hnone rfl] at hasked
        cases hasked
    · cases hfound.symm.trans hasked
      rw [serveTarget_post_run deployment.content hmethod id hblock] at hanswer ⊢
      cases outcome with
      | error e => cases List.mem_singleton.mp hanswer
      | ok value =>
        obtain ⟨_,hnetwork⟩ := @operation_refined deployment.installation.dialect
          scene.circumstances scene.arrangement (Site.opened scene.store) h operation
        change networkOf _=(networkOf scene.store).replay
          (if (operateStore _ _ _ _ scene.store).1.isOk then _ else _) at hnetwork
        have hdone := (operated_isOk operation scene.store.content _).mp hok.symm
        rw [←hok] at hnetwork
        exact ⟨hdone.1,hnetwork⟩

/-- A GET for the photo of a post: no route in front of it is mentioned, and
the query names a key. -/
structure AsksPhoto (readInteger : Bytes → Option ℤ) (request : ClientRequest) (key : ℕ) : Prop where
  /-- A GET. -/
  method : request.method=.get
  /-- Not the greeting. -/
  greeting : request.target≠ascii "/getId"
  /-- Not the list of posts. -/
  posts : ¬Mentions request.target (ascii "/getPostsList")
  /-- Not the list of an author's posts. -/
  postsBy : ¬Mentions request.target (ascii "/getByIdPostsList")
  /-- The photo. -/
  photo : Mentions request.target (ascii "/getPostPhoto")
  /-- The key. -/
  key : ∃ urlStrArg,URLParser request.target=.ok urlStrArg ∧
    readInteger (property urlStrArg (ascii "photo_id"))=some (key : ℤ)

/-- An operation that succeeds is called, and its result returned. -/
theorem operate_ok {op : DbOperation} {value : op.Answer}
    (h : (deployment.content.operate op scene).1=.ok value) :
    ∃ after,operate deployment.content op scene=⟨.ok value,after,[.operation op]⟩ := by
  unfold operate
  rw [record_bind_run]
  unfold act
  dsimp only
  rw [h]
  exact ⟨_,rfl⟩

/-- A handler does nothing behind a body that returns. -/
theorem attempt_ok {body : Call Scene ContentEvent Response}
    {handler : CxxException → Call Scene ContentEvent Response} {response : Response} {after : Scene}
    {events : List ContentEvent} (h : body scene=⟨.ok response,after,events⟩) :
    attempt body handler scene=⟨.ok response,after,events⟩ := by
  unfold attempt
  rw [h]

/-- A photo that is read is the answer. -/
theorem getTarget_photo (hasks : AsksPhoto deployment.installation.dialect.readInteger request key)
    {urlStrArg : PropertyMap} (hquery : URLParser request.target=.ok urlStrArg)
    {photoType photo : Bytes} (hread : (deployment.content.operate
      (.getPostPhotoById (property urlStrArg (ascii "photo_id"))) scene).1=.ok (photoType,photo)) :
    ∃ after,getTarget deployment.content request id scene=
      ⟨.ok (.formResponseWithBinData request.origin photoType photo),after,
        [.operation (.getPostPhotoById (property urlStrArg (ascii "photo_id")))]⟩ := by
  obtain ⟨after,hoperated⟩ := operate_ok hread
  refine ⟨after,?_⟩
  unfold getTarget
  rw [if_neg hasks.greeting,if_neg hasks.posts,if_neg hasks.postsBy,if_pos hasks.photo,
    compute_ok_bind_run hquery,bind_run_ok (congrArg Ran.outcome hoperated),hoperated]
  rfl

/-- While the database works, the photo of a post is served. -/
theorem photo_served (h : Sound (Site.opened scene.store)) {postId : ℕ} {picture : PostPhoto}
    (hpictured : Pictured (networkOf scene.store) postId picture)
    (hasks : AsksPhoto deployment.installation.dialect.readInteger request picture.id)
    (hclient : id ∉ [unauthorized,badRequest,internalServerError])
    (hhealthy : scene.circumstances.Healthy) (hconnect : scene.circumstances.connect=none) :
    responses (onGetId deployment.content request id scene).events=
      [.formResponseWithBinData request.origin picture.photoType picture.photo] := by
  obtain ⟨urlStrArg,hquery,hkey⟩ := hasks.key
  obtain ⟨publication,hfound,hphoto⟩ := hpictured
  obtain ⟨found,hsame,hread⟩ := @photo_ok deployment.installation.dialect
    (Site.opened scene.store) h scene.circumstances hhealthy
    (property urlStrArg (ascii "photo_id")) postId publication hfound
  cases hsame.symm.trans hphoto
  have hopens : Opens deployment.content scene := congrArg raise? hconnect
  obtain ⟨after,htarget⟩ := @getTarget_photo deployment request id scene _ hasks _ hquery _ _
    (hread hkey)
  have hattempt := @attempt_ok scene _ (targetError request) _ _ _ htarget
  rw [ContentRoutes.onGetId_client deployment.content request hclient]
  unfold serveTarget
  rw [hasks.method]
  dsimp only
  rw [connect_bind_ok deployment.content hopens]
  change responses ((attempt (getTarget deployment.content request id) (targetError request)>>=
    respond) scene).events=_
  rw [bind_run_ok (congrArg Ran.outcome hattempt),hattempt]
  rfl

end callbacks

section runs

variable {deployment : Deployment} {system next final last : System} {earlier later : List Deed}
  {number other : ℕ} {found meanwhile : Circumstances×Arrangement latestFirst}
  {request asking : ClientRequest} {id reader origin : Bytes} {events answers : List ContentEvent}

/-- The post that is acknowledged has the photo of its form. -/
theorem published_pictured (h : Sound system.site)
    (hposted : step deployment system (.reads number found)=some next)
    (hcalled : next.servers.log=.called number request id events::system.servers.log)
    (hmethod : request.method=.post) (htarget : request.target=ascii "/addNewPost")
    {fields : FormDataParser.FieldMap} (hform : request.form=.ok fields)
    (hacknowledged : .formResponseOk origin ∈ responses events) :
    Pictured (networkOf next.site.store) system.site.store.content.posts.next
      ⟨system.site.store.content.postPhotos.next,field fields (ascii "Content-Type"),
        field fields (ascii "photo")⟩ := by
  obtain ⟨_,_,rfl,hstore⟩ := called_of_log hposted hcalled
  have hasked : postOperation request id=some (.ok (.addNewPost id fields)) := by
    unfold postOperation
    rw [if_pos htarget,hform]
    rfl
  obtain ⟨⟨_,user,huser⟩,hnetwork⟩ :=
    @acknowledged_post deployment request id (sceneOf system found) h.opened hmethod _ hasked origin
      hacknowledged
  rw [hstore,hnetwork]
  unfold operationOf operationChanges
  dsimp only
  rw [huser]
  exact ⟨_,Function.update_self _ _ _,rfl⟩

/-- In every run of both servers on their tables: once a new post is
acknowledged, and as long as nobody deletes it, whoever asks for its photo
while the database works is served the type and the bytes of the form it came
in, whatever all clients do between. -/
theorem published_photo_served (hrun : run (step deployment) opened earlier=some system)
    (hposted : step deployment system (.reads number found)=some next)
    (hcalled : next.servers.log=.called number request id events::system.servers.log)
    (hmethod : request.method=.post) (htarget : request.target=ascii "/addNewPost")
    {fields : FormDataParser.FieldMap} (hform : request.form=.ok fields)
    (hacknowledged : .formResponseOk origin ∈ responses events)
    (hlater : run (step deployment) next later=some final)
    (hkept : .retracted system.site.store.content.posts.next ∉
      (ledger (step deployment) (reported deployment) next later).map Prod.snd)
    (hasked : step deployment final (.reads other meanwhile)=some last)
    (hanswered : last.servers.log=.called other asking reader answers::final.servers.log)
    (hasks : AsksPhoto deployment.installation.dialect.readInteger asking
      system.site.store.content.postPhotos.next)
    (hclient : reader ∉ [unauthorized,badRequest,internalServerError])
    (hhealthy : meanwhile.1.Healthy) (hconnect : meanwhile.1.connect=none) :
    responses answers=[.formResponseWithBinData asking.origin (field fields (ascii "Content-Type"))
      (field fields (ascii "photo"))] := by
  have hsound := (run_orderly hrun).sound
  have hpictured := published_pictured hsound hposted hcalled hmethod htarget hform hacknowledged
  have hbehind := (WholeSystem.step_refined hsound hposted).sound
  obtain ⟨_,_,rfl,_⟩ := called_of_log hasked hanswered
  have hfinal := run_keeps_sound hbehind hlater
  exact @photo_served deployment asking reader (sceneOf final meanwhile) hfinal.opened _
    _ (run_pictured hbehind hpictured hkept hlater) hasks hclient hhealthy hconnect

/-- The user 1 registers, and publishes a post. -/
def posting : List Deed :=
  exchanged 3 (registrationOf (ascii "ann") (ascii "a@b")) AuthProcess.fine 3++
    inquired 0 publishRequest

/-- Another one registers, and the photo is asked for between its transactions. -/
def asksLater : List Deed :=
  begins 4 (registrationOf (ascii "eve") (ascii "e@b")) AuthProcess.fine++
    [.transacts (.client 4)]++inquired 1 photoRequest

/-- Where a callback acknowledges a write to. -/
def acknowledgedTo (events : List ContentEvent) : List Bytes :=
  (responses events).filterMap fun
    | .formResponseOk origin => some origin
    | _ => none

/-- It acknowledges one. -/
theorem formResponseOk_mem (h : origin ∈ acknowledgedTo events) :
    .formResponseOk origin ∈ responses events := by
  obtain ⟨response,hmem,hsome⟩ := List.mem_filterMap.mp h
  split at hsome
  · cases hsome
    exact hmem
  · cases hsome

/-- The callback that the reply of an inquiry leads to. -/
def callbackOf (system : System) (number : ℕ) : Option (ClientRequest×Bytes×List ContentEvent) :=
  (calledWith plainDeployment system.servers number).map fun called => (called.1,called.2,
    (onGetId plainDeployment.content called.1 called.2 (sceneOf system working)).events)

/-- Reading the reply does so. -/
theorem callbackOf_reads (h : callbackOf system number=some (request,id,events)) :
    ∃ next,step plainDeployment system (.reads number working)=some next ∧
      next.servers.log=.called number request id events::system.servers.log := by
  obtain ⟨called,hcalled,hparts⟩ := Option.map_eq_some_iff.mp h
  cases hparts
  exact reads_called hcalled working

/-- What the sample run shows of an acknowledged form. -/
structure PostedForm where
  /-- Method. -/
  method : Verb
  /-- Target. -/
  target : Bytes
  /-- Photo of the form. -/
  photo : Option Bytes
  /-- Where it is acknowledged to. -/
  origins : List Bytes
  /-- Key that the photo gets. -/
  key : ℕ
deriving DecidableEq

/-- The form of the first inquiry. -/
def postedForm (system : System) : Option PostedForm :=
  (callbackOf system 0).map fun called => ⟨called.1.method,called.1.target,
    called.1.form.toOption.map fun fields => field fields (ascii "photo"),
    acknowledgedTo called.2.2,system.site.store.content.postPhotos.next⟩

/-- Key of the post that a change deletes. -/
def retractedKey : Change → Option ℤ
  | .retracted postId => some postId
  | _ => none

/-- What it shows later: who asks for which photo, and what has been deleted before. -/
def askedPhoto (next : System) : Option (Option (Verb×Bytes×Bytes)×List ℤ) :=
  (run (step plainDeployment) next asksLater).map fun final =>
    ((callbackOf final 1).map fun called => (called.1.method,called.1.target,called.2.1),
      ((ledger (step plainDeployment) (reported plainDeployment) next asksLater).map
        Prod.snd).filterMap retractedKey)

/-- The sample request asks for the first photo. -/
theorem asksPhoto_photoRequest (hmethod : asking.method=.get)
    (htarget : asking.target=photoRequest.target) :
    AsksPhoto plainDialect.readInteger asking 1 where
  method := hmethod
  greeting := by
    rw [htarget]
    decide +kernel
  posts := by
    rw [htarget]
    decide +kernel
  postsBy := by
    rw [htarget]
    decide +kernel
  photo := by
    rw [htarget]
    decide +kernel
  key := by
    rw [htarget]
    have hmap : (URLParser photoRequest.target).toOption.map (fun urlStrArg =>
        plainDialect.readInteger (property urlStrArg (ascii "photo_id")))=some (some 1) := by
      decide +kernel
    obtain ⟨urlStrArg,hok,hread⟩ := Option.map_eq_some_iff.mp hmap
    exact ⟨urlStrArg,ok_of_toOption hok,hread⟩

/-- The photo that the user 1 has published is served while another one registers. -/
theorem published_photo_served_eve :
    ∃ system next final last request id events fields asking answers,
      run (step plainDeployment) opened posting=some system ∧
      step plainDeployment system (.reads 0 working)=some next ∧
      next.servers.log=.called 0 request id events::system.servers.log ∧
      request.form=.ok fields ∧
      run (step plainDeployment) next asksLater=some final ∧
      step plainDeployment final (.reads 1 working)=some last ∧
      last.servers.log=.called 1 asking (ascii "1") answers::final.servers.log ∧
      responses answers=[.formResponseWithBinData asking.origin
        (field fields (ascii "Content-Type")) (ascii "\r\n\r\nname=")] := by
  have hposting : (run (step plainDeployment) opened posting).map postedForm=
      some (some ⟨.post,ascii "/addNewPost",some (ascii "\r\n\r\nname="),[ascii "o"],1⟩) := by
    decide +kernel
  have hlater : ((run (step plainDeployment) opened posting).bind fun system =>
      (step plainDeployment system (.reads 0 working)).bind askedPhoto)=
      some (some (.get,photoRequest.target,ascii "1"),[]) := by
    decide +kernel
  obtain ⟨system,hrun,hseen⟩ := Option.map_eq_some_iff.mp hposting
  obtain ⟨⟨request,id,events⟩,hcallback,hparts⟩ := Option.map_eq_some_iff.mp hseen
  obtain ⟨next,hstep,hcalled⟩ := callbackOf_reads hcallback
  rw [hrun,Option.bind_some,hstep,Option.bind_some] at hlater
  obtain ⟨final,hfinal,hasked⟩ := Option.map_eq_some_iff.mp hlater
  obtain ⟨hcallbackOf,hretracted⟩ := Prod.mk.inj hasked
  obtain ⟨⟨asking,reader,answers⟩,hanswer,hasker⟩ := Option.map_eq_some_iff.mp hcallbackOf
  obtain ⟨last,hlast,hlog⟩ := callbackOf_reads hanswer
  simp only [PostedForm.mk.injEq,Prod.mk.injEq] at hparts hasker
  obtain ⟨hmethod,htarget,hform,hacknowledged,hphoto⟩ := hparts
  obtain ⟨hget,hquery,rfl⟩ := hasker
  obtain ⟨fields,hfields,hbytes⟩ := Option.map_eq_some_iff.mp hform
  have hkept : .retracted system.site.store.content.posts.next ∉
      (ledger (step plainDeployment) (reported plainDeployment) next asksLater).map Prod.snd := by
    intro hmem
    have hkey : (system.site.store.content.posts.next : ℤ) ∈
        ((ledger (step plainDeployment) (reported plainDeployment) next asksLater).map
          Prod.snd).filterMap retractedKey := List.mem_filterMap.mpr ⟨_,hmem,rfl⟩
    rw [hretracted] at hkey
    exact absurd hkey List.not_mem_nil
  have hserved := published_photo_served hrun hstep hcalled hmethod htarget
    (ok_of_toOption hfields) (formResponseOk_mem (hacknowledged ▸ List.mem_singleton_self _))
    hfinal hkept hlast hlog (hphoto ▸ asksPhoto_photoRequest hget hquery) (by decide +kernel)
    ⟨fun _ => rfl,rfl⟩ rfl
  rw [hbytes] at hserved
  exact ⟨system,next,final,last,request,id,events,fields,asking,answers,hrun,hstep,hcalled,
    ok_of_toOption hfields,hfinal,hlast,hlog,hserved⟩

end runs

end Photogram.PublishedPhotos
