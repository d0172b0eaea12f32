import Photogram.HttpReader
import Photogram.PostOwners

/-!
# Statuses of POST replies

The callback of a POST starts its response with the status 400 and rewrites
it behind a try block: once when nothing is raised, once or twice when
something is. A second rewriting overwrites the status of the first one, and
an unknown target raises nothing. So the status says that nothing was raised,
which is less than that something was done.
-/

namespace Photogram.ContentStatus

open CxxString EffectLog JsonValue QueryString FormDataParser AnotherServerConnection RowTable
open ContentConnection ContentHandlers ContentPosts PostOwners PostPhotos

section rewriting

/-- A response as it is built. -/
structure HttpResponse where
  /-- The HTTP version. -/
  version : ℕ
  /-- The status. -/
  result : ℕ
  /-- The header fields. -/
  fields : ByteMap Bytes
  /-- The body. -/
  body : Bytes

/-- Set a header field. -/
def HttpResponse.set (response : HttpResponse) (name value : Bytes) : HttpResponse :=
  {response with fields := response.fields.insert name value}

/-- Announce the length of the body. -/
def HttpResponse.preparePayload (response : HttpResponse) : HttpResponse :=
  response.set (ascii "Content-Length") (HttpReader.numeral response.body.length)

/-- Rewrite a response for a success. -/
def formResponseOk (response : HttpResponse) (clientAddres : Bytes) : HttpResponse :=
  ({response with version := 11,result := 200}.set (ascii "Access-Control-Allow-Origin") clientAddres
    |>.set (ascii "Content-Length") (ascii "0")).preparePayload

/-- Rewrite a response for an error. -/
def formResponseError (response : HttpResponse) (clientAddres : Bytes) (error : ℕ) : HttpResponse :=
  ({response with version := 11,result := error}.set (ascii "Access-Control-Allow-Origin") clientAddres
    |>.set (ascii "Access-Control-Allow-Credentials") (ascii "true")
    |>.set (ascii "Content-Length") (ascii "0")).preparePayload

/-- The response the callback of a POST starts with. -/
def startedResponse : HttpResponse := ⟨11,400,∅,[]⟩

/-- The response written behind the try block of a POST. -/
def postResponse (clientAddres : Bytes) : Except CxxException Unit → HttpResponse
  | .ok _ => formResponseOk startedResponse clientAddres
  | .error e =>
    let response :=
      if e=badRequestError then formResponseError startedResponse clientAddres 400
      else startedResponse
    formResponseError response clientAddres 500

/-- Status of an answer. -/
def status : Response → ℕ
  | .bare result => result
  | .wordError result _ => result
  | .formResponseOptions _ => 204
  | .formResponseText _ _ => 200
  | .formResponseJson _ _ => 200
  | .formResponseOk _ => 200
  | .formResponseError _ error => error
  | .formResponseWithBinData _ _ _ => 200

/-- Behind the try block the status is 200 or 500. -/
theorem postResponse_result (clientAddres : Bytes) (outcome : Except CxxException Unit) :
    (postResponse clientAddres outcome).result=if outcome=.ok () then 200 else 500 := by
  cases outcome <;> rfl

end rewriting

section serving

/-- An operation a POST asks for. -/
inductive PostOperation where
  | addNewPost (userId : Bytes) (propertyMap : FieldMap)
  | delPostById (postId id : Bytes)
  | likeClicked (postId userId : Bytes)

/-- The operation of the target of a POST, with its arguments read from the
form or the query; nothing for an unknown target. -/
def postOperation (request : ClientRequest) (id : Bytes) : Option (Except Failure PostOperation) :=
  if request.target=ascii "/addNewPost" then some (request.form.map fun data => .addNewPost id data)
  else if Mentions request.target (ascii "/deletePost") then
    some ((URLParser request.target).map fun urlStrArg =>
      .delPostById (property urlStrArg (ascii "post_id")) id)
  else if Mentions request.target (ascii "/likeClicked") then
    some ((URLParser request.target).map fun urlStrArg =>
      .likeClicked (property urlStrArg (ascii "post_id")) id)
  else none

variable {τ : Type} (services : ContentServices τ)

/-- Call an operation a POST asks for. -/
def operatePost : PostOperation → Call τ ContentEvent Unit
  | .addNewPost userId propertyMap => operate services (.addNewPost userId propertyMap)
  | .delPostById postId id => operate services (.delPostById postId id)
  | .likeClicked postId userId => operate services (.likeClicked postId userId)

/-- The try block of a POST, up to its answer. -/
def tryBlock (request : ClientRequest) (id : Bytes) : Call τ ContentEvent Unit := do
  act services.connect
  postTarget services request id

/-- What is behind a mapped computation takes the mapped value. -/
theorem compute_map_bind {α β γ : Type} (result : Except Failure α) (f : α → β)
    (rest : β → Call τ ContentEvent γ) :
    (compute (result.map f)>>=rest)=compute result>>=fun value => rest (f value) := by
  cases result <;> rfl

/-- Serving the target of a POST reads its operation and calls it. -/
theorem postTarget_eq (request : ClientRequest) (id : Bytes) :
    postTarget services request id=
      match postOperation request id with
      | none => pure ()
      | some operation => compute operation>>=operatePost services := by
  unfold postTarget postOperation
  split
  · exact (compute_map_bind request.form (.addNewPost id) (operatePost services)).symm
  split
  · exact (compute_map_bind (URLParser request.target) (fun urlStrArg =>
      .delPostById (property urlStrArg (ascii "post_id")) id) (operatePost services)).symm
  split
  · exact (compute_map_bind (URLParser request.target) (fun urlStrArg =>
      .likeClicked (property urlStrArg (ascii "post_id")) id) (operatePost services)).symm
  · rfl

/-- The arguments of an operation are never refused as a bad request. -/
theorem postOperation_error {request : ClientRequest} {id : Bytes} {failure : Failure}
    (h : postOperation request id=some (.error failure)) :
    ∃ e,failure=.thrown e ∧ e≠badRequestError := by
  have hquery : ∀ {wrap : PropertyMap → PostOperation},
      (URLParser request.target).map wrap=.error failure → ∃ e,failure=.thrown e ∧ e≠badRequestError := by
    intro wrap hmap
    cases hparse : URLParser request.target with
    | ok urlStrArg =>
      rw [hparse] at hmap
      cases hmap
    | error raised =>
      rw [hparse] at hmap
      cases hmap
      exact ⟨_,raisesOnly_scanQuery _ _ _ _ hparse,by decide⟩
  unfold postOperation at h
  split at h
  · cases hform : request.form with
    | ok data =>
      rw [hform] at h
      cases h
    | error raised =>
      rw [hform] at h
      cases h
      exact ⟨_,raisesOnly_form request _ hform,by decide⟩
  split at h
  · exact hquery (Option.some.inj h)
  split at h
  · exact hquery (Option.some.inj h)
  · cases h

/-- A POST is answered for its try block with the status of the response
that is rewritten behind it. -/
theorem serveTarget_post {request : ClientRequest} (hmethod : request.method=.post) (id : Bytes)
    (world : τ) {outcome : Except CxxException Unit}
    (hout : (tryBlock services request id world).outcome=outcome.mapError Failure.thrown) :
    ∃ response,responses (serveTarget services request id world).events=[response] ∧
      status response=(postResponse request.origin outcome).result := by
  have hblock : Attempts isResponse (tryBlock services request id) 0 :=
    attempts_bind (attempts_act _) fun _ => attempts_postTarget services request id
  have hnone : responses (tryBlock services request id world).events=[] := by
    refine List.eq_nil_of_length_eq_zero ?_
    rw [length_responses]
    exact (hblock world).elim And.right And.right
  have hserve : serveTarget services request id=
      (attempt (tryBlock services request id>>=fun _ =>
        pure (Response.formResponseOk request.origin)) (targetError request)>>=respond) := by
    unfold serveTarget tryBlock
    rw [hmethod,bind_assoc]
  have hanswer : ∀ events : List ContentEvent,∀ response,responses events=[] →
      responses (events++[.responded response])=[response] := by
    intro events response hempty
    unfold responses at hempty ⊢
    rw [List.filterMap_append,hempty]
    rfl
  rw [hserve]
  cases outcome with
  | ok value =>
    have hattempt : attempt (tryBlock services request id>>=fun _ =>
        pure (Response.formResponseOk request.origin)) (targetError request) world=
          ⟨.ok (.formResponseOk request.origin),(tryBlock services request id world).world,
            (tryBlock services request id world).events++[]⟩ := by
      unfold attempt
      rw [bind_run_ok hout]
      rfl
    rw [bind_run_ok (congrArg Ran.outcome hattempt),hattempt]
    refine ⟨.formResponseOk request.origin,hanswer _ _ ?_,rfl⟩
    rw [List.append_nil]
    exact hnone
  | error e =>
    have hattempt : attempt (tryBlock services request id>>=fun _ =>
        pure (Response.formResponseOk request.origin)) (targetError request) world=
          ⟨.ok (.formResponseError request.origin 500),(tryBlock services request id world).world,
            (tryBlock services request id world).events++[]⟩ := by
      unfold attempt
      rw [bind_run_error hout]
      rfl
    rw [bind_run_ok (congrArg Ran.outcome hattempt),hattempt]
    refine ⟨.formResponseError request.origin 500,hanswer _ _ ?_,rfl⟩
    rw [List.append_nil]
    exact hnone

end serving

section operations

variable (readInteger : Bytes → Option ℤ) (circumstances : Circumstances)

/-- The text by which a deletion is refused. -/
def refusal : CxxException := .runtimeError "Bad request"

/-- What the first of some statements to fail raises. -/
def raised (numbers : List ℕ) : Option CxxException := numbers.findSome? circumstances.fault

/-- The user owns the post of a key. -/
def Owns (tables : Tables) (post user : ℤ) : Prop :=
  ∃ row ∈ tables.posts.rows,(row.id : ℤ)=post ∧ row.userId=user

/-- Run an operation a POST asks for. -/
def PostOperation.run : PostOperation → Tables → Except CxxException Unit×Tables
  | .addNewPost userId propertyMap => ContentPosts.addNewPost readInteger circumstances userId propertyMap
  | .delPostById postId id => ContentPosts.delPostById readInteger circumstances postId id
  | .likeClicked postId userId => ContentPosts.likeClicked readInteger circumstances postId userId

/-- Its statements, in front of the commit. -/
def PostOperation.work : PostOperation → Tables → Except CxxException Tables
  | .addNewPost userId propertyMap,tables => do
    let withPhoto ← addNewPostPhoto circumstances propertyMap tables
    addNewPostInformation readInteger circumstances userId propertyMap tables.postPhotos.next withPhoto
  | .delPostById postId id,tables => delPostByIdWork readInteger circumstances postId id tables
  | .likeClicked postId userId,tables => likeClickedWork readInteger circumstances postId userId tables

/-- None of its statements fails, its keys are integers, and a post to be
deleted belongs to the caller. -/
def PostOperation.Succeeds (tables : Tables) : PostOperation → Prop
  | .addNewPost userId _ => raised circumstances [0,1,2]=none ∧ ∃ user,readInteger userId=some user
  | .delPostById postId id => raised circumstances [0,1,2,3]=none ∧
      ∃ post user,readInteger postId=some post ∧ readInteger id=some user ∧ Owns tables post user
  | .likeClicked postId userId => raised circumstances [0,1,2,3]=none ∧
      ∃ post user,readInteger postId=some post ∧ readInteger userId=some user

/-- It is a deletion of a post that does not exist or is not the caller's, or
the database raises the text such a deletion is refused by. -/
def PostOperation.Refused (tables : Tables) : PostOperation → Prop
  | .delPostById postId id => raised circumstances [0,1]=some refusal ∨
      raised circumstances [0,1]=none ∧ ∃ post user,readInteger postId=some post ∧
        readInteger id=some user ∧ (¬Owns tables post user ∨
          raised circumstances [2,3]=some refusal ∨
          raised circumstances [2,3]=none ∧ ∃ kept,circumstances.commit=some (refusal,kept))
  | _ => False

/-- Its writes are committed, but the commit raises. -/
def PostOperation.LostAnswer (tables : Tables) (operation : PostOperation) : Prop :=
  operation.Succeeds readInteger circumstances tables ∧ ∃ e,circumstances.commit=some (e,true)

/-- Its statements end with what they wrote, and that is kept. -/
def PostOperation.Commits (tables : Tables) (operation : PostOperation) : Prop :=
  (∃ written,operation.work readInteger circumstances tables=.ok written) ∧
    ∀ raised,circumstances.commit=some raised → raised.2=true

section statements

variable {readInteger circumstances} {α : Type}

/-- No statement of a list fails when the first one does not and the others do not. -/
theorem raised_cons_none {number : ℕ} {numbers : List ℕ} :
    raised circumstances (number::numbers)=none ↔
      circumstances.fault number=none ∧ raised circumstances numbers=none := by
  unfold raised
  rw [List.findSome?_cons]
  cases circumstances.fault number <;> simp

/-- What is raised is raised by the first statement or, behind it, by the others. -/
theorem raised_cons_some {number : ℕ} {numbers : List ℕ} {e : CxxException} :
    raised circumstances (number::numbers)=some e ↔ circumstances.fault number=some e ∨
      circumstances.fault number=none ∧ raised circumstances numbers=some e := by
  unfold raised
  rw [List.findSome?_cons]
  cases circumstances.fault number <;> simp

/-- What follows a statement returns when the statement does not fail. -/
theorem statement_bind_ok {number : ℕ} {rest : Unit → Except CxxException α} {value : α} :
    (statement circumstances number>>=rest)=.ok value ↔
      circumstances.fault number=none ∧ rest ()=.ok value := by
  unfold statement
  cases circumstances.fault number with
  | none => exact (and_iff_right rfl).symm
  | some e => exact iff_of_false nofun fun h => nomatch h.1

/-- It fails with the statement or behind it. -/
theorem statement_bind_error {number : ℕ} {rest : Unit → Except CxxException α} {e : CxxException} :
    (statement circumstances number>>=rest)=.error e ↔ circumstances.fault number=some e ∨
      circumstances.fault number=none ∧ rest ()=.error e := by
  unfold statement
  cases circumstances.fault number with
  | none => simp [raise?,bind,Except.bind]
  | some raised => simp [raise?,bind,Except.bind]

/-- What follows two statements fails with what they raise, or behind them. -/
theorem statements_bind_error {first second : ℕ} {rest : Unit → Except CxxException α}
    {e : CxxException} :
    (statement circumstances first>>=fun _ => statement circumstances second>>=rest)=.error e ↔
      raised circumstances [first,second]=some e ∨
        raised circumstances [first,second]=none ∧ rest ()=.error e := by
  have hnone : raised circumstances []≠some e := nofun
  have hempty : raised circumstances []=none := rfl
  rw [statement_bind_error,statement_bind_error,raised_cons_some,raised_cons_some,raised_cons_none,
    raised_cons_none]
  tauto

/-- What follows a key returns when the key is an integer. -/
theorem integer_bind_ok {text : Bytes} {rest : ℤ → Except CxxException α} {value : α} :
    (integer readInteger text>>=rest)=.ok value ↔
      ∃ key,readInteger text=some key ∧ rest key=.ok value := by
  unfold integer
  cases readInteger text with
  | none => simp [bind,Except.bind]
  | some key => simp [bind,Except.bind]

/-- It is refused behind an integer only. -/
theorem integer_bind_refusal {text : Bytes} {rest : ℤ → Except CxxException α} :
    (integer readInteger text>>=rest)=.error refusal ↔
      ∃ key,readInteger text=some key ∧ rest key=.error refusal := by
  unfold integer
  cases readInteger text with
  | none => simp [refusal,bind,Except.bind]
  | some key => simp [bind,Except.bind]

end statements

section outcomes

variable {readInteger circumstances} {tables : Tables}

/-- The check of a deletion asks for the owner of the post. -/
theorem any_owns {post user : ℤ} :
    (tables.posts.rows.any fun row => (row.id : ℤ)=post ∧ row.userId=user)=true ↔
      Owns tables post user := by
  simp [Owns,List.any_eq_true]

/-- The statements of an operation end exactly when it succeeds. -/
theorem work_ok_iff {operation : PostOperation} :
    (∃ written,operation.work readInteger circumstances tables=.ok written) ↔
      operation.Succeeds readInteger circumstances tables := by
  cases operation with
  | addNewPost userId propertyMap =>
    unfold PostOperation.work PostOperation.Succeeds addNewPostPhoto addNewPostInformation
    simp only [bind_assoc,pure_bind,statement_bind_ok,integer_bind_ok,raised_cons_none]
    constructor
    · rintro ⟨_,hzero,hone,htwo,user,huser,_⟩
      exact ⟨⟨hzero,hone,htwo,rfl⟩,user,huser⟩
    · rintro ⟨⟨hzero,hone,htwo,_⟩,user,huser⟩
      exact ⟨_,hzero,hone,htwo,user,huser,rfl⟩
  | delPostById postId id =>
    unfold PostOperation.work PostOperation.Succeeds delPostByIdWork
    simp only [statement_bind_ok,integer_bind_ok,raised_cons_none,←any_owns]
    constructor
    · rintro ⟨_,hzero,hone,post,hpost,user,huser,hrest⟩
      split at hrest
      · next howns =>
        obtain ⟨htwo,hthree,_⟩ := (statement_bind_ok.trans
          (and_congr_right fun _ => statement_bind_ok)).mp hrest
        exact ⟨⟨hzero,hone,htwo,hthree,rfl⟩,post,user,hpost,huser,howns⟩
      · cases hrest
    · rintro ⟨⟨hzero,hone,htwo,hthree,_⟩,post,user,hpost,huser,howns⟩
      refine ⟨tables.deletePost post,hzero,hone,post,hpost,user,huser,?_⟩
      rw [if_pos howns]
      exact statement_bind_ok.mpr ⟨htwo,statement_bind_ok.mpr ⟨hthree,rfl⟩⟩
  | likeClicked postId userId =>
    unfold PostOperation.work PostOperation.Succeeds likeClickedWork
    simp only [statement_bind_ok,integer_bind_ok,raised_cons_none]
    constructor
    · rintro ⟨_,hzero,hone,post,hpost,user,huser,htwo,hthree,_⟩
      exact ⟨⟨hzero,hone,htwo,hthree,rfl⟩,post,user,hpost,huser⟩
    · rintro ⟨⟨hzero,hone,htwo,hthree,_⟩,post,user,hpost,huser⟩
      exact ⟨_,hzero,hone,post,hpost,user,huser,htwo,hthree,(apply_ite Except.ok _ _ _).symm⟩

/-- The statements of a deletion are refused behind a text of that kind, or
when the check of the owner fails. -/
theorem delPostByIdWork_refusal {postId id : Bytes} :
    delPostByIdWork readInteger circumstances postId id tables=.error refusal ↔
      raised circumstances [0,1]=some refusal ∨ raised circumstances [0,1]=none ∧
        ∃ post user,readInteger postId=some post ∧ readInteger id=some user ∧
          (¬Owns tables post user ∨ raised circumstances [2,3]=some refusal) := by
  unfold delPostByIdWork
  rw [statements_bind_error]
  refine or_congr_right (and_congr_right fun _ => ?_)
  rw [integer_bind_refusal]
  refine exists_congr fun post => ?_
  rw [integer_bind_refusal]
  constructor
  · rintro ⟨hpost,user,huser,hrest⟩
    refine ⟨user,hpost,huser,?_⟩
    split at hrest
    · rcases statements_bind_error.mp hrest with hraised|⟨_,hlast⟩
      · exact Or.inr hraised
      · cases hlast
    · next hother => exact Or.inl fun howns => hother (any_owns.mpr howns)
  · rintro ⟨user,hpost,huser,hrefused⟩
    refine ⟨hpost,user,huser,?_⟩
    split
    · next howns =>
      exact statements_bind_error.mpr (Or.inl (hrefused.resolve_left (not_not.mpr (any_owns.mp howns))))
    · rfl

/-- A transaction returns when its statements end and its commit does not raise. -/
theorem finish_ok_iff {result : Except CxxException Tables} :
    (finish circumstances tables result).1=.ok () ↔
      (∃ written,result=.ok written) ∧ circumstances.commit=none := by
  unfold finish
  cases result with
  | error e => exact iff_of_false nofun fun h => nomatch h.1
  | ok written =>
    cases circumstances.commit with
    | none => exact iff_of_true rfl ⟨⟨written,rfl⟩,rfl⟩
    | some raised => exact iff_of_false nofun fun h => nomatch h.2

/-- It raises what its statements raise, or behind them its commit. -/
theorem finish_error_iff {result : Except CxxException Tables} {e : CxxException} :
    (finish circumstances tables result).1=.error e ↔ result=.error e ∨
      (∃ written,result=.ok written) ∧ ∃ kept,circumstances.commit=some (e,kept) := by
  unfold finish
  cases result with
  | error raised => simp
  | ok written =>
    cases circumstances.commit with
    | none => simp
    | some raised =>
      obtain ⟨found,kept⟩ := raised
      simp

/-- An operation returns when it succeeds and its commit does not raise. -/
theorem run_ok_iff {operation : PostOperation} :
    (operation.run readInteger circumstances tables).1=.ok () ↔
      operation.Succeeds readInteger circumstances tables ∧ circumstances.commit=none := by
  rw [←work_ok_iff,←@finish_ok_iff _ tables]
  cases operation with
  | addNewPost userId propertyMap =>
    change (addNewPost readInteger circumstances userId propertyMap tables).1=_ ↔ _
    unfold addNewPost
    cases hphoto : addNewPostPhoto circumstances propertyMap tables with
    | error e =>
      have hwork : (PostOperation.addNewPost userId propertyMap).work readInteger circumstances tables=
          .error e := by
        simp only [PostOperation.work,hphoto]
        rfl
      rw [hwork]
      exact iff_of_false nofun nofun
    | ok withPhoto =>
      have hwork : (PostOperation.addNewPost userId propertyMap).work readInteger circumstances tables=
          addNewPostInformation readInteger circumstances userId propertyMap tables.postPhotos.next
            withPhoto := by
        simp only [PostOperation.work,hphoto]
        rfl
      rw [hwork]
      dsimp only
      split
      · exact Iff.rfl
      · next e herror => exact iff_of_false nofun fun h => nomatch herror.symm.trans h
  | delPostById postId id =>
    change (delPostById readInteger circumstances postId id tables).1=_ ↔ _
    unfold delPostById
    dsimp only
    split
    · exact Iff.rfl
    · next e herror => exact iff_of_false nofun fun h => nomatch herror.symm.trans h
  | likeClicked postId userId =>
    change (likeClicked readInteger circumstances postId userId tables).1=_ ↔ _
    unfold likeClicked
    dsimp only
    split
    · exact Iff.rfl
    · next e herror => exact iff_of_false nofun fun h => nomatch herror.symm.trans h

/-- A deletion answers with a bad request exactly when its transaction ends with the refusal. -/
theorem delPostById_badRequest_iff {postId id : Bytes} :
    (delPostById readInteger circumstances postId id tables).1=.error badRequestError ↔
      (finish circumstances tables
        (delPostByIdWork readInteger circumstances postId id tables)).1=.error refusal := by
  have hother : serverError≠badRequestError := by decide
  unfold delPostById
  dsimp only
  split
  · next hreturned =>
    rw [hreturned]
    exact iff_of_false nofun nofun
  · next e herror =>
    rw [herror]
    by_cases he : e=refusal
    · rw [he]
      exact iff_of_true rfl rfl
    · have htext : ¬e=.runtimeError "Bad request" := he
      dsimp only
      rw [if_neg htext]
      exact iff_of_false (fun h => hother (Except.error.inj h)) fun h => he (Except.error.inj h)

/-- It raises the text of a bad request when it is refused. -/
theorem run_refused_iff {operation : PostOperation} :
    (operation.run readInteger circumstances tables).1=.error badRequestError ↔
      operation.Refused readInteger circumstances tables := by
  have hother : serverError≠badRequestError := by decide
  cases operation with
  | addNewPost userId propertyMap =>
    refine iff_of_false ?_ not_false
    change (addNewPost readInteger circumstances userId propertyMap tables).1≠_
    unfold addNewPost
    cases addNewPostPhoto circumstances propertyMap tables with
    | error e => exact fun h => hother (Except.error.inj h)
    | ok withPhoto =>
      dsimp only
      split
      · next hreturned => exact fun h => nomatch hreturned.symm.trans h
      · exact fun h => hother (Except.error.inj h)
  | delPostById postId id =>
    refine delPostById_badRequest_iff.trans ?_
    have hsucceeds := @work_ok_iff readInteger circumstances tables (.delPostById postId id)
    unfold PostOperation.work at hsucceeds
    rw [finish_error_iff,delPostByIdWork_refusal,hsucceeds]
    unfold PostOperation.Succeeds PostOperation.Refused
    simp only [raised_cons_none]
    constructor
    · rintro ((hfirst|⟨hnone,post,user,hpost,huser,hrefused⟩)|
        ⟨⟨⟨hzero,hone,hrest⟩,post,user,hpost,huser,_⟩,hcommit⟩)
      · exact Or.inl hfirst
      · exact Or.inr ⟨hnone,post,user,hpost,huser,hrefused.imp_right Or.inl⟩
      · exact Or.inr ⟨⟨hzero,hone,hrest.2.2⟩,post,user,hpost,huser,Or.inr (Or.inr ⟨hrest,hcommit⟩)⟩
    · rintro (hfirst|⟨hnone,post,user,hpost,huser,hother|hraised|⟨hrest,hcommit⟩⟩)
      · exact Or.inl (Or.inl hfirst)
      · exact Or.inl (Or.inr ⟨hnone,post,user,hpost,huser,Or.inl hother⟩)
      · exact Or.inl (Or.inr ⟨hnone,post,user,hpost,huser,Or.inr hraised⟩)
      · by_cases howns : Owns tables post user
        · exact Or.inr ⟨⟨⟨hnone.1,hnone.2.1,hrest⟩,post,user,hpost,huser,howns⟩,hcommit⟩
        · exact Or.inl (Or.inr ⟨hnone,post,user,hpost,huser,Or.inl howns⟩)
  | likeClicked postId userId =>
    refine iff_of_false ?_ not_false
    change (likeClicked readInteger circumstances postId userId tables).1≠_
    unfold likeClicked
    dsimp only
    split
    · next hreturned => exact fun h => nomatch hreturned.symm.trans h
    · exact fun h => hother (Except.error.inj h)

end outcomes

end operations

section truth

variable {readInteger : Bytes → Option ℤ} {lists : DbOperation → Tables → Except CxxException Json}
  {jsonParse : Bytes → Option Json} {dump : Json → Option Bytes} {circumstances : Circumstances}
  {tables : Tables} {request : ClientRequest} {id : Bytes}

/-- One of the three operations was run and committed. -/
def Committed (readInteger : Bytes → Option ℤ) (circumstances : Circumstances) (tables : Tables)
    (request : ClientRequest) (id : Bytes) : Prop :=
  circumstances.connect=none ∧ ∃ operation,postOperation request id=some (.ok operation) ∧
    operation.Commits readInteger circumstances tables

/-- The status tells what became of a POST: 200 when an operation was run and
committed, 400 when the database client raised it, 500 for any other exception. -/
structure Truthful (result : ℕ) (outcome : Except CxxException Unit) (committed : Prop) : Prop where
  /-- A success is told, and nothing else is told as one. -/
  ok : result=200 ↔ committed
  /-- A bad request is told. -/
  refused : outcome=.error badRequestError → result=400
  /-- So is every other exception. -/
  failed : ∀ e,e≠badRequestError → outcome=.error e → result=500

/-- The database client cannot be opened; or the target is known, and its
operation, if it can be read, is neither refused nor committed without an answer. -/
def Tells (readInteger : Bytes → Option ℤ) (circumstances : Circumstances) (tables : Tables)
    (request : ClientRequest) (id : Bytes) : Prop :=
  match circumstances.connect with
  | some e => e≠badRequestError
  | none => ∃ parsed,postOperation request id=some parsed ∧ ∀ operation,parsed=.ok operation →
      ¬operation.Refused readInteger circumstances tables ∧
        ¬operation.LostAnswer readInteger circumstances tables

/-- A status is truthful exactly when nothing is raised behind a commit, or
something else than a bad request is raised and nothing is committed. -/
theorem truthful_iff {clientAddres : Bytes} {outcome : Except CxxException Unit} {committed : Prop} :
    Truthful (postResponse clientAddres outcome).result outcome committed ↔
      match outcome with
      | .ok _ => committed
      | .error e => e≠badRequestError ∧ ¬committed := by
  rw [postResponse_result]
  cases outcome with
  | ok value =>
    rw [if_pos rfl]
    exact ⟨fun h => h.ok.mp rfl,fun h => ⟨iff_of_true rfl h,nofun,nofun⟩⟩
  | error e =>
    rw [if_neg nofun]
    constructor
    · refine fun h => ⟨fun hbad => ?_,fun hdone => absurd (h.ok.mpr hdone) (by decide)⟩
      exact absurd (h.refused (congrArg Except.error hbad)) (by decide)
    · rintro ⟨hother,hnot⟩
      exact ⟨iff_of_false (by decide) hnot,fun hbad => absurd (Except.error.inj hbad) hother,
        fun _ _ _ => rfl⟩

/-- A client that cannot be opened raises. -/
theorem tryBlock_closed {e : CxxException} (h : circumstances.connect=some e) :
    (tryBlock (databaseServices readInteger lists jsonParse dump circumstances) request id
      tables).outcome=.error (.thrown e) := by
  have hout : (act (databaseServices readInteger lists jsonParse dump circumstances).connect tables :
      Ran Tables ContentEvent Unit).outcome=.error (.thrown e) := by
    change (raise? circumstances.connect).mapError Failure.thrown=_
    rw [h]
    rfl
  unfold tryBlock
  rw [bind_run_error hout]

/-- Behind an opened client the target is served. -/
theorem tryBlock_opened (h : circumstances.connect=none) :
    (tryBlock (databaseServices readInteger lists jsonParse dump circumstances) request id
      tables).outcome=
        (postTarget (databaseServices readInteger lists jsonParse dump circumstances) request id
          tables).outcome := by
  have hopens : Opens (databaseServices readInteger lists jsonParse dump circumstances) tables :=
    congrArg raise? h
  unfold tryBlock
  rw [connect_bind_ok _ hopens]
  rfl

/-- An operation ends as it does on the tables. -/
theorem operatePost_outcome (operation : PostOperation) :
    (operatePost (databaseServices readInteger lists jsonParse dump circumstances) operation
      tables).outcome=
        (operation.run readInteger circumstances tables).1.mapError Failure.thrown := by
  cases operation <;> rfl

/-- Behind an operation the status is truthful exactly when the operation is
neither a refused deletion nor committed without an answer. -/
theorem run_told (operation : PostOperation) :
    (match (operation.run readInteger circumstances tables).1 with
      | .ok _ => operation.Commits readInteger circumstances tables
      | .error e => e≠badRequestError ∧ ¬operation.Commits readInteger circumstances tables) ↔
      ¬operation.Refused readInteger circumstances tables ∧
        ¬operation.LostAnswer readInteger circumstances tables := by
  have hcommits : operation.Commits readInteger circumstances tables ↔
      operation.Succeeds readInteger circumstances tables ∧
        ∀ raised,circumstances.commit=some raised → raised.2=true := and_congr_left fun _ => work_ok_iff
  have hok := @run_ok_iff readInteger circumstances tables operation
  have hrefused := @run_refused_iff readInteger circumstances tables operation
  rw [hcommits]
  cases hrun : (operation.run readInteger circumstances tables).1 with
  | ok value =>
    obtain ⟨hsucceeds,hcommit⟩ := hok.mp hrun
    refine iff_of_true ⟨hsucceeds,fun raised hraised => ?_⟩ ⟨fun hbad => ?_,fun hlost => ?_⟩
    · rw [hcommit] at hraised
      cases hraised
    · rw [←hrefused,hrun] at hbad
      cases hbad
    · obtain ⟨_,e,hraised⟩ := hlost
      rw [hcommit] at hraised
      cases hraised
  | error e =>
    refine and_congr (not_congr ?_) (not_congr ?_)
    · rw [←hrefused,hrun]
      exact ⟨congrArg Except.error,Except.error.inj⟩
    · -- the commit has raised, for the operation would have returned else
      constructor
      · rintro ⟨hsucceeds,hkept⟩
        refine ⟨hsucceeds,?_⟩
        cases hcommit : circumstances.commit with
        | none =>
          have hreturned := hok.mpr ⟨hsucceeds,hcommit⟩
          rw [hrun] at hreturned
          cases hreturned
        | some raised =>
          obtain ⟨found,kept⟩ := raised
          cases hkept _ hcommit
          exact ⟨found,rfl⟩
      · rintro ⟨hsucceeds,found,hcommit⟩
        refine ⟨hsucceeds,fun raised hraised => ?_⟩
        rw [hcommit] at hraised
        cases hraised
        rfl

/-- The outcome of the try block, and when its status is truthful. -/
theorem tryBlock_cases : ∃ outcome : Except CxxException Unit,
    (tryBlock (databaseServices readInteger lists jsonParse dump circumstances) request id
      tables).outcome=outcome.mapError Failure.thrown ∧
    (Truthful (postResponse request.origin outcome).result outcome
        (Committed readInteger circumstances tables request id) ↔
      Tells readInteger circumstances tables request id) := by
  simp only [truthful_iff]
  unfold Committed Tells
  cases hconnect : circumstances.connect with
  | some e =>
    refine ⟨.error e,tryBlock_closed hconnect,and_iff_left ?_⟩
    rintro ⟨hnone,_⟩
    cases hnone
  | none =>
    rw [tryBlock_opened hconnect,postTarget_eq]
    simp only [true_and]
    cases hparsed : postOperation request id with
    | none =>
      refine ⟨.ok (),rfl,iff_of_false ?_ ?_⟩
      · rintro ⟨_,hoperation,_⟩
        cases hoperation
      · rintro ⟨_,hoperation,_⟩
        cases hoperation
    | some parsed =>
      cases parsed with
      | error failure =>
        obtain ⟨e,rfl,hother⟩ := postOperation_error hparsed
        refine ⟨.error e,rfl,iff_of_true ⟨hother,?_⟩ ⟨_,rfl,nofun⟩⟩
        rintro ⟨_,hoperation,_⟩
        cases hoperation
      | ok operation =>
        refine ⟨(operation.run readInteger circumstances tables).1,operatePost_outcome operation,?_⟩
        have hone : (∃ other,some (Except.ok operation)=
            (some (Except.ok other) : Option (Except Failure PostOperation)) ∧
              other.Commits readInteger circumstances tables) ↔
            operation.Commits readInteger circumstances tables := by
          constructor
          · rintro ⟨other,⟨⟩,hcommits⟩
            exact hcommits
          · exact fun hcommits => ⟨operation,rfl,hcommits⟩
        have hall : (∃ parsed : Except Failure PostOperation,some (.ok operation)=some parsed ∧
            ∀ other,parsed=.ok other → ¬other.Refused readInteger circumstances tables ∧
              ¬other.LostAnswer readInteger circumstances tables) ↔
            ¬operation.Refused readInteger circumstances tables ∧
              ¬operation.LostAnswer readInteger circumstances tables := by
          constructor
          · rintro ⟨_,⟨⟩,hnot⟩
            exact hnot operation rfl
          · rintro hnot
            refine ⟨_,rfl,?_⟩
            rintro _ ⟨⟩
            exact hnot
        rw [hone,hall]
        exact run_told operation

/-- The reply to a POST of a user is truthful exactly when the database client
cannot be opened, or when its target is known and its operation, if it can be
read, is neither a refused deletion nor committed without an answer. -/
theorem post_truthful_iff (hmethod : request.method=.post) (hunauthorized : id≠unauthorized)
    (hbadRequest : id≠badRequest) (hinternal : id≠internalServerError) :
    (∃ response outcome,
        responses (onGetId (databaseServices readInteger lists jsonParse dump circumstances) request id
          tables).events=[response] ∧
        (tryBlock (databaseServices readInteger lists jsonParse dump circumstances) request id
          tables).outcome=outcome.mapError Failure.thrown ∧
        Truthful (status response) outcome (Committed readInteger circumstances tables request id)) ↔
      Tells readInteger circumstances tables request id := by
  obtain ⟨outcome,hout,hiff⟩ := @tryBlock_cases readInteger lists jsonParse dump circumstances
    tables request id
  obtain ⟨response,hresponse,hstatus⟩ := serveTarget_post
    (databaseServices readInteger lists jsonParse dump circumstances) hmethod id tables hout
  have hserved : onGetId (databaseServices readInteger lists jsonParse dump circumstances) request id=
      serveTarget (databaseServices readInteger lists jsonParse dump circumstances) request id := by
    unfold onGetId
    rw [if_neg hunauthorized,if_neg hbadRequest,if_neg hinternal]
  rw [hserved,hresponse,hout,←hiff,←hstatus]
  constructor
  · rintro ⟨_,other,hsame,hother,htruth⟩
    cases hsame
    have heq : other=outcome := by
      cases other <;> cases outcome <;> cases hother <;> rfl
    rwa [heq] at htruth
  · exact fun htruth => ⟨response,outcome,rfl,rfl,htruth⟩

/-- User 8 likes the post of user 7, and is told so. -/
theorem post_like_told :
    ∃ response outcome,
      responses (onGetId (databaseServices readDigit noLists parsePlain dumpPlain healthy)
        (plainRequest .post (ascii "/likeClicked?post_id=1")) (ascii "8") shared).events=[response] ∧
      (tryBlock (databaseServices readDigit noLists parsePlain dumpPlain healthy)
        (plainRequest .post (ascii "/likeClicked?post_id=1")) (ascii "8") shared).outcome=
          outcome.mapError Failure.thrown ∧
      Truthful (status response) outcome (Committed readDigit healthy shared
        (plainRequest .post (ascii "/likeClicked?post_id=1")) (ascii "8")) := by
  refine (post_truthful_iff rfl (by decide) (by decide) (by decide)).mpr ?_
  have hread : URLParser (ascii "/likeClicked?post_id=1")=
      .ok ((∅ : PropertyMap).insert (ascii "post_id") (ascii "1")) := by rfl
  refine ⟨.ok (.likeClicked (ascii "1") (ascii "8")),?_,?_⟩
  · unfold postOperation
    rw [if_neg (by decide +kernel),if_neg (by decide +kernel),if_pos (by decide +kernel)]
    change some ((URLParser (ascii "/likeClicked?post_id=1")).map _)=_
    rw [hread]
    change some (Except.ok (PostOperation.likeClicked
      (property ((∅ : PropertyMap).insert (ascii "post_id") (ascii "1")) (ascii "post_id")) _))=_
    rw [property_insert]
  · rintro operation ⟨⟩
    refine ⟨not_false,?_⟩
    rintro ⟨_,e,hcommit⟩
    cases hcommit

/-- User 9 deletes the post of user 7 and is told of a server error, though
the client raises a bad request; and for an unknown target a success is told,
though nothing is done. -/
theorem post_told_wrong :
    (responses (onGetId (databaseServices readDigit noLists parsePlain dumpPlain healthy)
        (plainRequest .post (ascii "/deletePost?post_id=1")) (ascii "9") shared).events).map status=
        [500] ∧
      (tryBlock (databaseServices readDigit noLists parsePlain dumpPlain healthy)
        (plainRequest .post (ascii "/deletePost?post_id=1")) (ascii "9") shared).outcome=
          .error (.thrown badRequestError) ∧
      (responses (onGetId (databaseServices readDigit noLists parsePlain dumpPlain healthy)
        (plainRequest .post (ascii "/unknown")) (ascii "9") shared).events).map status=[200] ∧
      ¬Committed readDigit healthy shared (plainRequest .post (ascii "/unknown")) (ascii "9") := by
  refine ⟨by decide +kernel,by decide +kernel,by decide +kernel,?_⟩
  rintro ⟨_,operation,hoperation,_⟩
  unfold postOperation at hoperation
  rw [if_neg (by decide +kernel),if_neg (by decide +kernel),if_neg (by decide +kernel)] at hoperation
  cases hoperation

end truth

end Photogram.ContentStatus
