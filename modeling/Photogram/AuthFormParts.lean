import Photogram.AuthFormData

/-!
# Parts of a form and what visiting them leaves

The loop over the separators is a fold over a list of parts that depends on
the request and the separator alone. The photo parts are those behind the
first text part named password. Taken leniently, a visit fails only at a
photo part without a content type, and the file table of a form is a fold
over its photo parts. Taken strictly, no photo is ever recorded.
-/

namespace Photogram.AuthFormParts

open CxxString QueryString AuthRequest AuthFormData

/-- Starts and ends of the parts a loop visits, from its cursor on. -/
def partsFrom (request separator : Bytes) : ℕ → ℕ → ℕ → List (ℕ×ℕ)
  | 0,_,_ => []
  | fuel+1,startPositon,finishPositon =>
    match find? request separator (addSize finishPositon separator.length) with
    | none => []
    | some finishPositon => (startPositon,finishPositon)::partsFrom request separator fuel
        (addSize (subSize (addSize finishPositon separator.length) 1) 2) finishPositon

/-- Start of the first part, two bytes behind the first separator. -/
def firstStart (request separator : Bytes) : ℕ :=
  addSize (find request separator 0) (separator.length+2)

/-- The parts the registration loop visits. -/
def visitedParts (request separator : Bytes) : List (ℕ×ℕ) :=
  partsFrom request separator (request.length+1) (firstStart request separator)
    (firstStart request separator)

/-- Visit a list of parts in order. -/
def visitParts (reading : StorageReading) (request : Bytes) :
    List (ℕ×ℕ) → Bool → FormState → Except Failure FormState
  | [],_,state => .ok state
  | part::rest,isNextPhoto,state => do
    let visited ← visitPart reading request part.1 part.2 isNextPhoto state
    visitParts reading request rest visited.1 visited.2

/-- Header block of the part that starts at a position. -/
def partHeaders (request : Bytes) (start : ℕ) : Bytes := cutAt request blankLine start start

/-- Content type of the part that starts at a position. -/
def photoType (request : Bytes) (start : ℕ) : Bytes :=
  let headers := partHeaders request start
  match find? headers contentType 0 with
  | none => []
  | some arg => lineFrom headers arg (arg+14)

/-- First byte of the photo of a part: four bytes behind its content type. -/
def photoStart (request : Bytes) (start : ℕ) : ℕ :=
  let headers := partHeaders request start
  match find? headers contentType 0 with
  | none => start
  | some arg => start+arg+14+(photoType request start).length+4

/-- File name read from a position on. -/
def fileName (request : Bytes) (start : ℕ) : Bytes :=
  match getPropertisName request start (ascii "filename") with
  | .ok name => name
  | .error _ => []

/-- Coordinates recorded for a photo part. -/
def photoCoordinates (request : Bytes) (part : ℕ×ℕ) : ℕ×ℕ :=
  (photoStart request part.1,subSize (subSize part.2 (photoStart request part.1)) 2)

/-- Files recorded when all parts are photos. -/
def fileTable (request : Bytes) (parts : List (ℕ×ℕ)) (files : FileMap) : FileMap :=
  parts.foldl (fun files part =>
    files.insert (fileName request part.1) (photoCoordinates request part)) files

/-- The part is stored as a text field named password. -/
def opensPhotos (request : Bytes) (part : ℕ×ℕ) : Bool :=
  match findLiteral .lenient request (ascii "Content-Type:") part.1 (subSize part.2 part.1),
      getPropertisName request part.1 (ascii "name") with
  | .ok found,.ok name => found=npos && name=passwordName
  | _,_ => false

/-- The parts behind the first one that opens the photos. -/
def photoParts (request : Bytes) (parts : List (ℕ×ℕ)) : List (ℕ×ℕ) :=
  (parts.dropWhile fun part => !opensPhotos request part).tail

/-- The part has a content type in its header block. -/
def HasType (request : Bytes) (part : ℕ×ℕ) : Prop := contentType<:+:partHeaders request part.1

section positions

variable {request separator : Bytes}

/-- The loop over the separators visits the list of parts. -/
theorem separatorLoop_eq (reading : StorageReading) (hs : request.length ≤ maxSize)
    (fuel startPositon finishPositon : ℕ) (isNextPhoto : Bool) (state : FormState) :
    separatorLoop reading request separator fuel startPositon finishPositon isNextPhoto state=
      visitParts reading request (partsFrom request separator fuel startPositon finishPositon)
        isNextPhoto state := by
  induction fuel generalizing startPositon finishPositon isNextPhoto state with
  | zero => rfl
  | succ fuel ih =>
    rw [separatorLoop,partsFrom]
    dsimp only
    cases hf : find? request separator (addSize finishPositon separator.length) with
    | none => rw [if_pos (find_of_none hf)]; rfl
    | some finish =>
      rw [if_neg (by rw [find_eq_npos_iff hs,hf]; simp),find_of_some hf]
      simp only [ih]
      rfl

/-- One more round never matters once the rounds exceed what is left to search. -/
theorem partsFrom_fuel (hsep : separator≠[]) {fuel startPositon finishPositon : ℕ}
    (hfinish : finishPositon+separator.length<sizeModulus)
    (hs : request.length ≤ maxSize) (hfuel : request.length<finishPositon+fuel) :
    partsFrom request separator (fuel+1) startPositon finishPositon=
      partsFrom request separator fuel startPositon finishPositon := by
  have hlen : 0<separator.length := List.length_pos_iff.mpr hsep
  have hm : maxSize<sizeModulus := by decide
  induction fuel generalizing startPositon finishPositon with
  | zero =>
    have hn : find? request separator (addSize finishPositon separator.length)=none := by
      rw [addSize_eq hfinish]
      cases hf : find? request separator (finishPositon+separator.length) with
      | none => rfl
      | some p =>
        have hb := find?_bounds hf
        omega
    simp only [partsFrom,hn]
  | succ fuel ih =>
    rw [partsFrom,partsFrom,addSize_eq hfinish]
    cases hf : find? request separator (finishPositon+separator.length) with
    | none => rfl
    | some next =>
      have hb := find?_bounds hf
      exact congrArg (List.cons _) (ih (by omega) (by omega))

/-- Below the modulus the next part starts one byte behind the separator's end. -/
theorem nextStart_eq (finish length : ℕ) (hlen : 0<finish+length)
    (h : finish+length+1<sizeModulus) :
    addSize (subSize (addSize finish length) 1) 2=finish+length+1 := by
  have hsum : addSize finish length=finish+length := addSize_eq (by omega)
  rw [hsum,subSize_eq (by omega) (by omega),addSize_eq (by omega)]
  omega

/-- Every visited part starts inside the request. -/
theorem partsFrom_start (hs : request.length ≤ maxSize) (hsep : separator≠[])
    {fuel startPositon finishPositon : ℕ} (hfinish : finishPositon+separator.length<sizeModulus)
    (hstart : startPositon ≤ finishPositon+separator.length+1) :
    ∀ part ∈ partsFrom request separator fuel startPositon finishPositon,part.1 ≤ request.length := by
  have hlen : 0<separator.length := List.length_pos_iff.mpr hsep
  have hm : maxSize+1<sizeModulus := by decide
  induction fuel generalizing startPositon finishPositon with
  | zero => simp [partsFrom]
  | succ fuel ih =>
    rw [partsFrom,addSize_eq hfinish]
    cases hf : find? request separator (finishPositon+separator.length) with
    | none => simp
    | some next =>
      have hb := find?_bounds hf
      dsimp only
      rw [nextStart_eq next separator.length (by omega) (by omega)]
      simp only [List.mem_cons]
      rintro part (rfl|hpart)
      · dsimp only
        omega
      · exact ih (by omega) le_rfl part hpart

/-- A separator shorter than the request has its first part behind it. -/
theorem firstStart_eq (hs : request.length ≤ maxSize) {p : ℕ}
    (hf : find? request separator 0=some p) :
    firstStart request separator=p+separator.length+2 := by
  have hb := (find?_bounds hf).2
  have hm : maxSize+2<sizeModulus := by decide
  rw [firstStart,find_of_some hf,addSize_eq (by omega)]
  omega

/-- Every part of a form starts inside the request. -/
theorem visitedParts_start (hs : request.length ≤ maxSize) (hsep : separator≠[])
    (hshort : separator.length<request.length) (hocc : separator<:+:request) :
    ∀ part ∈ visitedParts request separator,part.1 ≤ request.length := by
  obtain ⟨p,hf⟩ := Option.isSome_iff_exists.mp (find?_zero_isSome_iff.mpr hocc)
  have hb := (find?_bounds hf).2
  have hm : 2*maxSize+2=sizeModulus := by decide
  have hlen : 0<separator.length := List.length_pos_iff.mpr hsep
  unfold visitedParts
  rw [firstStart_eq hs hf]
  exact partsFrom_start hs hsep (by omega) (by omega)

end positions

section photos

variable {request : Bytes} {start : ℕ}

/-- Nothing starts a blank line inside a part's header block. -/
theorem partHeaders_eq (hs : request.length ≤ maxSize) (hstart : start ≤ request.length) :
    substr request start (subSize (find request blankLine start) start)=
      .ok (partHeaders request start) := by
  rw [substr_of_le _ hstart,take_subSize_find hs hstart fun stop hstop => (find?_bounds hstop).1]
  rfl

/-- The header block ends inside the request. -/
theorem partHeaders_length (request : Bytes) (start : ℕ) :
    (partHeaders request start).length ≤ request.length-start := cutAt_length_le _ _ _ _

/-- A content type and the four bytes behind it end at most four bytes behind the request. -/
theorem photoStart_le (hs : start ≤ request.length) : photoStart request start ≤ request.length+4 := by
  unfold photoStart
  have hh := partHeaders_length request start
  dsimp only
  cases hf : find? (partHeaders request start) contentType 0 with
  | none => dsimp only; omega
  | some arg =>
    have hb := (find?_bounds hf).2
    have hl := cutAt_length_le (partHeaders request start) crlf arg (arg+14)
    have ht : photoType request start=lineFrom (partHeaders request start) arg (arg+14) := by
      simp only [photoType,hf]
    have hc : contentType.length=14 := rfl
    simp only [ht,lineFrom]
    omega

/-- The file name lookup answers the file name. -/
theorem getPropertisName_fileName (hs : request.length ≤ maxSize) :
    getPropertisName request start (ascii "filename")=.ok (fileName request start) := by
  obtain ⟨name,hname⟩ := returns_getPropertisName hs start (ascii "filename")
  simp only [fileName,hname]

/-- A photo part without a content type raises. -/
theorem addPhoto_none (reading : StorageReading) (hs : request.length ≤ maxSize)
    (hstart : start ≤ request.length) (finish : ℕ) (state : FormState)
    (h : ¬contentType<:+:partHeaders request start) :
    addPhoto reading request start finish state=.error (.thrown (.runtimeError notFoundText)) := by
  unfold addPhoto
  dsimp only
  rw [partHeaders_eq hs hstart,ok_bind,getType_none (find?_zero_eq_none_iff.mpr h),error_bind]

/-- Taken strictly, no photo is recorded. -/
theorem addPhoto_strict (hs : request.length ≤ maxSize) (hstart : start ≤ request.length)
    (finish : ℕ) (state : FormState) : ¬Returns (addPhoto .strict request start finish state) := by
  unfold addPhoto
  dsimp only
  rw [partHeaders_eq hs hstart,ok_bind,returns_bind]
  rintro ⟨text,_,hrest⟩
  rw [readExpired,error_bind] at hrest
  exact not_returns_error _ hrest

/-- Taken leniently, a photo part with a content type is recorded with its
type, under its file name, at its coordinates. -/
theorem addPhoto_lenient (hs : request.length ≤ maxSize) (hstart : start ≤ request.length)
    (finish : ℕ) (state : FormState) (h : contentType<:+:partHeaders request start) :
    addPhoto .lenient request start finish state=
      .ok ⟨state.userProperties.insert photoTypeKey (photoType request start),
        state.filesCoordinates.insert (fileName request start)
          (photoCoordinates request (start,finish))⟩ := by
  obtain ⟨arg,hf⟩ := Option.isSome_iff_exists.mp (find?_zero_isSome_iff.mpr h)
  have hb := (find?_bounds hf).2
  have hh := partHeaders_length request start
  have hlong : maxSize+20<sizeModulus := by decide
  have hc : contentType.length=14 := rfl
  have hle := photoStart_le hstart
  have htype : getType (partHeaders request start) contentType 0=.ok (photoType request start) := by
    rw [getType_some (by omega) (by decide) (by decide) hf]
    simp only [photoType,hf,hc]
  have hstartPhoto : photoStart request start=start+arg+14+(photoType request start).length+4 := by
    simp only [photoStart,hf]
  have hsum : addSize (subSize (addSize (addSize (addSize start arg) 15)
      (photoType request start).length) 1) 4=photoStart request start := by
    have h1 : addSize start arg=start+arg := addSize_eq (by omega)
    have h2 : addSize (start+arg) 15=start+arg+15 := addSize_eq (by omega)
    have h3 : addSize (start+arg+15) (photoType request start).length=
      start+arg+15+(photoType request start).length := addSize_eq (by omega)
    rw [h1,h2,h3,subSize_eq (by omega) (by omega),addSize_eq (by omega)]
    omega
  unfold addPhoto
  dsimp only
  rw [partHeaders_eq hs hstart,ok_bind,htype,ok_bind,readExpired,ok_bind,
    getPropertisName_fileName hs,ok_bind,find_of_some hf,hsum]
  rfl

/-- A text part leaves the files alone. -/
theorem visitPart_files {reading : StorageReading} {finish : ℕ} {state : FormState}
    {visited : Bool×FormState} (h : visitPart reading request start finish false state=.ok visited) :
    visited.2.filesCoordinates=state.filesCoordinates := by
  simp only [visitPart,Bool.false_eq_true,if_false] at h
  cases hl : findLiteral reading request (ascii "Content-Type:") start (subSize finish start) with
  | error failure => rw [hl,error_bind] at h; cases h
  | ok found =>
    rw [hl,ok_bind] at h
    split at h
    · cases hn : getPropertisName request start (ascii "name") with
      | error failure => rw [hn,error_bind] at h; cases h
      | ok name =>
        rw [hn,ok_bind] at h
        cases hv : substr request (addSize (find request blankLine start) 4)
          (subSize (find request crlf (addSize (find request blankLine start) 4))
            (addSize (find request blankLine start) 4)) with
        | error failure => rw [hv,error_bind] at h; cases h
        | ok value => rw [hv,ok_bind] at h; cases h; rfl
    · cases h
      rfl

/-- Taken leniently, a part visited before the photos always succeeds and
sets the flag exactly when it opens them. -/
theorem visitPart_text (hs : request.length ≤ maxSize) (hlong : 3 ≤ request.length) (part : ℕ×ℕ)
    (state : FormState) : ∃ form,
      visitPart .lenient request part.1 part.2 false state=.ok (opensPhotos request part,form) ∧
      form.filesCoordinates=state.filesCoordinates := by
  have hvalue : addSize (find request blankLine part.1) 4 ≤ request.length := by
    cases hf : find? request blankLine part.1 with
    | none => rw [find_of_none hf]; exact hlong
    | some p =>
      have hb := (find?_bounds hf).2
      have hm : maxSize<sizeModulus := by decide
      have hc : blankLine.length=4 := rfl
      rw [find_of_some hf,addSize_eq (by omega)]
      omega
  obtain ⟨name,hname⟩ := returns_getPropertisName hs part.1 (ascii "name")
  have hfound : ∃ found,findLiteral .lenient request (ascii "Content-Type:") part.1
      (subSize part.2 part.1)=.ok found := by
    unfold findLiteral
    split <;> exact ⟨_,rfl⟩
  obtain ⟨found,hfound⟩ := hfound
  simp only [visitPart,opensPhotos,Bool.false_eq_true,if_false,hfound,hname,ok_bind]
  by_cases ht : found=npos
  · simp only [substr_of_le _ hvalue,ok_bind,decide_true,Bool.true_and,ht]
    exact ⟨_,rfl,rfl⟩
  · simp only [decide_false,Bool.false_and,ht]
    exact ⟨_,rfl,rfl⟩

/-- Once the flag is set, all parts have to show a content type, and the
files are tabulated in order. -/
theorem visitParts_photos (hs : request.length ≤ maxSize) {parts : List (ℕ×ℕ)}
    (hparts : ∀ part ∈ parts,part.1 ≤ request.length) (state : FormState) :
    (Returns (visitParts .lenient request parts true state) ↔ ∀ part ∈ parts,HasType request part) ∧
    ∀ form,visitParts .lenient request parts true state=.ok form →
      form.filesCoordinates=fileTable request parts state.filesCoordinates := by
  induction parts generalizing state with
  | nil =>
    refine ⟨iff_of_true (returns_ok _) (by simp),?_⟩
    rintro form ⟨⟩
    rfl
  | cons part rest ih =>
    have hpart := hparts part List.mem_cons_self
    rw [visitParts,visitPart,if_pos rfl]
    by_cases ht : HasType request part
    · rw [addPhoto_lenient hs hpart part.2 state ht]
      have hrest := ih (fun p hp => hparts p (List.mem_cons_of_mem _ hp))
        ⟨state.userProperties.insert photoTypeKey (photoType request part.1),
          state.filesCoordinates.insert (fileName request part.1) (photoCoordinates request part)⟩
      refine ⟨hrest.1.trans ?_,hrest.2⟩
      simp [ht]
    · rw [addPhoto_none .lenient hs hpart part.2 state ht,error_bind,error_bind]
      refine ⟨iff_of_false (not_returns_error _) ?_,fun form h => by cases h⟩
      exact fun h => ht (h part List.mem_cons_self)

/-- Before the flag is set, exactly the parts behind the password have to
show a content type, and they alone are tabulated. -/
theorem visitParts_text (hs : request.length ≤ maxSize) (hlong : 3 ≤ request.length)
    {parts : List (ℕ×ℕ)} (hparts : ∀ part ∈ parts,part.1 ≤ request.length) (state : FormState) :
    (Returns (visitParts .lenient request parts false state) ↔
      ∀ part ∈ photoParts request parts,HasType request part) ∧
    ∀ form,visitParts .lenient request parts false state=.ok form →
      form.filesCoordinates=
        fileTable request (photoParts request parts) state.filesCoordinates := by
  induction parts generalizing state with
  | nil =>
    refine ⟨iff_of_true (returns_ok _) (by simp [photoParts]),?_⟩
    rintro form ⟨⟩
    rfl
  | cons part rest ih =>
    have hrest : ∀ p ∈ rest,p.1 ≤ request.length := fun p hp => hparts p (List.mem_cons_of_mem _ hp)
    obtain ⟨form,hvisit,hfiles⟩ := visitPart_text hs hlong part state
    rw [visitParts,hvisit,ok_bind,←hfiles]
    dsimp only
    cases ho : opensPhotos request part with
    | true =>
      have hp : photoParts request (part::rest)=rest := by simp [photoParts,ho]
      rw [hp]
      exact visitParts_photos hs hrest form
    | false =>
      have hp : photoParts request (part::rest)=photoParts request rest := by
        simp [photoParts,ho]
      rw [hp]
      exact ih hrest form

/-- Taken strictly, visiting parts that returns has recorded no file. -/
theorem visitParts_strict (hs : request.length ≤ maxSize) {parts : List (ℕ×ℕ)}
    (hparts : ∀ part ∈ parts,part.1 ≤ request.length) {isNextPhoto : Bool} {state form : FormState}
    (h : visitParts .strict request parts isNextPhoto state=.ok form) :
    form.filesCoordinates=state.filesCoordinates := by
  induction parts generalizing isNextPhoto state with
  | nil => cases h; rfl
  | cons part rest ih =>
    obtain ⟨visited,hvisit,hform⟩ := (returns_bind _ _).mp ⟨form,h⟩
    rw [visitParts,hvisit,ok_bind] at h
    have hrest := ih (fun p hp => hparts p (List.mem_cons_of_mem _ hp)) h
    cases isNextPhoto with
    | false => exact hrest.trans (visitPart_files hvisit)
    | true =>
      rw [visitPart,if_pos rfl] at hvisit
      obtain ⟨state',hstate,_⟩ := (returns_bind _ _).mp ⟨visited,hvisit⟩
      exact absurd ⟨state',hstate⟩
        (addPhoto_strict hs (hparts part List.mem_cons_self) part.2 state)

end photos

end Photogram.AuthFormParts
