import Photogram.AuthGuard

/-!
# Requests that arrive in one piece

Each turn of the receive loop dispatches the buffer as one request, and what
follows the request in it is never cut off for a turn of its own. Behind a
GET or OPTIONS it is cleared together with the request, or kept together
with it when the token is refused; behind a POST it makes the buffer longer
than the Content-Length says, so that all of it is thrown away.
-/

namespace Photogram.AuthCoalesced

open CxxString EffectLog AuthRequest AuthHttpParser AuthConnection AuthDispatch AuthReceive AuthGuard

/-- Blocks handed to the dispatcher, in order. -/
def dispatches (events : List Event) : List HttpTypesInfo :=
  events.filterMap fun
    | .dispatched info => some info
    | _ => none

/-- Dispatches of two lists of events follow each other. -/
theorem dispatches_append (events others : List Event) :
    dispatches (events++others)=dispatches events++dispatches others := List.filterMap_append

/-- Events without a dispatch among them. -/
theorem dispatches_eq_nil {events : List Event} (h : ∀ event ∈ events,∀ info,event≠.dispatched info) :
    dispatches events=[] := by
  refine List.filterMap_eq_nil_iff.mpr fun event hmem => ?_
  cases event with
  | dispatched info => exact absurd rfl (h _ hmem info)
  | _ => rfl

section turns

variable {σ : Type} (services : Services σ)

/-- The dispatcher dispatches nothing itself. -/
theorem dispatches_dispatch (info : HttpTypesInfo) (world : σ) :
    dispatches (dispatch services info world).events=[] := by
  have hnone := verdicts_dispatch services info world
  rw [verdicts,List.filter_eq_nil_iff] at hnone
  refine dispatches_eq_nil fun event hmem other heq => ?_
  rw [heq] at hmem
  exact hnone _ hmem (decide_eq_true trivial)

/-- A turn dispatches one request at most. -/
theorem length_dispatches_turn (buffer chunk : Bytes) (world : σ) :
    (dispatches (turn services buffer chunk world).events).length ≤ 1 := by
  rcases turn_events services buffer chunk world with hjudged|⟨info,_,_,hevents⟩
  · rw [dispatches_eq_nil fun event hmem info heq => by
      rcases hjudged event hmem with h|h <;> rw [h] at heq <;> cases heq]
    exact Nat.zero_le 1
  · have hone : dispatches (turn services buffer chunk world).events=[info] := by
      rw [hevents]
      exact congrArg (info::·) (dispatches_dispatch services info world)
    rw [hone]
    exact le_refl 1

/-- A turn leaves an empty buffer or the whole one. -/
theorem turn_next {buffer chunk next : Bytes} {world : σ}
    (h : (turn services buffer chunk world).outcome=.ok next) : next=[] ∨ next=buffer++chunk := by
  by_cases hs : (buffer++chunk).length ≤ maxSize
  · rw [turn_eq services hs] at h
    cases hparse : parse services.setting (buffer++chunk) with
    | error failure =>
      unfold serveBuffer at h
      rw [compute_error_bind_run hparse] at h
      cases h
    | ok answer =>
      obtain ⟨status,info⟩ := answer
      cases status with
      | success =>
        rw [serveBuffer_success services world hparse] at h
        cases hexit : (dispatch services info world).outcome with
        | error failure =>
          rw [hexit] at h
          cases h
        | ok exit =>
          rw [hexit] at h
          cases exit <;> cases h
          · exact Or.inl rfl
          · exact Or.inr rfl
      | notFullReq =>
        rw [serveBuffer_notFullReq services world hparse] at h
        cases h
        exact Or.inr rfl
      | badHttp =>
        rw [serveBuffer_badHttp services world hparse] at h
        cases h
        exact Or.inl rfl
      | notSupportType =>
        unfold serveBuffer at h
        rw [compute_ok_bind_run hparse] at h
        cases h
        exact Or.inl rfl
  · have happend : append buffer chunk=.error (.thrown .lengthError) := if_neg hs
    unfold turn at h
    rw [compute_error_bind_run happend] at h
    cases h

/-- Without bytes from the peer the loop dispatches nothing. -/
theorem dispatches_runLoop_silent {rest : List (σ×RecvResult)}
    (hrest : ∀ received ∈ rest,∀ bytes,received.2≠.data bytes) (buffer : Bytes) (world : σ) :
    dispatches (runLoop services buffer rest world).events=[] := by
  cases rest with
  | nil => rfl
  | cons first others =>
    obtain ⟨now,received⟩ := first
    cases received with
    | data bytes => exact absurd rfl (hrest _ List.mem_cons_self bytes)
    | closed => rfl
    | socketError => rfl

/-- One recv with bytes leads to the dispatches of its turn. -/
theorem dispatches_runLoop_once {rest : List (σ×RecvResult)}
    (hrest : ∀ received ∈ rest,∀ bytes,received.2≠.data bytes) (buffer chunk : Bytes)
    (now world : σ) :
    dispatches (runLoop services buffer ((now,.data chunk)::rest) world).events=
      dispatches (turn services buffer chunk now).events := by
  cases hout : (turn services buffer chunk now).outcome with
  | error failure => rw [runLoop_data_error services rest world hout]
  | ok next =>
    rw [runLoop_data_ok services rest world hout]
    dsimp only
    rw [dispatches_append,dispatches_runLoop_silent services hrest,List.append_nil]

end turns

/-- Behind a complete POST further bytes make the buffer too long. -/
theorem parse_post_behind {setting : ParserSetting} {first second : Bytes} {info : HttpTypesInfo}
    (hs : (first++second).length ≤ maxSize) (hparse : parse setting first=.ok (.success,info))
    (hpost : ∃ size,getReqT first=some ⟨.post,size⟩) (hlength : LengthInHeader first)
    (hsecond : second≠[]) : parse setting (first++second)=.ok (.badHttp,.monostate) := by
  obtain ⟨size,htype⟩ := hpost
  obtain ⟨type,htype',hfull⟩ := parse_success hparse
  rw [htype] at htype'
  cases htype'
  obtain ⟨hseven,hblankAt,_,_⟩ := getReqT_spec htype
  have htypeLong : getReqT (first++second)=some ⟨.post,size⟩ := by
    rw [getReqT_append hseven hblankAt,htype]
  obtain ⟨c,blank,hc,hblank,hlt⟩ := hlength
  have hlen := List.length_pos_iff.mpr hsecond
  have hfirst : first.length ≤ maxSize := by
    rw [List.length_append] at hs
    omega
  have hend : blank+4 ≤ first.length := (find?_bounds hblank).2
  obtain ⟨stop,hstop,_⟩ := find?_crlf_of_blank hblank hlt.le
  have hliteral : c+16 ≤ stop :=
    le_find?_crlf (find?_eq_some_iff.mp hc).2.1 (by decide) hstop
  refine parse_incomplete setting htypeLong ?_ (by simp)
  obtain ⟨length,hvalue,hsize⟩ := checkIsFullRequest_post_success hfirst hc hblank hfull
  rw [checkIsFullRequest_post hs (find?_append hc) (find?_append hblank),
    lineFrom_append hstop (by omega),hvalue,ok_bind,List.length_append,if_neg (by omega),
    if_neg (by omega)]
  rfl

section loss

variable {σ : Type} (services : Services σ)

/-- A framed POST that arrives with another request behind it is thrown away
together with it. -/
theorem turn_post_behind {first second : Bytes} {postInfo : PostTInfo}
    (hs : (first++second).length ≤ maxSize)
    (hparse : parse services.setting first=.ok (.success,.post postInfo)) (hframed : Framed first)
    (hsecond : second≠[]) {buffer chunk : Bytes} (hbuffer : buffer++chunk=first++second)
    (world : σ) : turn services buffer chunk world=⟨.ok [],world,[.discarded]⟩ := by
  obtain ⟨type,htype,hkind⟩ := hframed
  have hfirst : first.length ≤ maxSize := by
    rw [List.length_append] at hs
    omega
  have hpost : type.type=.post := by
    obtain ⟨type',htype',hanswer⟩ := parse_success_answer hfirst hparse
    rw [htype] at htype'
    cases htype'
    rcases hanswer with ⟨_,hget⟩|⟨hpost,_⟩|⟨_,hoptions⟩
    · obtain ⟨getInfo,hinfo,_⟩ := parseGetT_true (by rw [List.length_drop]; omega) hget
      cases hinfo
    · exact hpost
    · obtain ⟨optionsInfo,hinfo⟩ := parseOptionsT_ok hoptions
      cases hinfo
  rw [hpost] at hkind
  have hbad := parse_post_behind hs hparse ⟨type.size,by rw [htype,←hpost]⟩ hkind hsecond
  rw [←hbuffer] at hs hbad
  rw [turn_eq services hs,serveBuffer_badHttp services world hbad]

/-- When one recv leaves two accepted requests in the buffer, the loop never
dispatches the one and then the other. A POST in front is thrown away with
what follows it; behind any other request the second one is never left alone
in the buffer. -/
theorem coalesced_lost {first second : Bytes} {info other : HttpTypesInfo}
    (hs : (first++second).length ≤ maxSize)
    (hfirst : parse services.setting first=.ok (.success,info)) (hframed : Framed first)
    (hsecond : parse services.setting second=.ok (.success,other)) {buffer chunk : Bytes}
    (hbuffer : buffer++chunk=first++second) {rest : List (σ×RecvResult)}
    (hrest : ∀ received ∈ rest,∀ bytes,received.2≠.data bytes) (now world : σ) :
    dispatches (runLoop services buffer ((now,.data chunk)::rest) world).events≠[info,other] ∧
      ((∃ postInfo,info=.post postInfo) →
        dispatches (runLoop services buffer ((now,.data chunk)::rest) world).events=[]) ∧
      ∀ next,(turn services buffer chunk now).outcome=.ok next → next=[] ∨ next=first++second := by
  have hne : second≠[] := by
    rintro rfl
    obtain ⟨type,htype,_⟩ := parse_success hsecond
    cases htype
  rw [dispatches_runLoop_once services hrest]
  refine ⟨fun htwo => ?_,?_,fun next hnext => ?_⟩
  · have hone := length_dispatches_turn services buffer chunk now
    rw [htwo] at hone
    simp at hone
  · rintro ⟨postInfo,rfl⟩
    rw [turn_post_behind services hs hfirst hframed hne hbuffer]
    rfl
  · rw [←hbuffer]
    exact turn_next services hnext

/-- Two OPTIONS requests in one piece, of which one is answered. -/
theorem coalesced_options :
    dispatches (runLoop refusing [] [((),.data (optionsRequest++optionsRequest)),((),.closed)]
        ()).events≠[.options ⟨ascii " o"⟩,.options ⟨ascii " o"⟩] :=
  (coalesced_lost refusing (by decide +kernel) parse_optionsRequest framed_optionsRequest
    parse_optionsRequest (List.nil_append _) (by simp) () ()).1

/-- The first of the two requests is dispatched, and the second is cleared
with it. -/
theorem second_options_cleared :
    parse refusing.setting optionsRequest=.ok (.success,.options ⟨ascii " o"⟩) ∧
      Framed optionsRequest ∧
      dispatches (runLoop refusing [] [((),.data (optionsRequest++optionsRequest)),((),.closed)]
        ()).events=[.options ⟨ascii " o"⟩] ∧
      (turn refusing [] (optionsRequest++optionsRequest) ()).outcome=.ok [] :=
  ⟨parse_optionsRequest,framed_optionsRequest,by rfl,by rfl⟩

end loss

end Photogram.AuthCoalesced
