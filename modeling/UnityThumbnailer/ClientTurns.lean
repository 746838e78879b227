import UnityThumbnailer.ClientCancellation

/-! What a step of the client library does to the record of any request: it sends it, settles
it with the reply that the step delivers, or leaves its call as it is. -/
namespace UnityThumbnailer
namespace Client

open EventSystem RateLimiter

/-- The step delivers this reply to the request. -/
def Event.Brings (e : Event) (r : RequestId) (reply : Reply) : Prop :=
  e = .reply r reply ∨ e = .waitForFinished r reply

/-- All that a step can make of the record of a request. -/
inductive Rewritten (e : Event) (r : RequestId) (q : RequestImpl) : RequestImpl → Prop
  | same : Rewritten e r q q
  | rejected {details : String} {size : QSize} (hq : q = blank) :
    Rewritten e r q { fresh details size with
      errorMessage := details ++ ": " ++ "invalid QSize", finished := true }
  | created {details : String} {size : QSize} {f : CancelFunc} (hq : q = blank) :
    Rewritten e r q { fresh details size with cancelFunc := some f }
  | createdSent {details : String} {size : QSize} {f : CancelFunc} (hq : q = blank) :
    Rewritten e r q { fresh details size with
      watcher := .pending, sent := 1, cancelFunc := some f }
  | sent (hq : Queued q) : Rewritten e r q (bypassed q)
  | marked {waiting : Bool} (hq : q.finished = false) : Rewritten e r q (marked waiting q)
  | answered {reply : Reply} (he : e.Brings r reply) (hq : InFlight q) :
    Rewritten e r q (settled reply q)
  | waited {reply : Reply} (he : e.Brings r reply) (hq : Queued q) :
    Rewritten e r q (settled reply (bypassed q))
  | withdrawn (hq : Withdrawn q) : Rewritten e r q (failed q "Request cancelled")
  | pumped (hq : Orphaned q) : Rewritten e r q { q with accounted := q.accounted+1 }
  | announced (hq : Rejected q) :
    Rewritten e r q { q with emitting := true, emitted := q.emitted+1 }
  | returned : Rewritten e r q { q with emitting := false, watcher := .none }
  | destroyed (he : e = .destroy r) : Rewritten e r q (destroyed q)

/-- What becomes of the call of a request in a step. -/
inductive Turn (e : Event) (r : RequestId) (q q' : RequestImpl) : Prop
  | kept (hsent : q'.sent = q.sent) (hfly : InFlight q' → InFlight q)
    (hvalid : q'.isValid = true → q.isValid = true ∧ q'.image = q.image) : Turn e r q q'
  | sent (hq : q.sent = 0) (hsent : q'.sent = 1) (hvalid : q'.isValid = false) : Turn e r q q'
  | answered {reply : Reply} (he : e.Brings r reply) (hsent : q'.sent = 1) (hfly : ¬ InFlight q')
    (hvalid : q'.isValid = true → reply = .data q'.image) : Turn e r q q'

section

variable {c d : Client} {e : Event} {r s : RequestId}

/-- A change to the record of one request only. -/
theorem modify_rewritten {f : RequestImpl → RequestImpl}
    (hf : r = s → Rewritten e r (c.requests r) (f (c.requests r))) :
    Rewritten e r (c.requests r) ((c.modify s f).requests r) := by
  by_cases hrs : r = s
  · subst hrs
    rw [modify_self]
    exact hf rfl
  · rw [modify_of_ne _ _ hrs]
    exact .same

/-- A slot that becomes free sends a request that was queued. -/
theorem advance_rewritten (h : Inv c) {b : Client}
    (hpending : b.limiter.pending ⊆ c.limiter.pending)
    (hsame : r ∈ b.limiter.pending → b.requests r = c.requests r)
    (hb : Rewritten e r (c.requests r) (b.requests r)) :
    Rewritten e r (c.requests r) ((advance b).requests r) := by
  by_cases hr : r ∈ b.limiter.pending
  · have hq := h.queued_of_pending (hpending hr)
    cases hp : b.limiter.pending with
    | nil =>
      rw [advance_none hp]
      exact hb
    | cons x rest =>
      rw [advance_some hp]
      by_cases hrx : r = x
      · subst hrx
        rw [Function.update_self,hsame hr]
        exact .sent hq
      · rw [Function.update_of_ne hrx]
        exact hb
  · rw [advance_requests_of_not_mem hr]
    exact hb

/-- A reply that comes in leaves everything else to the next request in the queue. -/
theorem deliver_settles (h : Inv c) (hs : InFlight (c.requests s)) (reply : Reply) :
    s ∉ c.limiter.pending ∧ c.deliver s reply = advance (c.modify s (settled reply)) := by
  obtain ⟨_,_,_,_,_,_,_,hcww⟩ := (h.placed s).proper.unfinished hs.1 hs.2.1
  have hnot : s ∉ c.limiter.pending :=
    fun hmem => not_queued_of_inFlight hs (h.queued_of_pending hmem)
  exact ⟨hnot,deliver_eq reply (h.running_pos (h.inFlight_owing hs))
    (fun x hx => (h.queued_of_pending hx).1) hnot hs.2.1 (by simp [hcww,hs.2.2])⟩

theorem deliver_rewritten (h : Inv c) (hs : InFlight (c.requests s)) {reply : Reply}
    (he : e.Brings s reply) : Rewritten e r (c.requests r) ((c.deliver s reply).requests r) := by
  obtain ⟨hnot,heq⟩ := deliver_settles h hs reply
  rw [heq]
  refine advance_rewritten h (List.Subset.refl _) (fun hr => ?_) (modify_rewritten ?_)
  · exact modify_of_ne _ _ fun hrs => hnot (hrs ▸ hr)
  · rintro rfl
    exact .answered he hs

/-- Waiting for a queued request sends it past the queue before the reply comes. -/
theorem wait_settles (h : Inv c) (hs : Queued (c.requests s)) (reply : Reply) :
    ∃ b, c.waitForFinished s reply = advance b ∧
      b.limiter.pending = c.limiter.pending.filter (· ≠ s) ∧
      b.requests s = settled reply (bypassed (c.requests s)) ∧
      ∀ x, x ≠ s → b.requests x = c.requests x := by
  obtain ⟨f,hf,heq⟩ := waitForFinished_bypass h hs reply
  have hself : (c.bypass s f).requests s = bypassed (c.requests s) :=
    modify_self (c.unqueued f) s bypassed
  refine ⟨_,heq,unqueued_pending h.linked hf,?_,fun x hx => ?_⟩
  · rw [modify_self,hself]
  · exact (modify_of_ne _ _ hx).trans (modify_of_ne (c.unqueued f) bypassed hx)

theorem wait_rewritten (h : Inv c) (hs : Queued (c.requests s)) {reply : Reply}
    (he : e.Brings s reply) :
    Rewritten e r (c.requests r) ((c.waitForFinished s reply).requests r) := by
  obtain ⟨b,heq,hpending,hself,hother⟩ := wait_settles h hs reply
  rw [heq]
  refine advance_rewritten h ?_ (fun hr => hother r ?_) ?_
  · rw [hpending]
    exact List.filter_sublist.subset
  · rw [hpending] at hr
    exact of_decide_eq_true (List.mem_filter.mp hr).2
  · by_cases hrs : r = s
    · subst hrs
      rw [hself]
      exact .waited he hs
    · rw [hother r hrs]
      exact .same

theorem cancel_rewritten (s : RequestId) :
    Rewritten e r (c.requests r) ((c.cancel s).requests r) := by
  by_cases hrs : r = s
  · subst hrs
    by_cases hnoop : ((c.requests r).finished || (c.requests r).cancelled) = true
    · simp only [cancel,hnoop,if_true]
      exact .same
    · simp only [cancel,hnoop,Bool.false_eq_true,if_false]
      simp only [Bool.or_eq_true,not_or,Bool.not_eq_true] at hnoop
      split
      · rw [post_requests,modify_self,callCancelFunc_requests,modify_self]
        exact .marked hnoop.1
      · rw [modify_self,callCancelFunc_requests,modify_self]
        exact .marked hnoop.1
  · rw [cancel_requests hrs]
    exact .same

theorem create_rewritten (h : Inv c) (details : String) (size : QSize) :
    Rewritten e r (c.requests r) ((c.create details size).requests r) := by
  by_cases hr : r = c.next
  · subst hr
    have hblank := h.fresh _ le_rfl
    cases hs : size.isValid with
    | false =>
      rw [create_invalid c details hs,post_requests,registered_self]
      exact .rejected hblank
    | true =>
      by_cases hlim : c.limiter.running < c.limiter.concurrency
      · rw [create_sent c details hs hlim,registered_self]
        exact .createdSent hblank
      · rw [create_queued c details hs hlim,registered_self]
        exact .created hblank
  · rw [create_requests details size hr]
    exact .same

theorem posted_rewritten (h : Inv c) {p : Posted} (hp : p ∈ c.posted) :
    Rewritten e r (c.requests r) (((c.taken p).deliverPosted p).requests r) := by
  cases p with
  | dbusCallFinished s =>
    obtain ⟨hw,-⟩ := withdrawn_of_mem h.toCore hp
    obtain ⟨_,_,_,_,_,_,_,hcww⟩ := (h.placed s).proper.unfinished hw.1 hw.2.1
    have heq : (c.taken (.dbusCallFinished s)).deliverPosted (.dbusCallFinished s) =
        (c.taken (.dbusCallFinished s)).modify s (failed · "Request cancelled") :=
      dbusCallFinished_fake (c:=c.taken _) hw.2.1 hw.2.2.1
        (hcww.trans (by simp [hw.2.2.1,hw.2.2.2])) none
    rw [heq]
    refine modify_rewritten (c:=c.taken _) ?_
    rintro rfl
    exact .withdrawn hw
  | pumpLimiter s =>
    obtain ⟨ho,-⟩ := orphaned_of_mem h.toCore hp
    have heq := done_advance (c:=c.taken (.pumpLimiter s)) s (h.running_pos ho.2)
      fun x hx => (h.queued_of_pending hx).1
    change Rewritten e r _ (((c.taken (.pumpLimiter s)).done s).requests r)
    rw [heq]
    refine advance_rewritten h (List.Subset.refl _) (fun hr => modify_of_ne _ _ ?_)
      (modify_rewritten (c:=c.taken _) ?_)
    · rintro rfl
      exact absurd (h.queued_of_pending hr).1 (by rw [ho.1]; exact Bool.false_ne_true)
    · rintro rfl
      exact .pumped ho
  | finished s =>
    obtain ⟨hrejected,-⟩ := rejected_of_mem h.toCore hp
    change Rewritten e r _ (((c.taken (.finished s)).emitFinished s).requests r)
    refine modify_rewritten (c:=c.taken _) ?_
    rintro rfl
    exact .announced hrejected

/-- One case for each event. -/
theorem step_rewritten (h : Inv c) (hstep : library.step c e = some d) (r : RequestId) :
    Rewritten e r (c.requests r) (d.requests r) := by
  cases e with
  | create details size =>
    obtain rfl := Option.some.inj hstep
    exact create_rewritten h details size
  | cancel s =>
    simp only [library,Option.ite_none_right_eq_some,Option.some.injEq] at hstep
    obtain ⟨hlive,rfl⟩ := hstep
    exact cancel_rewritten s
  | waitForFinished s reply =>
    simp only [library,Option.ite_none_right_eq_some,Option.some.injEq] at hstep
    obtain ⟨hlive,rfl⟩ := hstep
    by_cases hnoop : ((c.requests s).finished || (c.requests s).cancelled) = true
    · simp only [waitForFinished,hnoop,if_true]
      exact .same
    · obtain ⟨hfin,hcan⟩ : (c.requests s).finished = false ∧ (c.requests s).cancelled = false := by
        simpa [not_or] using hnoop
      rcases queued_or_inFlight (h.placed s).proper hlive hfin hcan with hq | hfly
      · exact wait_rewritten h hq (.inr rfl)
      · rw [waitForFinished_inFlight h.toCore reply hfly hcan]
        exact deliver_rewritten h hfly (.inr rfl)
  | destroy s =>
    simp only [library,Option.ite_none_right_eq_some,Option.some.injEq] at hstep
    obtain ⟨⟨hlive,hemit⟩,rfl⟩ := hstep
    rw [destroy_eq h.toCore hlive (Bool.eq_false_iff.mpr hemit)]
    by_cases hrs : r = s
    · subst hrs
      rw [without_requests]
      exact .destroyed rfl
    · rw [(without_elsewhere h.linked s).requests r hrs]
      exact .same
  | reply s reply =>
    simp only [library,Option.ite_none_right_eq_some,Option.some.injEq] at hstep
    obtain ⟨⟨hlive,hwatch⟩,rfl⟩ := hstep
    exact deliver_rewritten h (inFlight_of_watcher (h.placed s).proper hlive hwatch) (.inl rfl)
  | posted p =>
    simp only [library,Option.ite_none_right_eq_some,Option.some.injEq] at hstep
    obtain ⟨hp,rfl⟩ := hstep
    exact posted_rewritten h hp
  | handlerReturned s =>
    simp only [library,Option.ite_none_right_eq_some,Option.some.injEq] at hstep
    obtain ⟨hemit,rfl⟩ := hstep
    exact modify_rewritten fun _ => .returned

/-! ### The call of a request -/

/-- The reply is what a request shows that had none before. -/
theorem settled_valid {q : RequestImpl} {reply : Reply} (hv : (settled reply q).isValid = true) :
    reply = .data (settled reply q).image := by
  unfold settled concluded at hv ⊢
  split at hv
  · cases hv
  · rename_i hcan
    cases reply with
    | data bytes =>
      simp only [if_neg hcan]
      rfl
    | error message => cases hv

theorem settled_turn {q p : RequestImpl} {reply : Reply} (he : e.Brings r reply)
    (hsent : p.sent = 1) : Turn e r q (settled reply p) :=
  .answered he ((concluded_fields _ reply).2.1.trans hsent) (settled_not_inFlight p reply)
    settled_valid

theorem Rewritten.turn {q q' : RequestImpl} (h : Rewritten e r q q') (hq : Proper q) :
    Turn e r q q' := by
  cases h with
  | same | marked | pumped | announced | returned => exact .kept rfl id fun h => ⟨h,rfl⟩
  | rejected hblank =>
    rw [hblank]
    exact .kept rfl (fun hf => Bool.noConfusion hf.2.1) fun hv => Bool.noConfusion hv
  | created hblank =>
    rw [hblank]
    exact .kept rfl (fun hf => absurd hf.2.2 (by simp [fresh,blank])) fun hv =>
      Bool.noConfusion hv
  | createdSent hblank =>
    rw [hblank]
    exact .sent rfl rfl rfl
  | sent hqueued =>
    obtain ⟨-,-,-,-,hvalid,-⟩ := hq.unfinished hqueued.1 hqueued.2.1
    exact .sent hqueued.2.2.2 (congrArg (·+1) hqueued.2.2.2) hvalid
  | answered he hfly => exact settled_turn he hfly.2.2
  | waited he hqueued => exact settled_turn he (congrArg (·+1) hqueued.2.2.2)
  | withdrawn => exact .kept rfl (fun h => Bool.noConfusion h.2.1) fun h => Bool.noConfusion h
  | destroyed => exact .kept rfl (fun hf => absurd hf.1 Bool.false_ne_true) fun hv => ⟨hv,rfl⟩

theorem step_turn (h : Inv c) (hstep : library.step c e = some d) (r : RequestId) :
    Turn e r (c.requests r) (d.requests r) :=
  (step_rewritten h hstep r).turn (h.placed r).proper

/-- The request that a reply is for waits no more. -/
theorem brought (h : Inv c) (hstep : library.step c e = some d) {reply : Reply}
    (he : e.Brings r reply) (hfin : (c.requests r).finished = false)
    (hcan : e = .waitForFinished r reply → (c.requests r).cancelled = false) :
    (d.requests r).sent = 1 ∧ ¬ InFlight (d.requests r) := by
  have hsettled : ∀ q : RequestImpl, q.sent = 1 → d.requests r = settled reply q →
      (d.requests r).sent = 1 ∧ ¬ InFlight (d.requests r) := by
    intro q hq heq
    rw [heq]
    exact ⟨(concluded_fields _ reply).2.1.trans hq,settled_not_inFlight q reply⟩
  have hdelivered : InFlight (c.requests r) → d = c.deliver r reply →
      (d.requests r).sent = 1 ∧ ¬ InFlight (d.requests r) := by
    intro hfly hd
    obtain ⟨hnot,heq⟩ := deliver_settles h hfly reply
    refine hsettled _ hfly.2.2 ?_
    rw [hd,heq,advance_requests_of_not_mem (c:=c.modify r _) hnot,modify_self]
  rcases he with rfl | rfl
  · simp only [library,Option.ite_none_right_eq_some,Option.some.injEq] at hstep
    obtain ⟨⟨hlive,hwatch⟩,rfl⟩ := hstep
    exact hdelivered (inFlight_of_watcher (h.placed r).proper hlive hwatch) rfl
  · simp only [library,Option.ite_none_right_eq_some,Option.some.injEq] at hstep
    obtain ⟨hlive,rfl⟩ := hstep
    rcases queued_or_inFlight (h.placed r).proper hlive hfin (hcan rfl) with hq | hfly
    · obtain ⟨b,heq,hpending,hself,-⟩ := wait_settles h hq reply
      have hnot : r ∉ b.limiter.pending := by
        rw [hpending]
        exact fun hmem => absurd rfl (of_decide_eq_true (List.mem_filter.mp hmem).2)
      refine hsettled (bypassed (c.requests r)) (congrArg (·+1) hq.2.2.2) ?_
      rw [heq,advance_requests_of_not_mem hnot,hself]
    · exact hdelivered hfly (waitForFinished_inFlight h.toCore reply hfly (hcan rfl))

end
end Client
end UnityThumbnailer
