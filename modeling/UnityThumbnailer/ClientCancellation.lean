import UnityThumbnailer.ClientAccounting

/-! Cancellation is final: whatever happens after `cancel()`, the request ends with the error
that says so, and it is not sent if it was still waiting. -/
namespace UnityThumbnailer
namespace Client

open EventSystem RateLimiter

/-- What a step can make of the record of a cancelled request. -/
inductive Passes (q : RequestImpl) : RequestImpl → Prop
  | same : Passes q q
  | answered (hq : InFlight q) (reply : Reply) : Passes q (settled reply q)
  | faked (hq : Withdrawn q) : Passes q (failed q "Request cancelled")
  | pumped : Passes q { q with accounted := q.accounted+1 }
  | announced (hq : Rejected q) : Passes q { q with emitting := true, emitted := q.emitted+1 }
  | returned : Passes q { q with emitting := false, watcher := .none }
  | destroyed : Passes q (Client.destroyed q)

section

variable {c d : Client} {r s : RequestId}

theorem Core.not_pending (h : Core c) (hcan : (c.requests r).cancelled = true) :
    r ∉ c.limiter.pending := fun hmem => by
  have hq := h.queued_of_pending hmem
  simp [hq.2.2.1] at hcan

/-- The reply to one request lets another one start, but never a cancelled one. -/
theorem deliver_requests (h : Inv c) (hs : InFlight (c.requests s)) (reply : Reply)
    (hcan : (c.requests r).cancelled = true) :
    (c.deliver s reply).requests r =
      if r = s then settled reply (c.requests s) else c.requests r := by
  have howing := h.inFlight_owing hs
  obtain ⟨_,_,_,_,_,_,_,hcww⟩ := (h.placed s).proper.unfinished hs.1 hs.2.1
  have hsent : (c.requests s).cancelledWhileWaiting = false := by simp [hcww,hs.2.2]
  have hnot : s ∉ c.limiter.pending :=
    fun hmem => not_queued_of_inFlight hs (h.queued_of_pending hmem)
  rw [deliver_eq reply (h.running_pos howing) (fun x hx => (h.queued_of_pending hx).1) hnot
    hs.2.1 hsent,advance_requests_of_not_mem (c:=c.modify s _) (h.not_pending hcan)]
  split
  · rename_i hrs
    rw [hrs]
    exact modify_self ..
  · rename_i hrs
    exact modify_of_ne _ _ hrs

theorem callCancelFunc_requests (c : Client) (s : RequestId) :
    (c.callCancelFunc s).1.requests = c.requests := by
  unfold callCancelFunc check
  cases (c.requests s).cancelFunc <;> rfl

theorem post_requests (c : Client) (p : Posted) : (c.post p).requests = c.requests := rfl

theorem cancel_requests (hrs : r ≠ s) : (c.cancel s).requests r = c.requests r := by
  have hmodify : ∀ f g, ((((c.modify s f).callCancelFunc s).1.modify s g).requests r) =
      c.requests r := by
    intro f g
    rw [modify_of_ne _ _ hrs,callCancelFunc_requests]
    exact modify_of_ne c f hrs
  unfold cancel
  dsimp only
  split
  · rfl
  · split
    · rw [post_requests]
      exact hmodify _ _
    · exact hmodify _ _

/-- A cancelled request is not sent while another one is waited for. -/
theorem waitForFinished_requests (h : Inv c) (hlive : (c.requests s).live = true) (reply : Reply)
    (hcan : (c.requests r).cancelled = true) :
    (c.waitForFinished s reply).requests r = c.requests r := by
  by_cases hnoop : ((c.requests s).finished || (c.requests s).cancelled) = true
  · simp only [waitForFinished,hnoop,if_true]
  · obtain ⟨hfin,hnot⟩ : (c.requests s).finished = false ∧ (c.requests s).cancelled = false := by
      simpa [not_or] using hnoop
    have hrs : r ≠ s := by
      rintro rfl
      simp [hcan] at hnot
    rcases queued_or_inFlight (h.placed s).proper hlive hfin hnot with hq | hf
    · obtain ⟨f,hf,heq⟩ := waitForFinished_bypass h hq reply
      have hpending : r ∉ (c.bypass s f).limiter.pending := fun hmem => by
        change r ∈ (c.unqueued f).limiter.pending at hmem
        rw [unqueued_pending h.linked hf] at hmem
        exact h.not_pending hcan (List.mem_of_mem_filter hmem)
      rw [heq,advance_requests_of_not_mem (c:=(c.bypass s f).modify s _) hpending,
        modify_of_ne _ _ hrs]
      exact modify_of_ne (c.unqueued f) bypassed hrs
    · rw [waitForFinished_inFlight h.toCore reply hf hnot,deliver_requests h hf reply hcan,
        if_neg hrs]

theorem create_requests (details : String) (size : QSize) (hr : r ≠ c.next) :
    (c.create details size).requests r = c.requests r := by
  cases hs : size.isValid with
  | false =>
    rw [create_invalid c details hs,post_requests]
    exact registered_of_ne c _ _ hr
  | true =>
    by_cases hlim : c.limiter.running < c.limiter.concurrency
    · rw [create_sent c details hs hlim]
      exact registered_of_ne c _ _ hr
    · rw [create_queued c details hs hlim]
      exact registered_of_ne c _ _ hr

/-- What is posted reaches the request it is for. -/
theorem posted_passes (h : Inv c) {p : Posted} (hp : p ∈ c.posted)
    (hcan : (c.requests r).cancelled = true) :
    Passes (c.requests r) (((c.taken p).deliverPosted p).requests r) := by
  cases p with
  | dbusCallFinished s =>
    obtain ⟨hw,-⟩ := withdrawn_of_mem h.toCore hp
    obtain ⟨_,_,_,_,_,_,_,hcww⟩ := (h.placed s).proper.unfinished hw.1 hw.2.1
    have heq : (c.taken (.dbusCallFinished s)).deliverPosted (.dbusCallFinished s) =
        (c.taken (.dbusCallFinished s)).modify s (failed · "Request cancelled") :=
      dbusCallFinished_fake (c:=c.taken _) hw.2.1 hw.2.2.1
        (hcww.trans (by simp [hw.2.2.1,hw.2.2.2])) none
    rw [heq]
    by_cases hrs : r = s
    · subst hrs
      rw [modify_self]
      exact .faked hw
    · rw [modify_of_ne _ _ hrs]
      exact .same
  | pumpLimiter s =>
    obtain ⟨ho,-⟩ := orphaned_of_mem h.toCore hp
    have heq := done_advance (c:=c.taken (.pumpLimiter s)) s (h.running_pos ho.2)
      fun x hx => (h.queued_of_pending hx).1
    change Passes _ (((c.taken (.pumpLimiter s)).done s).requests r)
    rw [heq,advance_requests_of_not_mem (c:=(c.taken _).modify s _) (h.not_pending hcan)]
    by_cases hrs : r = s
    · subst hrs
      rw [modify_self]
      exact .pumped
    · rw [modify_of_ne _ _ hrs]
      exact .same
  | finished s =>
    obtain ⟨hrej,-⟩ := rejected_of_mem h.toCore hp
    change Passes _ (((c.taken (.finished s)).emitFinished s).requests r)
    unfold emitFinished
    by_cases hrs : r = s
    · subst hrs
      rw [modify_self]
      exact .announced hrej
    · rw [modify_of_ne _ _ hrs]
      exact .same

/-- One case for each event. -/
theorem step_passes {e : Event} (h : Inv c) (hstep : library.step c e = some d)
    (hcan : (c.requests r).cancelled = true) : Passes (c.requests r) (d.requests r) := by
  cases e with
  | create details size =>
    obtain rfl := Option.some.inj hstep
    have hr : r ≠ c.next := by
      rintro rfl
      rw [h.fresh _ le_rfl] at hcan
      cases hcan
    rw [create_requests details size hr]
    exact .same
  | cancel s =>
    simp only [library,Option.ite_none_right_eq_some,Option.some.injEq] at hstep
    obtain ⟨hlive,rfl⟩ := hstep
    by_cases hrs : r = s
    · subst hrs
      simp only [cancel,hcan,Bool.or_true,if_true]
      exact .same
    · rw [cancel_requests hrs]
      exact .same
  | waitForFinished s reply =>
    simp only [library,Option.ite_none_right_eq_some,Option.some.injEq] at hstep
    obtain ⟨hlive,rfl⟩ := hstep
    rw [waitForFinished_requests h hlive reply hcan]
    exact .same
  | destroy s =>
    simp only [library,Option.ite_none_right_eq_some,Option.some.injEq] at hstep
    obtain ⟨⟨hlive,hemit⟩,rfl⟩ := hstep
    rw [destroy_eq h.toCore hlive (Bool.eq_false_iff.mpr hemit)]
    by_cases hrs : r = s
    · subst hrs
      rw [without_requests]
      exact .destroyed
    · rw [(without_elsewhere h.linked s).requests r hrs]
      exact .same
  | reply s reply =>
    simp only [library,Option.ite_none_right_eq_some,Option.some.injEq] at hstep
    obtain ⟨⟨hlive,hwatch⟩,rfl⟩ := hstep
    have hf := inFlight_of_watcher (h.placed s).proper hlive hwatch
    rw [deliver_requests h hf reply hcan]
    split
    · rename_i hrs
      rw [hrs]
      exact .answered hf reply
    · exact .same
  | posted p =>
    simp only [library,Option.ite_none_right_eq_some,Option.some.injEq] at hstep
    obtain ⟨hp,rfl⟩ := hstep
    exact posted_passes h hp hcan
  | handlerReturned s =>
    simp only [library,Option.ite_none_right_eq_some,Option.some.injEq] at hstep
    obtain ⟨hemit,rfl⟩ := hstep
    by_cases hrs : r = s
    · subst hrs
      rw [modify_self]
      exact .returned
    · rw [modify_of_ne _ _ hrs]
      exact .same

/-- A cancelled request, whose call had been sent `n` times when it was cancelled. -/
structure Cancelled (n : ℕ) (q : RequestImpl) : Prop where
  cancelled : q.cancelled = true
  sent : q.sent = n
  invalid : q.isValid = false
  noImage : q.image = none
  emitted : q.emitted = if q.finished then 1 else 0
  error : q.finished = true → q.errorMessage = "Request cancelled"

theorem Cancelled.failed {n : ℕ} {q : RequestImpl} (h : Cancelled n q) (hfin : q.finished = false) :
    Cancelled n (Client.failed q "Request cancelled") := by
  have hemitted := h.emitted
  rw [hfin] at hemitted
  exact ⟨h.cancelled,h.sent,rfl,rfl,congrArg (·+1) hemitted,fun _ => rfl⟩

theorem Passes.cancelled {n : ℕ} {q q' : RequestImpl} (hp : Passes q q') (h : Cancelled n q) :
    Cancelled n q' := by
  cases hp with
  | same => exact h
  | answered hq reply =>
    have hsettled : settled reply q = Client.failed
        { q with watcher := .replied, accounted := q.accounted+1 } "Request cancelled" := by
      simp only [settled,concluded,h.cancelled,if_true]
    have hrest : Cancelled n { q with watcher := .replied, accounted := q.accounted+1 } :=
      ⟨h.cancelled,h.sent,h.invalid,h.noImage,h.emitted,h.error⟩
    rw [hsettled]
    exact hrest.failed hq.2.1
  | faked hq => exact h.failed hq.2.1
  | announced hq =>
    have hemitted := h.emitted
    rw [hq.2.1,hq.2.2] at hemitted
    cases hemitted
  | pumped | returned | destroyed =>
    exact ⟨h.cancelled,h.sent,h.invalid,h.noImage,h.emitted,h.error⟩

/-- What `cancel()` promises: the record says so from then on, and as long as the request is
neither destroyed nor finished, an event is outstanding that finishes it. -/
structure EndsCancelled (r : RequestId) (n : ℕ) (c : Client) : Prop where
  record : Cancelled n (c.requests r)
  ends : (c.requests r).live = true → (c.requests r).finished = false →
    (WaitsForReply c r ∧ ∀ reply, ∃ d, library.step c (.reply r reply) = some d ∧
      (d.requests r).finished = true) ∨
    (WaitsForFake c r ∧ ∃ d, library.step c (.posted (.dbusCallFinished r)) = some d ∧
      (d.requests r).finished = true)

theorem Inv.endsCancelled {n : ℕ} (h : Inv c) (hc : Cancelled n (c.requests r)) :
    EndsCancelled r n c := by
  refine ⟨hc,fun hlive hfin => ?_⟩
  have hproper := (h.placed r).proper
  obtain ⟨_,_,_,_,_,_,hwatch,hcww⟩ := hproper.unfinished hlive hfin
  have hsent := hproper.sent
  by_cases h1 : (c.requests r).sent = 1
  · have hfly : InFlight (c.requests r) := ⟨hlive,hfin,h1⟩
    have hwaits := (waitsForReply_iff h.toCore).mpr hfly
    refine .inl ⟨hwaits,fun reply => ⟨c.deliver r reply,if_pos ⟨hlive,hwaits.2.2⟩,?_⟩⟩
    rw [deliver_requests h hfly reply hc.cancelled,if_pos rfl]
    exact (concluded_fields _ reply).2.2.2
  · have hw : Withdrawn (c.requests r) := ⟨hlive,hfin,hc.cancelled,by omega⟩
    have hwaits := (waitsForFake_iff h.toCore).mpr hw
    refine .inr ⟨hwaits,_,if_pos hwaits.2,?_⟩
    change (((c.taken _).dbusCallFinished r none).requests r).finished = true
    rw [dbusCallFinished_fake (c:=c.taken _) hfin hc.cancelled hwaits.1 none,modify_self]
    rfl

/-- The record right after `cancel()` has returned. -/
theorem cancel_cancelled (h : Inv c) (hlive : (c.requests r).live = true)
    (hfin : (c.requests r).finished = false) :
    Cancelled (c.requests r).sent ((c.cancel r).requests r) := by
  have hproper := (h.placed r).proper
  obtain ⟨_,hemitted,_,hcf,hvalid,himage,_,_⟩ := hproper.unfinished hlive hfin
  have hrecord : ∀ q : RequestImpl, q.cancelled = true → q.sent = (c.requests r).sent →
      q.isValid = (c.requests r).isValid → q.image = (c.requests r).image →
      q.emitted = (c.requests r).emitted → q.finished = (c.requests r).finished →
      Cancelled (c.requests r).sent q := by
    intro q hcan hs hv hi he hf
    refine ⟨hcan,hs,hv.trans hvalid,hi.trans himage,?_,fun hq => ?_⟩
    · rw [he,hf,hfin]
      exact hemitted
    · rw [hf,hfin] at hq
      cases hq
  cases hcan : (c.requests r).cancelled with
  | true =>
    have hnoop : c.cancel r = c := by simp only [cancel,hcan,Bool.or_true,if_true]
    rw [hnoop]
    exact hrecord _ hcan rfl rfl rfl rfl rfl
  | false =>
    obtain ⟨f,hf⟩ := Option.ne_none_iff_exists'.mp hcf
    rw [cancel_eq hfin hcan hf]
    have hmarked : ∀ b, ((c.unqueued f).modify r (marked b)).requests r =
        marked b (c.requests r) := fun b => modify_self ..
    split
    · rw [post_requests,hmarked]
      exact hrecord _ rfl rfl rfl rfl rfl rfl
    · rw [hmarked]
      exact hrecord _ rfl rfl rfl rfl rfl rfl

end

/-- Once `cancel()` has returned, the request ends with "Request cancelled" and nothing else,
in every run that follows; one that was still in the queue is never sent. -/
theorem cancellation_final (maxBacklog : ℤ) (h : 0 < maxBacklog) (es : List Event) (c : Client)
    (hrun : library.run (new maxBacklog h) es = some c) (r : RequestId)
    (hlive : (c.requests r).live = true) (hfin : (c.requests r).finished = false) (d : Client)
    (hcancel : library.step c (.cancel r) = some d) (fs : List Event) :
    library.Always (EndsCancelled r (c.requests r).sent) d fs ∧
      (WaitsInLimiter c r → (c.requests r).sent = 0) := by
  have hc : Inv c := Machine.invariant_run step_inv (new_inv maxBacklog h) hrun
  have hd := step_inv c _ d hc hcancel
  have hcancelled : Cancelled (c.requests r).sent (d.requests r) := by
    obtain rfl : c.cancel r = d := Option.some.inj ((if_pos hlive).symm.trans hcancel)
    exact cancel_cancelled hc hlive hfin
  refine ⟨?_,fun hw => ((waitsInLimiter_iff hc.toCore).mp hw).2.2.2⟩
  generalize (c.requests r).sent = n at hcancelled ⊢
  have hstep : ∀ a e b, Inv a ∧ Cancelled n (a.requests r) → library.step a e = some b →
      Inv b ∧ Cancelled n (b.requests r) := fun a e b ha hab =>
    ⟨step_inv a e b ha.1 hab,(step_passes ha.1 hab ha.2.cancelled).cancelled ha.2⟩
  exact Machine.always_of_invariant hstep (fun _ ha => ha.1.endsCancelled ha.2) fs ⟨hd,hcancelled⟩

/-- One slot, and a second request that waits in the queue. -/
def secondWaits : Client :=
  ((new 1 (by decide)).create "getThumbnail" ⟨64,64⟩).create "getThumbnail" ⟨64,64⟩

/-- It is cancelled before the first one is answered. -/
theorem cancellation_final_queued :
    (secondWaits.requests 1).live = true ∧ (secondWaits.requests 1).finished = false ∧
      library.Always (EndsCancelled 1 0) (secondWaits.cancel 1)
        [.reply 0 (.data none),.posted (.dbusCallFinished 1)] :=
  ⟨rfl,rfl,(cancellation_final 1 (by decide)
    [.create "getThumbnail" ⟨64,64⟩,.create "getThumbnail" ⟨64,64⟩] secondWaits rfl 1 rfl rfl
    (secondWaits.cancel 1) rfl _).1⟩

end Client
end UnityThumbnailer
