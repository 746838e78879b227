import UnityThumbnailer.ClientInvariant

/-! Every event of the client library keeps the invariant. Each operation is brought into
a closed form: a change to one request, the limiter and the posted calls, after which a
slot may go to the next request. -/
namespace UnityThumbnailer
namespace Client

open EventSystem RateLimiter Tally

/-! ### Posted calls -/

theorem count_erase_other {p q : Posted} (l : List Posted) (h : q ≠ p) :
    (l.erase p).count q = l.count q := List.count_erase_of_ne h

theorem count_erase_self {p : Posted} {l : List Posted} (h : l.count p = 1) :
    (l.erase p).count p = 0 := by
  rw [List.count_erase_self,h]

/-- The state with a posted call taken out of the event queue. -/
def taken (c : Client) (p : Posted) : Client := { c with posted := c.posted.erase p }

theorem Posted.mem_iff {c : Client} {p : Posted} : p ∈ c.posted ↔ 0 < c.posted.count p :=
  List.count_pos_iff.symm

/-- After the posted call about one request is taken and the request changed, the rest of
the client is as before. -/
theorem taken_elsewhere (c : Client) {p : Posted} {r : RequestId}
    (hp : p = .dbusCallFinished r ∨ p = .pumpLimiter r ∨ p = .finished r)
    (f : RequestImpl → RequestImpl) : Elsewhere c ((c.taken p).modify r f) r := by
  refine ⟨fun _ hx => modify_of_ne (c.taken p) f hx,fun _ _ => rfl,fun x hx q hq => ?_⟩
  apply count_erase_other
  rintro rfl
  rcases hp with rfl | rfl | rfl <;> simp_all

theorem taken_linked {c : Client} (h : Linked c) (p : Posted) : Linked (c.taken p) :=
  ⟨h.entry_lt,h.entry_nodup,h.func_lt,h.func_inj,h.owner,h.inFlight⟩

theorem failed_quiet {q : RequestImpl} (hlive : q.live = true) (m : String) :
    Quiet (failed q m) := by
  simp [Quiet,Queued,Withdrawn,Orphaned,Rejected,failed,hlive]

theorem withdrawn_of_mem {c : Client} (h : Core c) {r : RequestId}
    (hp : .dbusCallFinished r ∈ c.posted) :
    Withdrawn (c.requests r) ∧ c.posted.count (.dbusCallFinished r) = 1 := by
  have hcount := (h.placed r).fake
  have hpos := Posted.mem_iff.mp hp
  by_cases hw : Withdrawn (c.requests r)
  · exact ⟨hw,hcount.trans (if_pos hw)⟩
  · rw [hcount,if_neg hw] at hpos
    cases hpos

theorem orphaned_of_mem {c : Client} (h : Core c) {r : RequestId}
    (hp : .pumpLimiter r ∈ c.posted) :
    Orphaned (c.requests r) ∧ c.posted.count (.pumpLimiter r) = 1 := by
  have hcount := (h.placed r).pump
  have hpos := Posted.mem_iff.mp hp
  by_cases hw : Orphaned (c.requests r)
  · exact ⟨hw,hcount.trans (if_pos hw)⟩
  · rw [hcount,if_neg hw] at hpos
    cases hpos

theorem rejected_of_mem {c : Client} (h : Core c) {r : RequestId}
    (hp : .finished r ∈ c.posted) :
    Rejected (c.requests r) ∧ c.posted.count (.finished r) = 1 := by
  have hcount := (h.placed r).announce
  have hpos := Posted.mem_iff.mp hp
  by_cases hw : Rejected (c.requests r)
  · exact ⟨hw,hcount.trans (if_pos hw)⟩
  · rw [hcount,if_neg hw] at hpos
    cases hpos

/-- The fake call for a withdrawn request finishes it and leaves the limiter alone. -/
theorem fake_inv {c : Client} (h : Inv c) {r : RequestId}
    (hp : .dbusCallFinished r ∈ c.posted) :
    Inv ((c.taken (.dbusCallFinished r)).dbusCallFinished r none) := by
  obtain ⟨hw,hcount⟩ := withdrawn_of_mem h.toCore hp
  have hproper := (h.placed r).proper
  obtain ⟨hacc,hemit,hemitting,hcf,hval,himg,hwatch,hcww⟩ := hproper.unfinished hw.1 hw.2.1
  have hplaced := h.placed r
  have heq : (c.taken (.dbusCallFinished r)).dbusCallFinished r none =
      (c.taken (.dbusCallFinished r)).modify r (failed · "Request cancelled") :=
    dbusCallFinished_fake (c:=c.taken _) hw.2.1 hw.2.2.1 (hcww.trans (by simp [hw.2.2.1,hw.2.2.2])) none
  rw [heq]
  refine ⟨h.touch (taken_elsewhere c (Or.inl rfl) _) ?_ ?_ (h.live_lt hw.1) le_rfl h.saturated
    h.failures,?_⟩
  · have hq : ¬ Queued (c.requests r) := fun hq => by simpa [hw.2.2.1] using hq.2.2.1
    have ho : ¬ Orphaned (c.requests r) := fun ho => by simpa [hw.1] using ho.1
    have hrej : ¬ Rejected (c.requests r) := fun hrej => by simpa [hw.2.1] using hrej.2.1
    refine placed_of_quiet ?_ ?_ ?_ ⟨?_,?_,?_⟩
    · rw [modify_self]
      change Proper (failed (c.requests r) _)
      have hs := hw.2.2.2
      have hl := hw.1
      constructor <;> simp_all [failed]
    · rw [modify_self]
      exact failed_quiet hw.1 _
    · exact hplaced.queue.trans (if_neg hq)
    · exact count_erase_self hcount
    · exact (count_erase_other _ (by simp)).trans (hplaced.pump.trans (if_neg ho))
    · exact (count_erase_other _ (by simp)).trans (hplaced.announce.trans (if_neg hrej))
  · exact (taken_linked h.linked _).modify rfl fun hcon => by simpa [failed] using hcon.2.1
  · have hsame := outstanding_modify_same (c:=c.taken (.dbusCallFinished r)) (r:=r)
      (f:=(failed · "Request cancelled")) Iff.rfl
    rw [hsame]
    exact h.running

/-- A pump on behalf of a destroyed request gives its slot to the next one. -/
theorem pump_inv {c : Client} (h : Inv c) {r : RequestId} (hp : .pumpLimiter r ∈ c.posted) :
    Inv ((c.taken (.pumpLimiter r)).done r) := by
  obtain ⟨ho,hcount⟩ := orphaned_of_mem h.toCore hp
  have hplaced := h.placed r
  have howing : Owing (c.requests r) := ho.2
  have hlt := h.owing_lt howing
  rw [done_advance (c:=c.taken _) r (h.running_pos howing)
    fun s hs => (h.queued_of_pending hs).1]
  apply advance_inv
  · refine h.touch (taken_elsewhere c (Or.inr (Or.inl rfl)) _) ?_ ?_ hlt le_rfl h.saturated
      h.failures
    · have hlive := ho.1
      have hacc := ho.2.2
      have hsent := ho.2.1
      refine placed_of_quiet ?_ ?_ ?_ ⟨?_,?_,?_⟩
      · rw [modify_self]
        have hproper := hplaced.proper
        exact ⟨hproper.sent,by change (c.requests r).accounted+1 ≤ (c.requests r).sent; omega,
          hproper.emitted,fun hcon => by simp [taken,hlive] at hcon,
          fun hcon => by simp [taken,hlive] at hcon,hproper.cancelled,hproper.emitting,
          hproper.dead⟩
      · rw [modify_self]
        simp [Quiet,Queued,Withdrawn,Orphaned,Rejected,taken,hlive]
      · exact hplaced.queue.trans (if_neg fun hq => by simpa [hlive] using hq.1)
      · exact (count_erase_other _ (by simp)).trans
          (hplaced.fake.trans (if_neg fun hw => by simpa [hlive] using hw.1))
      · exact count_erase_self hcount
      · exact (count_erase_other _ (by simp)).trans
          (hplaced.announce.trans (if_neg fun hrej => by simpa [hlive] using hrej.1))
    · exact (taken_linked h.linked _).modify rfl id
  · have hlose := outstanding_modify_lose (c:=c.taken (.pumpLimiter r)) (r:=r)
      (f:=fun q => { q with accounted := q.accounted+1 }) hlt howing fun hcon => by
        simpa using hcon.2
    have hrun := h.running
    change c.limiter.running = _
    have hout : outstanding (c.taken (.pumpLimiter r)) = outstanding c := rfl
    omega

/-- The `finished` of a rejected request is emitted once. -/
theorem announce_inv {c : Client} (h : Inv c) {r : RequestId} (hp : .finished r ∈ c.posted) :
    Inv ((c.taken (.finished r)).emitFinished r) := by
  obtain ⟨hrej,hcount⟩ := rejected_of_mem h.toCore hp
  have hplaced := h.placed r
  have hproper := hplaced.proper
  obtain ⟨hlive,hfin,hemit⟩ := hrej
  obtain ⟨hacc,hwatch,hnp,hsent⟩ := hproper.finished hlive hfin
  unfold emitFinished
  refine ⟨h.touch (taken_elsewhere c (Or.inr (Or.inr rfl)) _) ?_ ?_ (h.live_lt hlive) le_rfl
    h.saturated h.failures,?_⟩
  · refine placed_of_quiet ?_ ?_ ?_ ⟨?_,?_,?_⟩
    · rw [modify_self]
      exact ⟨hproper.sent,hproper.accounted,
        by change (c.requests r).emitted+1 ≤ 1; omega,
        fun _ hcon => by simp [taken,hfin] at hcon,
        fun _ _ => ⟨hacc,Or.inr rfl,hnp,fun hcon => by simp at hcon⟩,hproper.cancelled,
        fun _ => ⟨hlive,hfin⟩,hproper.dead⟩
    · rw [modify_self]
      simp [Quiet,Queued,Withdrawn,Orphaned,Rejected,taken,hlive,hfin]
    · exact hplaced.queue.trans (if_neg fun hq => by simpa [hfin] using hq.2.1)
    · exact (count_erase_other _ (by simp)).trans
        (hplaced.fake.trans (if_neg fun hw => by simpa [hfin] using hw.2.1))
    · exact (count_erase_other _ (by simp)).trans
        (hplaced.pump.trans (if_neg fun ho => by simpa [hlive] using ho.1))
    · exact count_erase_self hcount
  · exact (taken_linked h.linked _).modify rfl id
  · have hsame := outstanding_modify_same (c:=c.taken (.finished r)) (r:=r)
      (f:=fun q => { q with emitting := true, emitted := q.emitted+1 }) Iff.rfl
    rw [hsame]
    exact h.running

/-- Back from the application's handler, the watcher is reset. -/
theorem handlerReturned_inv {c : Client} (h : Inv c) {r : RequestId}
    (hr : (c.requests r).emitting = true) :
    Inv (c.modify r fun q => { q with emitting := false, watcher := .none }) := by
  have hproper := (h.placed r).proper
  obtain ⟨hlive,hfin⟩ := hproper.emitting hr
  obtain ⟨hacc,hwatch,hnp,hsent⟩ := hproper.finished hlive hfin
  have hemit : (c.requests r).emitted ≠ 0 := by
    intro hcon
    simpa [hr] using (hsent hcon).2
  have hquiet : ∀ q : RequestImpl, q.live = true → q.finished = true → q.emitted ≠ 0 → Quiet q := by
    intro q h1 h2 h3
    simp [Quiet,Queued,Withdrawn,Orphaned,Rejected,h1,h2,h3]
  refine ⟨h.modify_quiet (h.live_lt hlive) ?_ (hquiet _ hlive hfin hemit)
    (hquiet _ hlive hfin hemit) rfl id,?_⟩
  · exact ⟨hproper.sent,hproper.accounted,hproper.emitted,
      fun _ hcon => by simp [hfin] at hcon,
      fun _ _ => ⟨hacc,Or.inl rfl,by simp,fun hcon => absurd hcon hemit⟩,hproper.cancelled,
      fun hcon => by simp at hcon,fun _ => rfl⟩
  · rw [outstanding_modify_same Iff.rfl]
    exact h.running

/-! ### Cancel functions -/

/-- The client after a cancel function was called. -/
def unqueued (c : Client) (f : CancelFunc) : Client :=
  { c with limiter := (c.limiter.cancel f).1 }

theorem callCancelFunc_some {c : Client} {r : RequestId} {f : CancelFunc}
    (hf : (c.requests r).cancelFunc = some f) :
    c.callCancelFunc r = (c.unqueued f,(c.limiter.cancel f).2) := by
  unfold callCancelFunc
  rw [hf]
  rfl

/-- A cancel function takes its own request out of the queue, and no other. -/
theorem unqueued_pending {c : Client} (h : Linked c) {r : RequestId} {f : CancelFunc}
    (hf : (c.requests r).cancelFunc = some f) :
    (c.unqueued f).limiter.pending = c.limiter.pending.filter (· ≠ r) := by
  cases f with
  | queued ref =>
    apply cancel_pending
    intro e he x hj
    have hx := h.owner e he x hj
    constructor
    · rintro rfl
      exact h.func_inj x r e.ref hx hf
    · rintro rfl
      simpa [hx] using hf
  | notQueued =>
    have hall : ∀ x ∈ c.limiter.pending, decide (x ≠ r) = true := by
      intro x hx
      obtain ⟨e,he,hj⟩ := List.mem_filterMap.mp hx
      apply decide_eq_true
      rintro rfl
      have hcf := h.owner e he x hj
      rw [hf] at hcf
      simp at hcf
    exact (List.filter_eq_self.mpr hall).symm

theorem unqueued_linked {c : Client} (h : Linked c) (f : CancelFunc) : Linked (c.unqueued f) := by
  cases f with
  | notQueued => exact h
  | queued ref =>
    have hlist : (c.unqueued (.queued ref)).limiter.list = c.limiter.list.map (clear ref) :=
      cancel_list c.limiter ref
    have hrefs : (c.limiter.list.map (clear ref)).map Entry.ref = c.limiter.list.map Entry.ref := by
      rw [List.map_map]
      exact List.map_congr_left fun e _ => clear_ref ref e
    refine ⟨?_,by rw [hlist,hrefs]; exact h.entry_nodup,?_,h.func_inj,?_,?_⟩
    · rw [hlist]
      intro e he
      obtain ⟨e',he',rfl⟩ := List.mem_map.mp he
      simpa [unqueued] using h.entry_lt e' he'
    · intro x k hx
      simpa [unqueued] using h.func_lt x k hx
    · rw [hlist]
      intro e he x hj
      obtain ⟨e',he',rfl⟩ := List.mem_map.mp he
      rw [clear_ref]
      exact h.owner e' he' x (clear_job hj).1
    · rw [hlist]
      intro x hx k hk e he
      obtain ⟨e',he',rfl⟩ := List.mem_map.mp he
      rw [clear_ref]
      exact h.inFlight x hx k hk e' he'

/-- The entry of a queued request is still there. -/
theorem cancel_queued {c : Client} (h : Core c) {r : RequestId} (hr : Queued (c.requests r)) :
    ∃ f, (c.requests r).cancelFunc = some f ∧ (c.limiter.cancel f).2 = true := by
  obtain ⟨e,he,hj⟩ := List.mem_filterMap.mp (h.pending_of_queued hr)
  exact ⟨_,h.linked.owner e he r hj,cancel_snd.mpr ⟨e,he,rfl⟩⟩

/-- The entry of a request in flight is gone. -/
theorem cancel_inFlight {c : Client} (h : Core c) {r : RequestId}
    (hr : InFlight (c.requests r)) :
    ∃ f, (c.requests r).cancelFunc = some f ∧ c.limiter.cancel f = (c.limiter,false) := by
  obtain ⟨_,_,_,hcf,_⟩ := (h.placed r).proper.unfinished hr.1 hr.2.1
  obtain ⟨f,hf⟩ := Option.ne_none_iff_exists'.mp hcf
  refine ⟨f,hf,?_⟩
  cases f with
  | notQueued => rfl
  | queued ref =>
    have hno : ¬ ∃ e ∈ c.limiter.list, e.ref = ref := by
      rintro ⟨e,he,hcon⟩
      exact h.linked.inFlight r hr ref hf e he hcon
    simp only [RateLimiter.cancel,if_neg hno]

theorem unqueued_elsewhere {c : Client} (h : Linked c) {r : RequestId} {f : CancelFunc}
    (hf : (c.requests r).cancelFunc = some f) : Elsewhere c (c.unqueued f) r := by
  refine ⟨fun _ _ => rfl,fun x hx => ?_,fun _ _ _ _ => rfl⟩
  rw [unqueued_pending h hf]
  exact List.count_filter (by simpa using hx)

theorem Elsewhere.trans {c d e : Client} {r : RequestId} (h : Elsewhere c d r)
    (h' : Elsewhere d e r) : Elsewhere c e r :=
  ⟨fun x hx => (h'.requests x hx).trans (h.requests x hx),
    fun x hx => (h'.queue x hx).trans (h.queue x hx),
    fun x hx p hp => (h'.posted x hx p hp).trans (h.posted x hx p hp)⟩

theorem unqueued_not_mem {c : Client} (h : Linked c) {r : RequestId} {f : CancelFunc}
    (hf : (c.requests r).cancelFunc = some f) : r ∉ (c.unqueued f).limiter.pending := by
  rw [unqueued_pending h hf]
  simp

theorem unqueued_saturated {c : Client} (h : Core c) {r : RequestId} {f : CancelFunc}
    (hf : (c.requests r).cancelFunc = some f) (hne : (c.unqueued f).limiter.pending ≠ []) :
    (c.unqueued f).limiter.concurrency ≤ c.limiter.running := by
  have hpend : c.limiter.pending ≠ [] := by
    intro hcon
    rw [unqueued_pending h.linked hf,hcon] at hne
    exact hne rfl
  have hconc : (c.unqueued f).limiter.concurrency = c.limiter.concurrency :=
    cancel_concurrency c.limiter f
  rw [hconc]
  exact h.saturated hpend

/-- The request after `cancel()`. -/
def marked (waiting : Bool) (q : RequestImpl) : RequestImpl :=
  { q with cancelled := true, cancelledWhileWaiting := waiting }

theorem cancel_eq {c : Client} {r : RequestId} {f : CancelFunc}
    (hfin : (c.requests r).finished = false) (hcan : (c.requests r).cancelled = false)
    (hf : (c.requests r).cancelFunc = some f) :
    c.cancel r =
      if (c.limiter.cancel f).2 then
        ((c.unqueued f).modify r (marked true)).post (.dbusCallFinished r)
      else (c.unqueued f).modify r (marked false) := by
  have hf' : ((c.modify r fun q => { q with cancelled := true }).requests r).cancelFunc =
      some f := by
    rw [modify_self]
    exact hf
  have hlim : (c.modify r fun q => { q with cancelled := true }).limiter = c.limiter := rfl
  have hmod : ∀ b, ((c.modify r fun q => { q with cancelled := true }).unqueued f).modify r
      (fun q => { q with cancelledWhileWaiting := b }) = (c.unqueued f).modify r (marked b) :=
    fun b => modify_modify (c.unqueued f) r (fun q => { q with cancelled := true })
      fun q => { q with cancelledWhileWaiting := b }
  unfold cancel
  simp only [hfin,hcan,Bool.or_self,Bool.false_eq_true,if_false,callCancelFunc_some hf',hlim,hmod]
  cases (c.limiter.cancel f).2 <;> rfl

theorem post_elsewhere (c : Client) {r : RequestId} {p : Posted}
    (hp : p = .dbusCallFinished r ∨ p = .pumpLimiter r ∨ p = .finished r) :
    Elsewhere c (c.post p) r := by
  refine ⟨fun _ _ => rfl,fun _ _ => rfl,fun x hx q hq => ?_⟩
  apply List.count_cons_of_ne
  rintro rfl
  rcases hp with rfl | rfl | rfl <;> simp_all

theorem post_linked {c : Client} (h : Linked c) (p : Posted) : Linked (c.post p) :=
  ⟨h.entry_lt,h.entry_nodup,h.func_lt,h.func_inj,h.owner,h.inFlight⟩

theorem marked_proper {q : RequestImpl} (h : Proper q) (hlive : q.live = true)
    (hfin : q.finished = false) : Proper (marked (decide (q.sent = 0)) q) := by
  obtain ⟨hacc,hemit,hemitting,hcf,hval,himg,hwatch,hcww⟩ := h.unfinished hlive hfin
  have hsent := h.sent
  have hle := h.accounted
  constructor <;> simp_all [marked]

/-- Cancelling in the queue withdraws the request and posts the fake call. -/
theorem cancel_queued_inv {c : Client} (h : Inv c) {r : RequestId}
    (hr : Queued (c.requests r)) : Inv (c.cancel r) := by
  obtain ⟨f,hf,htrue⟩ := cancel_queued h.toCore hr
  obtain ⟨hlive,hfin,hcan,hsent⟩ := hr
  have hplaced := h.placed r
  have hrun : (c.unqueued f).limiter.running = c.limiter.running := cancel_running c.limiter f
  rw [cancel_eq hfin hcan hf,if_pos htrue]
  have helse := ((unqueued_elsewhere h.linked hf).trans
    (modify_elsewhere _ r (marked true))).trans (post_elsewhere _ (Or.inl rfl))
  have hlinked := post_linked ((unqueued_linked h.linked f).modify (r:=r) (f:=marked true) rfl id)
    (.dbusCallFinished r)
  refine ⟨h.touch helse ?_ hlinked (h.live_lt hlive) le_rfl ?_ h.failures,?_⟩
  · have hreq : (((c.unqueued f).modify r (marked true)).post (.dbusCallFinished r)).requests r =
        marked true (c.requests r) := modify_self (c.unqueued f) r (marked true)
    have hmarked := marked_proper hplaced.proper hlive hfin
    rw [hsent] at hmarked
    refine ⟨?_,?_,?_,?_,?_⟩ <;> rw [hreq]
    · exact hmarked
    · rw [if_neg (by simp [Queued,marked])]
      exact List.count_eq_zero.mpr (unqueued_not_mem h.linked hf)
    · rw [if_pos ⟨hlive,hfin,rfl,hsent⟩]
      change List.count _ (_ :: c.posted) = 1
      rw [List.count_cons_self,hplaced.fake,if_neg (by simp [Withdrawn,hcan])]
    · rw [if_neg (by simp [Orphaned,marked,hlive])]
      change List.count _ (_ :: c.posted) = 0
      rw [List.count_cons_of_ne (by simp),hplaced.pump,if_neg (by simp [Orphaned,hlive])]
    · rw [if_neg (by simp [Rejected,marked,hfin])]
      change List.count _ (_ :: c.posted) = 0
      rw [List.count_cons_of_ne (by simp),hplaced.announce,if_neg (by simp [Rejected,hfin])]
  · intro hne
    change _ ≤ (c.unqueued f).limiter.running
    rw [hrun]
    exact unqueued_saturated h.toCore hf hne
  · have hout : outstanding ((c.unqueued f).modify r (marked true)) = outstanding (c.unqueued f) :=
      outstanding_modify_same Iff.rfl
    change (c.unqueued f).limiter.running = outstanding ((c.unqueued f).modify r (marked true))
    rw [hout,hrun]
    exact h.running

/-- Cancelling in flight only marks the request. -/
theorem cancel_inFlight_inv {c : Client} (h : Inv c) {r : RequestId}
    (hr : InFlight (c.requests r)) (hcan : (c.requests r).cancelled = false) :
    Inv (c.cancel r) := by
  obtain ⟨f,hf,hfalse⟩ := cancel_inFlight h.toCore hr
  obtain ⟨hlive,hfin,hsent⟩ := hr
  have hsame : c.unqueued f = c := by simp [unqueued,hfalse]
  rw [cancel_eq hfin hcan hf,hfalse,if_neg (by simp),hsame]
  have hfly : InFlight (marked false (c.requests r)) := ⟨hlive,hfin,hsent⟩
  have hmarked := marked_proper (h.placed r).proper hlive hfin
  rw [hsent] at hmarked
  refine ⟨h.modify_quiet (h.live_lt hlive) hmarked (InFlight.quiet ⟨hlive,hfin,hsent⟩) hfly.quiet
    rfl fun _ => ⟨hlive,hfin,hsent⟩,?_⟩
  rw [outstanding_modify_same Iff.rfl]
  exact h.running

/-- An unfinished request that is not cancelled waits in the queue or is in flight. -/
theorem queued_or_inFlight {q : RequestImpl} (h : Proper q) (hlive : q.live = true)
    (hfin : q.finished = false) (hcan : q.cancelled = false) : Queued q ∨ InFlight q := by
  have hsent := h.sent
  by_cases h0 : q.sent = 0
  · exact Or.inl ⟨hlive,hfin,hcan,h0⟩
  · exact Or.inr ⟨hlive,hfin,by omega⟩

theorem cancel_inv {c : Client} (h : Inv c) {r : RequestId} (hlive : (c.requests r).live = true) :
    Inv (c.cancel r) := by
  by_cases hnoop : ((c.requests r).finished || (c.requests r).cancelled) = true
  · have heq : c.cancel r = c := by simp only [cancel,hnoop,if_true]
    rw [heq]
    exact h
  · obtain ⟨hfin,hcan⟩ : (c.requests r).finished = false ∧ (c.requests r).cancelled = false := by
      simpa [not_or] using hnoop
    rcases queued_or_inFlight (h.placed r).proper hlive hfin hcan with hq | hf
    · exact cancel_queued_inv h hq
    · exact cancel_inFlight_inv h hf hcan

/-! ### Waiting -/

/-- A request that was sent past the queue. -/
def bypassed (q : RequestImpl) : RequestImpl := { q with watcher := .pending, sent := q.sent+1 }

/-- The client after `schedule_now()` was called for a request in the queue. -/
def bypass (c : Client) (r : RequestId) (f : CancelFunc) : Client :=
  { (c.unqueued f).modify r bypassed with
    limiter := ((c.unqueued f).limiter.scheduleNow r).1 }

theorem waitForFinished_queued {c : Client} {r : RequestId} {f : CancelFunc} (reply : Reply)
    (hlive : (c.requests r).live = true) (hfin : (c.requests r).finished = false)
    (hcan : (c.requests r).cancelled = false) (hwatch : (c.requests r).watcher = .none)
    (hf : (c.requests r).cancelFunc = some f) (htrue : (c.limiter.cancel f).2 = true) :
    c.waitForFinished r reply = (c.bypass r f).deliver r reply := by
  have hgone : (c.unqueued f).check (((c.unqueued f).requests r).watcher = .none) .watcherGone =
    c.unqueued f := check_of hwatch _
  have hsend : ({ c.unqueued f with
      limiter := ((c.unqueued f).limiter.scheduleNow r).1 }.call
        ((c.unqueued f).limiter.scheduleNow r).2.2) = c.bypass r f := by
    have hlive' : ((c.unqueued f).requests r).live = true := hlive
    simp only [scheduleNow,call,send]
    rw [check_of hlive']
    rfl
  have hthere : (c.bypass r f).check (((c.bypass r f).requests r).watcher ≠ .none) .watcherThere =
      c.bypass r f := by
    have hreq : (c.bypass r f).requests r = bypassed (c.requests r) :=
      modify_self (c.unqueued f) r bypassed
    exact check_of (by rw [hreq]; simp [bypassed]) _
  unfold waitForFinished
  simp only [hfin,hcan,Bool.or_self,Bool.false_eq_true,if_false,callCancelFunc_some hf,htrue,
    if_true,hgone,hsend,hthere]

/-- Waiting for a queued request sends it past the queue, and its reply settles it. -/
theorem waitForFinished_bypass {c : Client} (h : Inv c) {r : RequestId}
    (hr : Queued (c.requests r)) (reply : Reply) : ∃ f, (c.requests r).cancelFunc = some f ∧
      c.waitForFinished r reply = advance ((c.bypass r f).modify r (settled reply)) := by
  obtain ⟨f,hf,htrue⟩ := cancel_queued h.toCore hr
  obtain ⟨_,_,_,_,_,_,hwatch,hcww⟩ := (h.placed r).proper.unfinished hr.1 hr.2.1
  obtain ⟨hlive,hfin,hcan,hsent⟩ := hr
  have hwatch' : (c.requests r).watcher = .none := by simpa [hsent] using hwatch
  have hreq : (c.bypass r f).requests r = bypassed (c.requests r) :=
    modify_self (c.unqueued f) r bypassed
  have hrun : (c.unqueued f).limiter.running = c.limiter.running := cancel_running c.limiter f
  have hpos : 0 < (c.bypass r f).limiter.running := by
    change 0 < (c.unqueued f).limiter.running+1
    have hrunning := h.running
    omega
  have hnot : r ∉ (c.bypass r f).limiter.pending := unqueued_not_mem h.linked hf
  have hothers : ∀ s ∈ (c.bypass r f).limiter.pending,
      ((c.bypass r f).requests s).live = true := by
    intro s hs
    have hsr : s ≠ r := by
      rintro rfl
      exact hnot hs
    have hs' : s ∈ c.limiter.pending := by
      have hfilter : s ∈ (c.unqueued f).limiter.pending := hs
      rw [unqueued_pending h.linked hf] at hfilter
      exact List.mem_of_mem_filter hfilter
    change (((c.unqueued f).modify r bypassed).requests s).live = true
    rw [modify_of_ne _ _ hsr]
    exact (h.queued_of_pending hs').1
  have hcww' : (bypassed (c.requests r)).cancelledWhileWaiting = false :=
    hcww.trans (by simp [hcan])
  refine ⟨f,hf,?_⟩
  rw [waitForFinished_queued reply hlive hfin hcan hwatch' hf htrue,
    deliver_eq reply hpos hothers hnot (by rw [hreq]; exact hfin) (by rw [hreq]; exact hcww')]

/-- Waiting for a queued request sends it at once; its reply frees the slot it took. -/
theorem wait_queued_inv {c : Client} (h : Inv c) {r : RequestId}
    (hr : Queued (c.requests r)) (reply : Reply) : Inv (c.waitForFinished r reply) := by
  obtain ⟨f,hf,heq⟩ := waitForFinished_bypass h hr reply
  have hplaced := h.placed r
  have hproper := hplaced.proper
  obtain ⟨hacc,hemit,_,_,_,_,_,_⟩ := hproper.unfinished hr.1 hr.2.1
  have hnotowing := hr.not_owing
  obtain ⟨hlive,hfin,hcan,hsent⟩ := hr
  have hreq : (c.bypass r f).requests r = bypassed (c.requests r) :=
    modify_self (c.unqueued f) r bypassed
  have hnot : r ∉ (c.bypass r f).limiter.pending := unqueued_not_mem h.linked hf
  have hrun : (c.unqueued f).limiter.running = c.limiter.running := cancel_running c.limiter f
  rw [heq]
  have hmod : ((c.unqueued f).modify r fun q => settled reply (bypassed q)) =
      ((c.unqueued f).modify r bypassed).modify r (settled reply) := by rw [modify_modify]
  have helse : Elsewhere c ((c.bypass r f).modify r (settled reply)) r := by
    have h1 := (unqueued_elsewhere h.linked hf).trans
      (modify_elsewhere _ r fun q => settled reply (bypassed q))
    rw [hmod] at h1
    exact ⟨h1.requests,h1.queue,h1.posted⟩
  have hlinked : Linked ((c.bypass r f).modify r (settled reply)) := by
    have h1 := (unqueued_linked h.linked f).modify (r:=r)
      (f:=fun q => settled reply (bypassed q)) (concluded_fields _ reply).1
      fun hcon => absurd hcon (settled_not_inFlight _ _)
    rw [hmod] at h1
    exact ⟨h1.entry_lt,h1.entry_nodup,h1.func_lt,h1.func_inj,h1.owner,h1.inFlight⟩
  have hfinal : ((c.bypass r f).modify r (settled reply)).requests r =
      settled reply (bypassed (c.requests r)) := by rw [modify_self,hreq]
  apply advance_inv
  · refine h.touch helse ?_ hlinked (h.live_lt hlive) le_rfl ?_ h.failures
    · have hfake := hplaced.fake
      have hpump := hplaced.pump
      have hannounce := hplaced.announce
      refine placed_of_quiet ?_ ?_ (List.count_eq_zero.mpr hnot) ⟨?_,?_,?_⟩
      · rw [hfinal]
        exact concluded_proper (by simp [bypassed,hsent]) (by simp [bypassed,hsent,hacc]) hemit
          hlive (by simp)
      · rw [hfinal]
        exact concluded_quiet hlive
      · exact hfake.trans (if_neg (by simp [Withdrawn,hcan]))
      · exact hpump.trans (if_neg (by simp [Orphaned,hlive]))
      · exact hannounce.trans (if_neg (by simp [Rejected,hfin]))
    · intro hne
      have hle := unqueued_saturated h.toCore hf hne
      change (c.unqueued f).limiter.concurrency ≤ (c.unqueued f).limiter.running+1
      omega
  · have hout : outstanding ((c.unqueued f).modify r fun q => settled reply (bypassed q)) =
        outstanding (c.unqueued f) :=
      outstanding_modify_same ⟨fun hcon => absurd hcon (settled_not_owing _ _),
        fun hcon => absurd hcon hnotowing⟩
    rw [hmod] at hout
    have hrunning := h.running
    change (c.unqueued f).limiter.running+1 =
      (outstanding (((c.unqueued f).modify r bypassed).modify r (settled reply)) : ℤ)+1
    rw [hout,hrun,hrunning]
    rfl

theorem waitForFinished_inFlight {c : Client} (h : Core c) {r : RequestId} (reply : Reply)
    (hr : InFlight (c.requests r)) (hcan : (c.requests r).cancelled = false) :
    c.waitForFinished r reply = c.deliver r reply := by
  obtain ⟨f,hf,hfalse⟩ := cancel_inFlight h hr
  obtain ⟨_,_,_,_,_,_,hwatch,_⟩ := (h.placed r).proper.unfinished hr.1 hr.2.1
  have hsame : c.unqueued f = c := by simp [unqueued,hfalse]
  have hthere : c.check ((c.requests r).watcher ≠ .none) .watcherThere = c :=
    check_of (by simp [hwatch,hr.2.2]) _
  unfold waitForFinished
  simp only [hr.2.1,hcan,Bool.or_self,Bool.false_eq_true,if_false,callCancelFunc_some hf,hfalse,
    hsame,hthere]

theorem waitForFinished_inv {c : Client} (h : Inv c) {r : RequestId}
    (hlive : (c.requests r).live = true) (reply : Reply) : Inv (c.waitForFinished r reply) := by
  by_cases hnoop : ((c.requests r).finished || (c.requests r).cancelled) = true
  · have heq : c.waitForFinished r reply = c := by simp only [waitForFinished,hnoop,if_true]
    rw [heq]
    exact h
  · obtain ⟨hfin,hcan⟩ : (c.requests r).finished = false ∧ (c.requests r).cancelled = false := by
      simpa [not_or] using hnoop
    rcases queued_or_inFlight (h.placed r).proper hlive hfin hcan with hq | hf
    · exact wait_queued_inv h hq reply
    · rw [waitForFinished_inFlight h.toCore reply hf hcan]
      exact deliver_inv h hf reply

/-! ### Destruction -/

/-- The request after its destructor. -/
def destroyed (q : RequestImpl) : RequestImpl := { q with live := false, watcher := .none }

/-- The posted calls that are left when a request is gone. -/
def surviving (posted : List Posted) (r : RequestId) : List Posted :=
  posted.filter fun p => p ≠ .dbusCallFinished r ∧ p ≠ .finished r

/-- The limiter after the destructor has called the cancel function. -/
def withdrawnFrom (c : Client) (r : RequestId) : Client :=
  match (c.requests r).cancelFunc with
  | some f => c.unqueued f
  | none => c

theorem withdrawnFrom_limiter (c : Client) (r : RequestId) :
    (c.withdrawnFrom r).requests = c.requests ∧ (c.withdrawnFrom r).next = c.next ∧
      (c.withdrawnFrom r).posted = c.posted ∧ (c.withdrawnFrom r).failures = c.failures ∧
      (c.withdrawnFrom r).limiter.running = c.limiter.running ∧
      (c.withdrawnFrom r).limiter.concurrency = c.limiter.concurrency := by
  unfold withdrawnFrom
  cases (c.requests r).cancelFunc with
  | none => exact ⟨rfl,rfl,rfl,rfl,rfl,rfl⟩
  | some f => exact ⟨rfl,rfl,rfl,rfl,cancel_running _ _,cancel_concurrency _ _⟩

theorem withdrawnFrom_linked {c : Client} (h : Linked c) (r : RequestId) :
    Linked (c.withdrawnFrom r) := by
  unfold withdrawnFrom
  cases (c.requests r).cancelFunc with
  | none => exact h
  | some f => exact unqueued_linked h f

theorem withdrawnFrom_pending {c : Client} (h : Linked c) (r : RequestId) :
    (c.withdrawnFrom r).limiter.pending = c.limiter.pending.filter (· ≠ r) := by
  cases hf : (c.requests r).cancelFunc with
  | some f =>
    simp only [withdrawnFrom,hf]
    exact unqueued_pending h hf
  | none =>
    have hall : ∀ x ∈ c.limiter.pending, decide (x ≠ r) = true := by
      intro x hx
      obtain ⟨e,he,hj⟩ := List.mem_filterMap.mp hx
      apply decide_eq_true
      rintro rfl
      have hcf := h.owner e he x hj
      rw [hf] at hcf
      simp at hcf
    simp only [withdrawnFrom,hf]
    exact (List.filter_eq_self.mpr hall).symm

/-- Only the destruction of a request in flight posts a pump. -/
def pumpFor (q : RequestImpl) (r : RequestId) : List Posted :=
  if InFlight q then [.pumpLimiter r] else []

/-- The client after the destructor of a live request. -/
def without (c : Client) (r : RequestId) : Client :=
  { (c.withdrawnFrom r).modify r destroyed with
    posted := pumpFor (c.requests r) r ++ surviving c.posted r }

theorem destroy_eq {c : Client} (h : Core c) {r : RequestId} (hlive : (c.requests r).live = true)
    (hemit : (c.requests r).emitting = false) : c.destroy r = c.without r := by
  have hproper := (h.placed r).proper
  cases hf : (c.requests r).cancelFunc with
  | none =>
    have hfin : (c.requests r).finished = true := by
      by_contra hcon
      exact (hproper.unfinished hlive (Bool.eq_false_iff.mpr hcon)).2.2.2.1 hf
    have hno : ¬ InFlight (c.requests r) := fun hcon => by simpa [hfin] using hcon.2.1
    simp only [destroy,hf,Option.isSome_none,Bool.false_eq_true,if_false,Bool.not_true,and_false,
      hno,without,pumpFor,withdrawnFrom,surviving]
    rfl
  | some f =>
    have hpump : (((c.unqueued f).requests r).watcher ≠ .none ∧
        (!(c.limiter.cancel f).2) = true) ↔ InFlight (c.requests r) := by
      change ((c.requests r).watcher ≠ .none ∧ _) ↔ _
      by_cases hfly : InFlight (c.requests r)
      · obtain ⟨g,hg,hfalse⟩ := cancel_inFlight h hfly
        obtain rfl : f = g := Option.some.inj (hf.symm.trans hg)
        obtain ⟨_,_,_,_,_,_,hwatch,_⟩ := hproper.unfinished hlive hfly.2.1
        simp [hfalse,hwatch,hfly.2.2,hfly]
      · have hnone : (c.requests r).watcher = .none := by
          cases hfin : (c.requests r).finished with
          | true =>
            obtain ⟨_,hw,_,_⟩ := hproper.finished hlive hfin
            simpa [hemit] using hw
          | false =>
            obtain ⟨_,_,_,_,_,_,hwatch,_⟩ := hproper.unfinished hlive hfin
            rw [hwatch,if_neg fun hcon => hfly ⟨hlive,hfin,hcon⟩]
        simp [hnone,hfly]
    simp only [destroy,hf,Option.isSome_some,if_true,callCancelFunc_some hf,hpump,without,pumpFor,
      withdrawnFrom,surviving]
    rfl

theorem surviving_count {posted : List Posted} {r : RequestId} {p : Posted}
    (h1 : p ≠ .dbusCallFinished r) (h2 : p ≠ .finished r) :
    (surviving posted r).count p = posted.count p :=
  List.count_filter (by simp [h1,h2])

theorem surviving_count_zero (posted : List Posted) (r : RequestId) :
    (surviving posted r).count (.dbusCallFinished r) = 0 ∧
      (surviving posted r).count (.finished r) = 0 := by
  constructor <;> exact List.count_eq_zero.mpr (by simp [surviving])

theorem destroyed_proper {q : RequestImpl} (h : Proper q) (hemit : q.emitting = false) :
    Proper (destroyed q) :=
  ⟨h.sent,h.accounted,h.emitted,fun hcon => by simp [destroyed] at hcon,
    fun hcon => by simp [destroyed] at hcon,h.cancelled,
    fun hcon => by simp [destroyed,hemit] at hcon,fun _ => rfl⟩

/-- A live request is orphaned by its destruction exactly when it is in flight. -/
theorem orphaned_destroyed {q : RequestImpl} (h : Proper q) (hlive : q.live = true) :
    Orphaned (destroyed q) ↔ InFlight q := by
  constructor
  · rintro ⟨_,hsent,hacc⟩
    have hsent' : q.sent = 1 := hsent
    have hacc' : q.accounted = 0 := hacc
    refine ⟨hlive,?_,hsent'⟩
    by_contra hcon
    have := (h.finished hlive (Bool.eq_true_of_not_eq_false hcon)).1
    omega
  · intro hfly
    exact ⟨rfl,hfly.2.2,(h.unfinished hlive hfly.2.1).1⟩

theorem pumpFor_count (q : RequestImpl) (r : RequestId) (p : Posted) :
    (pumpFor q r).count p = if InFlight q ∧ p = .pumpLimiter r then 1 else 0 := by
  unfold pumpFor
  by_cases h : InFlight q
  · by_cases hp : p = .pumpLimiter r
    · subst hp
      simp [h]
    · simp [h,hp,Ne.symm hp]
  · simp [h]

theorem without_requests (c : Client) (r : RequestId) :
    (c.without r).requests r = destroyed (c.requests r) := by
  change ((c.withdrawnFrom r).modify r destroyed).requests r = _
  rw [modify_self,(withdrawnFrom_limiter c r).1]

theorem without_count (c : Client) (r : RequestId) (p : Posted) :
    (c.without r).posted.count p =
      (if InFlight (c.requests r) ∧ p = .pumpLimiter r then 1 else 0) +
        (surviving c.posted r).count p := by
  rw [← pumpFor_count]
  exact List.count_append

theorem without_elsewhere {c : Client} (h : Linked c) (r : RequestId) :
    Elsewhere c (c.without r) r := by
  refine ⟨fun x hx => ?_,fun x hx => ?_,fun x hx p hp => ?_⟩
  · change ((c.withdrawnFrom r).modify r destroyed).requests x = _
    rw [modify_of_ne _ _ hx,(withdrawnFrom_limiter c r).1]
  · change (c.withdrawnFrom r).limiter.pending.count x = _
    rw [withdrawnFrom_pending h r]
    exact List.count_filter (by simpa using hx)
  · have hne : p ≠ .pumpLimiter r ∧ p ≠ .dbusCallFinished r ∧ p ≠ .finished r := by
      rcases hp with rfl | rfl | rfl <;> simp [hx]
    rw [without_count,surviving_count hne.2.1 hne.2.2,if_neg fun hcon => hne.1 hcon.2,zero_add]

theorem without_placed {c : Client} (h : Core c) {r : RequestId}
    (hlive : (c.requests r).live = true) (hemit : (c.requests r).emitting = false) :
    Placed (c.without r) r := by
  have hplaced := h.placed r
  have hproper := hplaced.proper
  have hzero := surviving_count_zero c.posted r
  refine ⟨?_,?_,?_,?_,?_⟩ <;> rw [without_requests]
  · exact destroyed_proper hproper hemit
  · rw [if_neg (by simp [Queued,destroyed])]
    change (c.withdrawnFrom r).limiter.pending.count r = 0
    rw [withdrawnFrom_pending h.linked r]
    exact List.count_eq_zero.mpr (by simp)
  · rw [if_neg (by simp [Withdrawn,destroyed]),without_count,hzero.1]
    simp
  · rw [without_count,surviving_count (by simp) (by simp),hplaced.pump,
      if_neg (show ¬ Orphaned (c.requests r) by simp [Orphaned,hlive]),add_zero]
    by_cases hfly : InFlight (c.requests r)
    · rw [if_pos ⟨hfly,rfl⟩,if_pos ((orphaned_destroyed hproper hlive).mpr hfly)]
    · rw [if_neg fun hcon => hfly hcon.1,if_neg (mt (orphaned_destroyed hproper hlive).mp hfly)]
  · rw [if_neg (by simp [Rejected,destroyed]),without_count,hzero.2]
    simp

theorem destroy_inv {c : Client} (h : Inv c) {r : RequestId} (hlive : (c.requests r).live = true)
    (hemit : (c.requests r).emitting = false) : Inv (c.destroy r) := by
  obtain ⟨hreqs,hnext,_,hfail,hrun,hconc⟩ := withdrawnFrom_limiter c r
  have hlinked := (withdrawnFrom_linked h.linked r).modify (r:=r) (f:=destroyed) rfl
    fun hcon => by simpa [destroyed] using hcon.1
  have hlt := h.live_lt hlive
  rw [destroy_eq h.toCore hlive hemit]
  refine ⟨h.touch (without_elsewhere h.linked r) (without_placed h.toCore hlive hemit)
    ⟨hlinked.entry_lt,hlinked.entry_nodup,hlinked.func_lt,hlinked.func_inj,hlinked.owner,
      hlinked.inFlight⟩ (hnext.symm ▸ hlt) hnext.ge ?_ (hfail.trans h.failures),?_⟩
  · intro hne
    change (c.withdrawnFrom r).limiter.concurrency ≤ (c.withdrawnFrom r).limiter.running
    rw [hconc,hrun]
    apply h.saturated
    intro hcon
    apply hne
    change (c.withdrawnFrom r).limiter.pending = []
    rw [withdrawnFrom_pending h.linked r,hcon]
    rfl
  · have hout : outstanding ((c.withdrawnFrom r).modify r destroyed) =
        outstanding (c.withdrawnFrom r) := outstanding_modify_same Iff.rfl
    have hsame : outstanding (c.withdrawnFrom r) = outstanding c := by
      simp only [outstanding,hreqs,hnext]
    change (c.withdrawnFrom r).limiter.running =
      outstanding ((c.withdrawnFrom r).modify r destroyed)
    rw [hout,hsame,hrun]
    exact h.running

/-! ### Creation -/

/-- A request as its constructor begins. -/
def fresh (details : String) (requestedSize : QSize) : RequestImpl :=
  { blank with details := details, requestedSize := requestedSize, live := true }

/-- The client with one more request, whose job the limiter has taken. -/
def registered (c : Client) (q : RequestImpl) (l : RateLimiter RequestId) : Client :=
  { c with next := c.next+1, requests := Function.update c.requests c.next q, limiter := l }

theorem create_invalid (c : Client) (details : String) {size : QSize}
    (hs : size.isValid = false) :
    c.create details size = (c.registered { fresh details size with
      errorMessage := details ++ ": " ++ "invalid QSize", finished := true } c.limiter).post
        (.finished c.next) := by
  simp only [create,hs,Bool.not_false,if_true]
  rfl

theorem create_sent (c : Client) (details : String) {size : QSize} (hs : size.isValid = true)
    (hlim : c.limiter.running < c.limiter.concurrency) :
    c.create details size = c.registered { fresh details size with
      watcher := .pending, sent := 1, cancelFunc := some .notQueued }
        { c.limiter with running := c.limiter.running+1 } := by
  have hsched : c.limiter.schedule c.next = _ := schedule_below hlim
  unfold create
  simp only [hs,Bool.not_true,Bool.false_eq_true,if_false,modify,hsched,call,send,check,
    Function.update_self,if_true,Function.update_idem]
  rfl

theorem create_queued (c : Client) (details : String) {size : QSize} (hs : size.isValid = true)
    (hlim : ¬ c.limiter.running < c.limiter.concurrency) :
    c.create details size = c.registered { fresh details size with
      cancelFunc := some (.queued c.limiter.nextRef) }
        { c.limiter with
          list := ⟨c.limiter.nextRef,some c.next⟩ :: c.limiter.list,
          nextRef := c.limiter.nextRef+1 } := by
  have hsched : c.limiter.schedule c.next = _ := schedule_full hlim
  unfold create
  simp only [hs,Bool.not_true,Bool.false_eq_true,if_false,modify,hsched,call,
    Function.update_self,Function.update_idem]
  rfl

@[simp] theorem registered_self (c : Client) (q : RequestImpl) (l : RateLimiter RequestId) :
    (c.registered q l).requests c.next = q := Function.update_self ..

theorem registered_of_ne (c : Client) (q : RequestImpl) (l : RateLimiter RequestId)
    {x : RequestId} (hx : x ≠ c.next) : (c.registered q l).requests x = c.requests x :=
  Function.update_of_ne hx ..

/-- Nothing knows about the next request yet. -/
theorem next_counts {c : Client} (h : Core c) :
    c.limiter.pending.count c.next = 0 ∧ c.posted.count (.dbusCallFinished c.next) = 0 ∧
      c.posted.count (.pumpLimiter c.next) = 0 ∧ c.posted.count (.finished c.next) = 0 := by
  apply (h.placed c.next).counts_of_quiet
  rw [h.fresh c.next le_rfl]
  simp [Quiet,Queued,Withdrawn,Orphaned,Rejected,blank]

theorem registered_elsewhere (c : Client) (q : RequestImpl) {l : RateLimiter RequestId}
    (hl : ∀ x ≠ c.next, l.pending.count x = c.limiter.pending.count x) :
    Elsewhere c (c.registered q l) c.next :=
  ⟨fun _ hx => registered_of_ne c q l hx,hl,fun _ _ _ _ => rfl⟩

/-- A new request that was not queued has no entry. -/
theorem registered_linked {c : Client} (h : Core c) {q : RequestImpl} {l : RateLimiter RequestId}
    (hlist : l.list = c.limiter.list) (href : l.nextRef = c.limiter.nextRef)
    (hq : ∀ ref, q.cancelFunc ≠ some (.queued ref)) : Linked (c.registered q l) := by
  have hblank : (c.requests c.next).cancelFunc = none := by rw [h.fresh c.next le_rfl]; rfl
  have hmod : (c.registered q l).requests = (c.modify c.next fun _ => q).requests := rfl
  have hlist' : (c.registered q l).limiter.list = c.limiter.list := hlist
  have href' : (c.registered q l).limiter.nextRef = c.limiter.nextRef := href
  have hlink := h.linked
  refine ⟨by rw [hlist',href']; exact hlink.entry_lt,by rw [hlist']; exact hlink.entry_nodup,
    ?_,?_,?_,?_⟩
  · intro x ref hx
    by_cases hxn : x = c.next
    · subst hxn
      rw [registered_self] at hx
      exact absurd hx (hq ref)
    · rw [registered_of_ne c q l hxn] at hx
      rw [href']
      exact hlink.func_lt x ref hx
  · intro x y ref hx hy
    have hne : ∀ z, ((c.registered q l).requests z).cancelFunc = some (.queued ref) →
        (c.requests z).cancelFunc = some (.queued ref) := by
      intro z hz
      by_cases hzn : z = c.next
      · subst hzn
        rw [registered_self] at hz
        exact absurd hz (hq ref)
      · rwa [registered_of_ne c q l hzn] at hz
    exact hlink.func_inj x y ref (hne x hx) (hne y hy)
  · rw [hlist']
    intro e he x hj
    have hown := hlink.owner e he x hj
    have hxn : x ≠ c.next := by
      rintro rfl
      rw [hblank] at hown
      cases hown
    rwa [registered_of_ne c q l hxn]
  · rw [hlist']
    intro x hx ref hf e he
    by_cases hxn : x = c.next
    · subst hxn
      rw [registered_self] at hf
      exact absurd hf (hq ref)
    · rw [registered_of_ne c q l hxn] at hx hf
      exact hlink.inFlight x hx ref hf e he

theorem outstanding_registered (c : Client) (q : RequestImpl)
    (l : RateLimiter RequestId) :
    outstanding (c.registered q l) = outstanding c + if Owing q then 1 else 0 := by
  have hsame : tally (fun r => Owing ((c.registered q l).requests r)) c.next = outstanding c := by
    apply tally_congr
    intro x hx
    rw [registered_of_ne c q l hx.ne]
  change tally _ (c.next+1) = _
  rw [tally_succ,hsame,registered_self]

theorem create_invalid_inv {c : Client} (h : Inv c) (details : String) {size : QSize}
    (hs : size.isValid = false) : Inv (c.create details size) := by
  obtain ⟨h1,h2,h3,h4⟩ := next_counts h.toCore
  rw [create_invalid c details hs]
  refine ⟨h.touch ((registered_elsewhere c _ fun _ _ => rfl).trans
    (post_elsewhere _ (Or.inr (Or.inr rfl)))) ?_ (post_linked (registered_linked h.toCore rfl rfl
      (by simp [fresh,blank])) _) (Nat.lt_succ_self _) (Nat.le_succ _) h.saturated h.failures,?_⟩
  · have hreq : ((c.registered { fresh details size with
        errorMessage := details ++ ": " ++ "invalid QSize", finished := true } c.limiter).post
          (.finished c.next)).requests c.next = { fresh details size with
            errorMessage := details ++ ": " ++ "invalid QSize", finished := true } :=
      registered_self c _ c.limiter
    refine ⟨?_,?_,?_,?_,?_⟩ <;> rw [hreq]
    · constructor <;> simp [fresh,blank]
    · rw [if_neg (by simp [Queued])]
      exact h1
    · rw [if_neg (by simp [Withdrawn])]
      exact (List.count_cons_of_ne (by simp)).trans h2
    · rw [if_neg (by simp [Orphaned,fresh])]
      exact (List.count_cons_of_ne (by simp)).trans h3
    · rw [if_pos ⟨rfl,rfl,rfl⟩]
      change List.count _ (_ :: c.posted) = 1
      rw [List.count_cons_self,h4]
  · have hout := outstanding_registered c { fresh details size with
        errorMessage := details ++ ": " ++ "invalid QSize", finished := true } c.limiter
    rw [if_neg (by simp [Owing,fresh,blank]),add_zero] at hout
    change c.limiter.running = outstanding (c.registered _ c.limiter)
    rw [hout]
    exact h.running

theorem create_sent_inv {c : Client} (h : Inv c) (details : String) {size : QSize}
    (hs : size.isValid = true) (hlim : c.limiter.running < c.limiter.concurrency) :
    Inv (c.create details size) := by
  obtain ⟨h1,h2,h3,h4⟩ := next_counts h.toCore
  rw [create_sent c details hs hlim]
  refine ⟨h.touch (registered_elsewhere c _ fun _ _ => rfl) ?_ (registered_linked h.toCore rfl rfl
    (by simp)) (Nat.lt_succ_self _) (Nat.le_succ _) (fun hne => ?_) h.failures,?_⟩
  · refine placed_of_quiet ?_ ?_ h1 ⟨h2,h3,h4⟩ <;> rw [registered_self]
    · constructor <;> simp [fresh,blank]
    · exact InFlight.quiet ⟨rfl,rfl,rfl⟩
  · have hsat := h.saturated hne
    change c.limiter.concurrency ≤ c.limiter.running+1
    omega
  · have hrun := h.running
    rw [outstanding_registered,if_pos ⟨rfl,rfl⟩]
    change c.limiter.running+1 = _
    rw [hrun]
    rfl

/-- The new entry is linked to the new request by a fresh reference. -/
theorem queued_linked {c : Client} (h : Core c) {q : RequestImpl}
    (hq : q.cancelFunc = some (.queued c.limiter.nextRef)) (hfly : ¬ InFlight q) :
    Linked (c.registered q { c.limiter with
      list := ⟨c.limiter.nextRef,some c.next⟩ :: c.limiter.list,
      nextRef := c.limiter.nextRef+1 }) := by
  have hlink := h.linked
  have hblank : (c.requests c.next).cancelFunc = none := by rw [h.fresh c.next le_rfl]; rfl
  have hold : ∀ x, x ≠ c.next → ∀ ref, ((c.registered q { c.limiter with
      list := ⟨c.limiter.nextRef,some c.next⟩ :: c.limiter.list,
      nextRef := c.limiter.nextRef+1 }).requests x).cancelFunc = some (.queued ref) →
        (c.requests x).cancelFunc = some (.queued ref) ∧ ref < c.limiter.nextRef := by
    intro x hx ref hf
    rw [registered_of_ne c q _ hx] at hf
    exact ⟨hf,hlink.func_lt x ref hf⟩
  have hnew : ((c.registered q { c.limiter with
      list := ⟨c.limiter.nextRef,some c.next⟩ :: c.limiter.list,
      nextRef := c.limiter.nextRef+1 }).requests c.next).cancelFunc =
        some (.queued c.limiter.nextRef) := by rw [registered_self,hq]
  refine ⟨?_,?_,?_,?_,?_,?_⟩
  · intro e he
    rcases List.mem_cons.mp he with rfl | he
    · exact Nat.lt_succ_self _
    · exact (hlink.entry_lt e he).trans (Nat.lt_succ_self _)
  · change (c.limiter.nextRef :: c.limiter.list.map Entry.ref).Nodup
    refine List.nodup_cons.mpr ⟨?_,hlink.entry_nodup⟩
    intro hmem
    obtain ⟨e,he,hcon⟩ := List.mem_map.mp hmem
    exact absurd (hlink.entry_lt e he) (by omega)
  · intro x ref hf
    by_cases hx : x = c.next
    · subst hx
      rw [hnew] at hf
      obtain rfl : c.limiter.nextRef = ref := by simpa using hf
      exact Nat.lt_succ_self _
    · exact (hold x hx ref hf).2.trans (Nat.lt_succ_self _)
  · intro x y ref hx hy
    by_cases hxn : x = c.next <;> by_cases hyn : y = c.next
    · rw [hxn,hyn]
    · subst hxn
      rw [hnew] at hx
      obtain rfl : c.limiter.nextRef = ref := by simpa using hx
      exact absurd (hold y hyn _ hy).2 (lt_irrefl _)
    · subst hyn
      rw [hnew] at hy
      obtain rfl : c.limiter.nextRef = ref := by simpa using hy
      exact absurd (hold x hxn _ hx).2 (lt_irrefl _)
    · exact hlink.func_inj x y ref (hold x hxn ref hx).1 (hold y hyn ref hy).1
  · intro e he x hj
    rcases List.mem_cons.mp he with rfl | he
    · obtain rfl : c.next = x := by simpa using hj
      exact hnew
    · have hown := hlink.owner e he x hj
      have hx : x ≠ c.next := by
        rintro rfl
        rw [hblank] at hown
        cases hown
      rwa [registered_of_ne c q _ hx]
  · intro x hx ref hf e he
    by_cases hxn : x = c.next
    · subst hxn
      rw [registered_self] at hx
      exact absurd hx hfly
    · obtain ⟨hf',hlt⟩ := hold x hxn ref hf
      rw [registered_of_ne c q _ hxn] at hx
      rcases List.mem_cons.mp he with rfl | he
      · exact hlt.ne'
      · exact hlink.inFlight x hx ref hf' e he

theorem create_queued_inv {c : Client} (h : Inv c) (details : String) {size : QSize}
    (hs : size.isValid = true) (hlim : ¬ c.limiter.running < c.limiter.concurrency) :
    Inv (c.create details size) := by
  obtain ⟨h1,h2,h3,h4⟩ := next_counts h.toCore
  rw [create_queued c details hs hlim]
  refine ⟨h.touch (registered_elsewhere c _ fun x hx => ?_) ?_ (queued_linked h.toCore rfl
    (by simp [InFlight,fresh,blank])) (Nat.lt_succ_self _) (Nat.le_succ _)
      (fun _ => not_lt.mp hlim) h.failures,?_⟩
  · exact List.count_cons_of_ne (Ne.symm hx)
  · refine ⟨?_,?_,?_,?_,?_⟩ <;> rw [registered_self]
    · constructor <;> simp [fresh,blank]
    · rw [if_pos ⟨rfl,rfl,rfl,rfl⟩]
      change List.count c.next (c.next :: c.limiter.pending) = 1
      rw [List.count_cons_self,h1]
    · exact h2.trans (if_neg (by simp [Withdrawn,fresh,blank])).symm
    · exact h3.trans (if_neg (by simp [Orphaned,fresh])).symm
    · exact h4.trans (if_neg (by simp [Rejected,fresh,blank])).symm
  · rw [outstanding_registered,if_neg (by simp [Owing,fresh,blank]),add_zero]
    exact h.running

theorem create_inv {c : Client} (h : Inv c) (details : String) (size : QSize) :
    Inv (c.create details size) := by
  cases hs : size.isValid with
  | false => exact create_invalid_inv h details hs
  | true =>
    by_cases hlim : c.limiter.running < c.limiter.concurrency
    · exact create_sent_inv h details hs hlim
    · exact create_queued_inv h details hs hlim

/-! ### Steps -/

/-- A watcher that waits belongs to a request in flight. -/
theorem inFlight_of_watcher {q : RequestImpl} (h : Proper q) (hlive : q.live = true)
    (hwatch : q.watcher = .pending) : InFlight q := by
  have hfin : q.finished = false := by
    by_contra hcon
    exact (h.finished hlive (Bool.eq_true_of_not_eq_false hcon)).2.2.1 hwatch
  refine ⟨hlive,hfin,?_⟩
  by_contra hsent
  have hw := (h.unfinished hlive hfin).2.2.2.2.2.2.1
  rw [if_neg hsent,hwatch] at hw
  cases hw

theorem posted_inv {c : Client} (h : Inv c) {p : Posted} (hp : p ∈ c.posted) :
    Inv ({ c with posted := c.posted.erase p }.deliverPosted p) := by
  cases p with
  | dbusCallFinished r => exact fake_inv h hp
  | pumpLimiter r => exact pump_inv h hp
  | finished r => exact announce_inv h hp

/-- Every event keeps the invariant. -/
theorem step_inv (c : Client) (e : Event) (d : Client) (h : Inv c)
    (hstep : library.step c e = some d) : Inv d := by
  cases e with
  | create details size =>
    obtain rfl := Option.some.inj hstep
    exact create_inv h details size
  | cancel r =>
    simp only [library,Option.ite_none_right_eq_some,Option.some.injEq] at hstep
    obtain ⟨hlive,rfl⟩ := hstep
    exact cancel_inv h hlive
  | waitForFinished r reply =>
    simp only [library,Option.ite_none_right_eq_some,Option.some.injEq] at hstep
    obtain ⟨hlive,rfl⟩ := hstep
    exact waitForFinished_inv h hlive reply
  | destroy r =>
    simp only [library,Option.ite_none_right_eq_some,Option.some.injEq] at hstep
    obtain ⟨⟨hlive,hemit⟩,rfl⟩ := hstep
    exact destroy_inv h hlive (Bool.eq_false_iff.mpr hemit)
  | reply r reply =>
    simp only [library,Option.ite_none_right_eq_some,Option.some.injEq] at hstep
    obtain ⟨⟨hlive,hwatch⟩,rfl⟩ := hstep
    exact deliver_inv h (inFlight_of_watcher (h.placed r).proper hlive hwatch) reply
  | posted p =>
    simp only [library,Option.ite_none_right_eq_some,Option.some.injEq] at hstep
    obtain ⟨hp,rfl⟩ := hstep
    exact posted_inv h hp
  | handlerReturned r =>
    simp only [library,Option.ite_none_right_eq_some,Option.some.injEq] at hstep
    obtain ⟨hemit,rfl⟩ := hstep
    exact handlerReturned_inv h hemit

end Client
end UnityThumbnailer
