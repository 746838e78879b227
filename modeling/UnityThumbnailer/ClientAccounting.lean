import UnityThumbnailer.ClientSteps

/-! What the invariant means for the limiter of the client library, and for the
requests that wait in it. -/
namespace UnityThumbnailer
namespace Client

open EventSystem RateLimiter Tally

/-- The accounting of the limiter's slots. -/
structure Accounted (c : Client) : Prop where
  sentOnce : ∀ r, (c.requests r).sent ≤ 1
  /-- `done()` is called at most once for a request, and only if it was sent. -/
  accountedOnce : ∀ r, (c.requests r).accounted ≤ (c.requests r).sent
  /-- Every sent request was accounted, or it still will be. -/
  released : ∀ r, (c.requests r).sent = 1 → (c.requests r).accounted = 1 ∨
    ((c.requests r).live = true ∧ (c.requests r).watcher = .pending) ∨
      .pumpLimiter r ∈ c.posted
  running : c.limiter.running = outstanding c
  /-- No assertion has failed so far. -/
  assertions : c.failures = []
  emittedOnce : ∀ r, (c.requests r).emitted ≤ 1

/-- A sent request that is not accounted is in flight or has a pump posted for it. -/
theorem Core.owing_cases {c : Client} (h : Core c) {r : RequestId} (hr : Owing (c.requests r)) :
    (InFlight (c.requests r) ∧ (c.requests r).watcher = .pending) ∨ .pumpLimiter r ∈ c.posted := by
  have hproper := (h.placed r).proper
  cases hlive : (c.requests r).live with
  | false =>
    right
    apply Posted.mem_iff.mpr
    rw [(h.placed r).pump,if_pos ⟨hlive,hr⟩]
    exact one_pos
  | true =>
    have hfin : (c.requests r).finished = false := by
      by_contra hcon
      have hacc := (hproper.finished hlive (Bool.eq_true_of_not_eq_false hcon)).1
      have h1 := hr.1
      have h2 := hr.2
      omega
    have hfly : InFlight (c.requests r) := ⟨hlive,hfin,hr.1⟩
    obtain ⟨_,_,_,_,_,_,hwatch,_⟩ := hproper.unfinished hlive hfin
    exact Or.inl ⟨hfly,hwatch.trans (if_pos hr.1)⟩

theorem Inv.accounted {c : Client} (h : Inv c) : Accounted c where
  sentOnce := fun r => (h.placed r).proper.sent
  accountedOnce := fun r => (h.placed r).proper.accounted
  released := by
    intro r hsent
    have hle := (h.placed r).proper.accounted
    by_cases hacc : (c.requests r).accounted = 0
    · rcases h.owing_cases ⟨hsent,hacc⟩ with ⟨hfly,hwatch⟩ | hpump
      · exact Or.inr (Or.inl ⟨hfly.1,hwatch⟩)
      · exact Or.inr (Or.inr hpump)
    · exact Or.inl (by omega)
  running := h.running
  assertions := h.failures
  emittedOnce := fun r => (h.placed r).proper.emitted

/-- In every run of the client library each slot of the limiter is accounted exactly
once, no assertion fails and no request emits `finished` twice. -/
theorem limiterAccounting (maxBacklog : ℤ) (h : 0 < maxBacklog) (es : List Event) :
    library.Always Accounted (new maxBacklog h) es :=
  Machine.always_of_invariant step_inv (fun _ hc => hc.accounted) es (new_inv maxBacklog h)

/-- One slot, and a second request that is cancelled in the queue. -/
theorem limiterAccounting_one :
    0 < (1 : ℤ) ∧ library.Always Accounted (new 1 (by decide))
      [.create "getThumbnail" ⟨64,64⟩,.create "getThumbnail" ⟨64,64⟩,.cancel 1,.destroy 0,
        .posted (.pumpLimiter 0),.posted (.dbusCallFinished 1)] :=
  ⟨by decide,limiterAccounting 1 (by decide) _⟩

/-! ### No request is lost -/

/-- An entry of the limiter still has the job of the request. -/
def WaitsInLimiter (c : Client) (r : RequestId) : Prop :=
  ∃ e ∈ c.limiter.list, e.job = some r

/-- The request was sent, and its watcher waits for the reply. -/
def WaitsForReply (c : Client) (r : RequestId) : Prop :=
  (c.requests r).live = true ∧ (c.requests r).sent = 1 ∧ (c.requests r).watcher = .pending

/-- The request was cancelled in the queue, and the fake call is posted to it. -/
def WaitsForFake (c : Client) (r : RequestId) : Prop :=
  (c.requests r).cancelledWhileWaiting = true ∧ .dbusCallFinished r ∈ c.posted

def ExactlyOne (p q r : Prop) : Prop := (p ∧ ¬ q ∧ ¬ r) ∨ (¬ p ∧ q ∧ ¬ r) ∨ (¬ p ∧ ¬ q ∧ r)

/-- The event loop delivers the reply to a sent request, or a posted pump. -/
def Delivers : Event → Prop
  | .reply _ _ => True
  | .posted (.pumpLimiter _) => True
  | _ => False

/-- A request that is neither finished nor destroyed will be heard of. -/
structure NothingLost (c : Client) : Prop where
  located : ∀ r, (c.requests r).live = true → (c.requests r).finished = false →
    ExactlyOne (WaitsInLimiter c r) (WaitsForReply c r) (WaitsForFake c r)
  wakeUp : ∀ r, WaitsInLimiter c r → ∃ s, WaitsForReply c s ∨ .pumpLimiter s ∈ c.posted
  startable : ∀ r, WaitsInLimiter c r → ∃ es d, (∀ e ∈ es, Delivers e) ∧
    library.run c es = some d ∧ WaitsForReply d r

theorem waitsInLimiter_iff {c : Client} (h : Core c) {r : RequestId} :
    WaitsInLimiter c r ↔ Queued (c.requests r) := by
  constructor
  · rintro ⟨e,he,hj⟩
    exact h.queued_of_pending (List.mem_filterMap.mpr ⟨e,he,hj⟩)
  · intro hq
    exact List.mem_filterMap.mp (h.pending_of_queued hq)

theorem waitsForReply_iff {c : Client} (h : Core c) {r : RequestId} :
    WaitsForReply c r ↔ InFlight (c.requests r) := by
  constructor
  · intro hr
    exact inFlight_of_watcher (h.placed r).proper hr.1 hr.2.2
  · intro hr
    obtain ⟨_,_,_,_,_,_,hwatch,_⟩ := (h.placed r).proper.unfinished hr.1 hr.2.1
    exact ⟨hr.1,hr.2.2,hwatch.trans (if_pos hr.2.2)⟩

theorem waitsForFake_iff {c : Client} (h : Core c) {r : RequestId} :
    WaitsForFake c r ↔ Withdrawn (c.requests r) := by
  constructor
  · intro hr
    exact (withdrawn_of_mem h hr.2).1
  · intro hr
    obtain ⟨_,_,_,_,_,_,_,hcww⟩ := (h.placed r).proper.unfinished hr.1 hr.2.1
    refine ⟨hcww.trans (by simp [hr.2.2.1,hr.2.2.2]),?_⟩
    apply Posted.mem_iff.mpr
    rw [(h.placed r).fake,if_pos hr]
    exact one_pos

theorem Inv.located {c : Client} (h : Inv c) {r : RequestId} (hlive : (c.requests r).live = true)
    (hfin : (c.requests r).finished = false) :
    ExactlyOne (WaitsInLimiter c r) (WaitsForReply c r) (WaitsForFake c r) := by
  rw [waitsInLimiter_iff h.toCore,waitsForReply_iff h.toCore,waitsForFake_iff h.toCore]
  have hsent := (h.placed r).proper.sent
  by_cases h0 : (c.requests r).sent = 0
  · cases hcan : (c.requests r).cancelled <;>
      simp [ExactlyOne,Queued,InFlight,Withdrawn,hlive,hfin,hcan,h0]
  · have h1 : (c.requests r).sent = 1 := by omega
    simp [ExactlyOne,Queued,InFlight,Withdrawn,hlive,hfin,h1]

/-- While a request waits for its turn, some sent request has not been accounted. -/
theorem Inv.owing_of_pending {c : Client} (h : Inv c) (hne : c.limiter.pending ≠ []) :
    ∃ s, Owing (c.requests s) := by
  have hsat := h.saturated hne
  have hconc := c.limiter.concurrency_pos
  have hrun := h.running
  have hpos : 0 < outstanding c := by omega
  obtain ⟨s,_,hs⟩ := tally_pos_iff.mp hpos
  exact ⟨s,hs⟩

theorem Inv.wakeUp {c : Client} (h : Inv c) {r : RequestId} (hr : WaitsInLimiter c r) :
    ∃ s, WaitsForReply c s ∨ .pumpLimiter s ∈ c.posted := by
  have hmem := h.pending_of_queued ((waitsInLimiter_iff h.toCore).mp hr)
  obtain ⟨s,hs⟩ := h.owing_of_pending (List.ne_nil_of_mem hmem)
  rcases h.owing_cases hs with ⟨hfly,hwatch⟩ | hpump
  · exact ⟨s,Or.inl ⟨hfly.1,hfly.2.2,hwatch⟩⟩
  · exact ⟨s,Or.inr hpump⟩

theorem advance_pending (c : Client) : (advance c).limiter.pending = c.limiter.pending.tail :=
  done_pending c.limiter

/-- Some outstanding delivery takes the next request out of the queue and sends it. -/
theorem Inv.delivery {c : Client} (h : Inv c) {s : RequestId} {rest : List RequestId}
    (hp : c.limiter.pending = s::rest) :
    ∃ e d, Delivers e ∧ library.step c e = some d ∧ d.limiter.pending = rest ∧
      WaitsForReply d s := by
  have hq := h.queued_of_pending (r:=s) (by rw [hp]; exact List.mem_cons_self)
  have hstarted : ∀ {b d : Client}, d = advance b → b.limiter.pending = s::rest →
      b.requests s = c.requests s → d.limiter.pending = rest ∧ WaitsForReply d s := by
    rintro b _ rfl hb hreq
    refine ⟨by rw [advance_pending,hb,List.tail_cons],?_⟩
    have hs := advance_some hb
    rw [WaitsForReply,hs,Function.update_self,hreq]
    exact ⟨hq.1,by simp [hq.2.2.2],rfl⟩
  obtain ⟨u,hu⟩ := h.owing_of_pending (by rw [hp]; exact List.cons_ne_nil _ _)
  have hsu : s ≠ u := by
    rintro rfl
    exact hq.not_owing hu
  have hlive : ∀ x ∈ c.limiter.pending, (c.requests x).live = true :=
    fun x hx => (h.queued_of_pending hx).1
  have hpos := h.running_pos hu
  rcases h.owing_cases hu with ⟨hfly,hwatch⟩ | hpump
  · refine ⟨.reply u (.error ""),_,trivial,if_pos ⟨hfly.1,hwatch⟩,?_⟩
    have hnot : u ∉ c.limiter.pending :=
      fun hmem => not_queued_of_inFlight hfly (h.queued_of_pending hmem)
    obtain ⟨_,_,_,_,_,_,_,hcww⟩ := (h.placed u).proper.unfinished hfly.1 hfly.2.1
    exact hstarted (deliver_eq _ hpos hlive hnot hfly.2.1 (hcww.trans (by simp [hfly.2.2]))) hp
      (modify_of_ne _ _ hsu)
  · refine ⟨.posted (.pumpLimiter u),_,trivial,if_pos hpump,?_⟩
    exact hstarted (done_advance (c:=c.taken (.pumpLimiter u)) u hpos hlive) hp
      (modify_of_ne (c.taken (.pumpLimiter u)) _ hsu)

/-- Delivering what is outstanding starts every queued request in the end; the induction
is on the number of requests before it in the queue. -/
theorem Inv.startable {c : Client} (h : Inv c) {r : RequestId} (hr : WaitsInLimiter c r) :
    ∃ es d, (∀ e ∈ es, Delivers e) ∧ library.run c es = some d ∧ WaitsForReply d r := by
  have hmem := h.pending_of_queued ((waitsInLimiter_iff h.toCore).mp hr)
  obtain ⟨before,after,hp⟩ := List.append_of_mem hmem
  clear hr hmem
  induction before generalizing c with
  | nil =>
    obtain ⟨e,d,he,hstep,_,hd⟩ := h.delivery hp
    exact ⟨[e],d,by simpa using he,by simp [hstep],hd⟩
  | cons s before ih =>
    obtain ⟨e,d,he,hstep,hrest,_⟩ := h.delivery hp
    obtain ⟨es,d',hes,hrun,hd'⟩ := ih (step_inv c e d h hstep) hrest
    exact ⟨e::es,d',List.forall_mem_cons.mpr ⟨he,hes⟩,by simp [hstep,hrun],hd'⟩

/-- In every run, an unfinished request waits in the limiter, for its reply or for its
fake call, and what is outstanding can always start a request that waits in the limiter. -/
theorem noRequestLost (maxBacklog : ℤ) (h : 0 < maxBacklog) (es : List Event) :
    library.Always NothingLost (new maxBacklog h) es :=
  Machine.always_of_invariant step_inv
    (fun _ hc => ⟨fun _ => hc.located,fun _ => hc.wakeUp,fun _ => hc.startable⟩) es
    (new_inv maxBacklog h)

/-- Three requests for one slot, of which the first is destroyed in flight. -/
theorem noRequestLost_one :
    0 < (1 : ℤ) ∧ library.Always NothingLost (new 1 (by decide))
      [.create "getAlbumArt" ⟨64,64⟩,.create "getAlbumArt" ⟨64,64⟩,.create "getAlbumArt" ⟨64,64⟩,
        .destroy 0,.waitForFinished 1 (.data none)] :=
  ⟨by decide,noRequestLost 1 (by decide) _⟩

end Client
end UnityThumbnailer
