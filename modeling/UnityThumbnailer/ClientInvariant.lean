import UnityThumbnailer.Client
import UnityThumbnailer.Tally

/-! What holds between the events of the client library. Every request is in one phase
of its life, and the phase alone says where the limiter and the event loop know it. -/
namespace UnityThumbnailer
namespace Client

open EventSystem RateLimiter Tally

/-! ### Phases of a request -/

/-- Waiting for its turn in the queue of the limiter. -/
def Queued (q : RequestImpl) : Prop :=
  q.live = true ∧ q.finished = false ∧ q.cancelled = false ∧ q.sent = 0

/-- Cancelled before it was sent. -/
def Withdrawn (q : RequestImpl) : Prop :=
  q.live = true ∧ q.finished = false ∧ q.cancelled = true ∧ q.sent = 0

def InFlight (q : RequestImpl) : Prop := q.live = true ∧ q.finished = false ∧ q.sent = 1

/-- Destroyed before the reply came in. -/
def Orphaned (q : RequestImpl) : Prop := q.live = false ∧ q.sent = 1 ∧ q.accounted = 0

/-- Finished by the constructor, which the application does not know yet. -/
def Rejected (q : RequestImpl) : Prop := q.live = true ∧ q.finished = true ∧ q.emitted = 0

/-- Sent, but not accounted by `done()`. -/
def Owing (q : RequestImpl) : Prop := q.sent = 1 ∧ q.accounted = 0

instance (q : RequestImpl) : Decidable (Queued q) := inferInstanceAs (Decidable (_ ∧ _))
instance (q : RequestImpl) : Decidable (Withdrawn q) := inferInstanceAs (Decidable (_ ∧ _))
instance (q : RequestImpl) : Decidable (InFlight q) := inferInstanceAs (Decidable (_ ∧ _))
instance (q : RequestImpl) : Decidable (Orphaned q) := inferInstanceAs (Decidable (_ ∧ _))
instance (q : RequestImpl) : Decidable (Rejected q) := inferInstanceAs (Decidable (_ ∧ _))
instance (q : RequestImpl) : Decidable (Owing q) := inferInstanceAs (Decidable (_ ∧ _))

/-- The fields of a request are consistent with each other. -/
structure Proper (q : RequestImpl) : Prop where
  sent : q.sent ≤ 1
  accounted : q.accounted ≤ q.sent
  emitted : q.emitted ≤ 1
  /-- Nothing has happened to an unfinished request but its sending or cancellation. -/
  unfinished : q.live = true → q.finished = false →
    q.accounted = 0 ∧ q.emitted = 0 ∧ q.emitting = false ∧ q.cancelFunc ≠ none ∧
      q.isValid = false ∧ q.image = none ∧
      q.watcher = (if q.sent = 1 then .pending else .none) ∧
      q.cancelledWhileWaiting = (q.cancelled && q.sent = 0)
  finished : q.live = true → q.finished = true →
    q.accounted = q.sent ∧ (q.watcher = .none ∨ q.emitting = true) ∧ q.watcher ≠ .pending ∧
      (q.emitted = 0 → q.sent = 0 ∧ q.emitting = false)
  /-- A cancelled request finishes with this error and without an image. -/
  cancelled : q.finished = true → q.cancelled = true →
    q.isValid = false ∧ q.image = none ∧ q.errorMessage = "Request cancelled"
  emitting : q.emitting = true → q.live = true ∧ q.finished = true
  dead : q.live = false → q.watcher = .none

/-- The limiter and the event loop know the request as its phase says. -/
structure Placed (c : Client) (r : RequestId) : Prop where
  proper : Proper (c.requests r)
  queue : c.limiter.pending.count r = if Queued (c.requests r) then 1 else 0
  fake : c.posted.count (.dbusCallFinished r) = if Withdrawn (c.requests r) then 1 else 0
  pump : c.posted.count (.pumpLimiter r) = if Orphaned (c.requests r) then 1 else 0
  announce : c.posted.count (.finished r) = if Rejected (c.requests r) then 1 else 0

/-- A cancel function points to the entry of its own request, as long as there is one. -/
structure Linked (c : Client) : Prop where
  entry_lt : ∀ e ∈ c.limiter.list, e.ref < c.limiter.nextRef
  entry_nodup : (c.limiter.list.map Entry.ref).Nodup
  func_lt : ∀ r ref, (c.requests r).cancelFunc = some (.queued ref) → ref < c.limiter.nextRef
  func_inj : ∀ r s ref, (c.requests r).cancelFunc = some (.queued ref) →
    (c.requests s).cancelFunc = some (.queued ref) → r = s
  owner : ∀ e ∈ c.limiter.list, ∀ r, e.job = some r →
    (c.requests r).cancelFunc = some (.queued e.ref)
  inFlight : ∀ r, InFlight (c.requests r) → ∀ ref,
    (c.requests r).cancelFunc = some (.queued ref) → ∀ e ∈ c.limiter.list, e.ref ≠ ref

/-- The number of requests that were sent and not accounted by `done()`. -/
def outstanding (c : Client) : ℕ := tally (fun r => Owing (c.requests r)) c.next

/-- The invariant without the balance of the limiter's counter. -/
structure Core (c : Client) : Prop where
  placed : ∀ r, Placed c r
  linked : Linked c
  fresh : ∀ r, c.next ≤ r → c.requests r = blank
  saturated : c.limiter.pending ≠ [] → c.limiter.concurrency ≤ c.limiter.running
  failures : c.failures = []

structure Inv (c : Client) : Prop extends Core c where
  running : c.limiter.running = outstanding c

theorem blank_proper : Proper blank := by
  constructor <;> simp [blank]

theorem new_inv (maxBacklog : ℤ) (h : 0 < maxBacklog) : Inv (new maxBacklog h) where
  placed := fun r => ⟨blank_proper,rfl,rfl,rfl,rfl⟩
  linked := by constructor <;> simp [new,blank]
  fresh := fun _ _ => rfl
  running := by
    have hnone : outstanding (new maxBacklog h) = 0 := rfl
    rw [hnone]
    rfl
  saturated := fun hne => absurd rfl hne
  failures := rfl

/-! ### Frames -/

/-- A request is placed as before when nothing that concerns it has changed. -/
theorem Placed.frame {c d : Client} {r : RequestId} (h : Placed c r)
    (hreq : d.requests r = c.requests r)
    (hqueue : d.limiter.pending.count r = c.limiter.pending.count r)
    (hposted : ∀ p, p = .dbusCallFinished r ∨ p = .pumpLimiter r ∨ p = .finished r →
      d.posted.count p = c.posted.count p) : Placed d r where
  proper := hreq ▸ h.proper
  queue := by rw [hqueue,hreq,h.queue]
  fake := by rw [hposted _ (Or.inl rfl),hreq,h.fake]
  pump := by rw [hposted _ (Or.inr (Or.inl rfl)),hreq,h.pump]
  announce := by rw [hposted _ (Or.inr (Or.inr rfl)),hreq,h.announce]

theorem Core.lt_next {c : Client} (h : Core c) {r : RequestId} (hr : c.requests r ≠ blank) :
    r < c.next := by
  by_contra hcon
  exact hr (h.fresh r (not_lt.mp hcon))

theorem Core.live_lt {c : Client} (h : Core c) {r : RequestId}
    (hr : (c.requests r).live = true) : r < c.next := by
  apply h.lt_next
  intro hblank
  rw [hblank] at hr
  cases hr

theorem Core.owing_lt {c : Client} (h : Core c) {r : RequestId}
    (hr : Owing (c.requests r)) : r < c.next := by
  apply h.lt_next
  intro hblank
  rw [hblank] at hr
  cases hr.1

theorem Inv.running_pos {c : Client} (h : Inv c) {r : RequestId} (hr : Owing (c.requests r)) :
    0 < c.limiter.running := by
  have hpos : 0 < outstanding c := tally_pos_iff.mpr ⟨r,h.owing_lt hr,hr⟩
  rw [h.running]
  exact_mod_cast hpos

theorem Core.inFlight_owing {c : Client} (h : Core c) {r : RequestId}
    (hr : InFlight (c.requests r)) : Owing (c.requests r) :=
  ⟨hr.2.2,((h.placed r).proper.unfinished hr.1 hr.2.1).1⟩

/-- The next job in the queue belongs to a queued request. -/
theorem Core.queued_of_pending {c : Client} (h : Core c) {r : RequestId}
    (hr : r ∈ c.limiter.pending) : Queued (c.requests r) := by
  have hpos := List.count_pos_iff.mpr hr
  rw [(h.placed r).queue] at hpos
  by_contra hcon
  simp [hcon] at hpos

theorem Core.pending_of_queued {c : Client} (h : Core c) {r : RequestId}
    (hr : Queued (c.requests r)) : r ∈ c.limiter.pending := by
  apply List.count_pos_iff.mp
  rw [(h.placed r).queue,if_pos hr]
  exact one_pos

theorem not_queued_of_inFlight {q : RequestImpl} (h : InFlight q) : ¬ Queued q := by
  intro hq
  have h1 := h.2.2
  rw [hq.2.2.2] at h1
  cases h1

theorem Queued.not_owing {q : RequestImpl} (h : Queued q) : ¬ Owing q := by
  intro ho
  have h1 := ho.1
  rw [h.2.2.2] at h1
  cases h1

/-! ### Giving a slot to the next request -/

/-- Send the request whose job `done()` called. -/
def started (requests : RequestId → RequestImpl) : Option RequestId → RequestId → RequestImpl
  | some s => Function.update requests s
      { requests s with watcher := .pending, sent := (requests s).sent+1 }
  | none => requests

/-- A slot that was accounted goes to the next request in the queue. -/
def advance (c : Client) : Client :=
  { c with limiter := c.limiter.done.1, requests := started c.requests c.limiter.done.2 }

/-- A queued request is in flight once it is sent. -/
theorem Proper.sent_queued {q : RequestImpl} (h : Proper q) (hq : Queued q) :
    Proper { q with watcher := .pending, sent := q.sent+1 } := by
  obtain ⟨hlive,hfin,hcan,hsent⟩ := hq
  obtain ⟨h1,h2,h3,h4,h5,h6,_,h8⟩ := h.unfinished hlive hfin
  constructor <;> simp_all

theorem sent_inFlight {q : RequestImpl} (hq : Queued q) :
    InFlight { q with watcher := .pending, sent := q.sent+1 } :=
  ⟨hq.1,hq.2.1,by simp [hq.2.2.2]⟩

theorem Placed.sent {c d : Client} {s : RequestId} (h : Placed c s) (hq : Queued (c.requests s))
    (hreq : d.requests s =
      { c.requests s with watcher := .pending, sent := (c.requests s).sent+1 })
    (hqueue : d.limiter.pending.count s + 1 = c.limiter.pending.count s)
    (hposted : d.posted = c.posted) : Placed d s := by
  have hfly := sent_inFlight hq
  have hfake := h.fake
  have hpump := h.pump
  have hannounce := h.announce
  have hcount := h.queue
  rw [if_pos hq] at hcount
  obtain ⟨hlive,hfin,hcan,hsent⟩ := hq
  refine ⟨hreq ▸ h.proper.sent_queued ⟨hlive,hfin,hcan,hsent⟩,?_,?_,?_,?_⟩
  · rw [hreq,if_neg (not_queued_of_inFlight hfly)]
    omega
  · rw [hposted,hfake,hreq]
    simp [Withdrawn,hcan]
  · rw [hposted,hpump,hreq]
    simp [Orphaned,hlive]
  · rw [hposted,hannounce,hreq]
    simp [Rejected,hfin]

theorem advance_none {c : Client} (h : c.limiter.pending = []) :
    (advance c).requests = c.requests := by
  have hnext := done_next c.limiter
  rw [h] at hnext
  simp [advance,hnext,started]

theorem advance_some {c : Client} {s : RequestId} {rest : List RequestId}
    (h : c.limiter.pending = s::rest) :
    (advance c).requests = Function.update c.requests s
      { c.requests s with watcher := .pending, sent := (c.requests s).sent+1 } := by
  have hnext := done_next c.limiter
  rw [h] at hnext
  simp [advance,hnext,started]

/-- The entry of the job that is started has left the list for good. -/
theorem advance_linked {c : Client} (h : Core c) : Linked (advance c) := by
  have hsub := done_suffix c.limiter
  have hmem : ∀ e ∈ (advance c).limiter.list, e ∈ c.limiter.list := fun e he => hsub.mem he
  have hfunc : ∀ r, ((advance c).requests r).cancelFunc = (c.requests r).cancelFunc := by
    intro r
    cases hp : c.limiter.pending with
    | nil => rw [advance_none hp]
    | cons s rest =>
      rw [advance_some hp]
      by_cases hr : r = s
      · subst hr
        simp
      · simp [hr]
  have hnodup := h.linked.entry_nodup
  refine ⟨?_,(hsub.sublist.map Entry.ref).nodup hnodup,?_,?_,?_,?_⟩
  · intro e he
    simpa [advance] using h.linked.entry_lt e (hmem e he)
  · intro r ref hr
    rw [hfunc] at hr
    simpa [advance] using h.linked.func_lt r ref hr
  · intro r s ref hr hs
    rw [hfunc] at hr hs
    exact h.linked.func_inj r s ref hr hs
  · intro e he r hj
    rw [hfunc]
    exact h.linked.owner e (hmem e he) r hj
  · intro r hr ref hf e he
    rw [hfunc] at hf
    cases hp : c.limiter.pending with
    | nil =>
      rw [advance_none hp] at hr
      exact h.linked.inFlight r hr ref hf e (hmem e he)
    | cons s rest =>
      rw [advance_some hp] at hr
      by_cases hrs : r = s
      · subst hrs
        have hnext : (popJob c.limiter.list).2 = some r := by
          have := (popJob_eq c.limiter.list).1
          change _ = c.limiter.pending.head? at this
          rw [this,hp]
          rfl
        obtain ⟨k,hk⟩ := popJob_some hnext
        have hown := h.linked.owner _ (hk.mem List.mem_cons_self) r rfl
        obtain rfl : ref = k := by
          rw [hf] at hown
          simpa using hown
        have hnot := (hk.sublist.map Entry.ref).nodup hnodup
        rw [List.map_cons,List.nodup_cons] at hnot
        intro hcon
        apply hnot.1
        have he' : e ∈ (popJob c.limiter.list).1 := by
          simpa [advance,done_eq] using he
        exact List.mem_map.mpr ⟨e,he',hcon⟩
      · rw [Function.update_of_ne hrs] at hr
        exact h.linked.inFlight r hr ref hf e (hmem e he)

/-- With one slot accounted but not given back, `done()` restores the balance. -/
theorem advance_inv {c : Client} (h : Core c)
    (hrun : c.limiter.running = outstanding c + 1) : Inv (advance c) := by
  have hpend : (advance c).limiter.pending = c.limiter.pending.tail := done_pending c.limiter
  have hrunning : (advance c).limiter.running =
      if c.limiter.pending = [] then c.limiter.running-1 else c.limiter.running :=
    done_running c.limiter
  have hconc : (advance c).limiter.concurrency = c.limiter.concurrency :=
    done_concurrency c.limiter
  have hlinked := advance_linked h
  cases hp : c.limiter.pending with
  | nil =>
    have hreq := advance_none hp
    have hout : outstanding (advance c) = outstanding c := by
      simp only [outstanding,hreq]
      rfl
    refine ⟨⟨fun r => ?_,hlinked,?_,?_,h.failures⟩,?_⟩
    · exact (h.placed r).frame (by rw [hreq]) (by rw [hpend,hp]; rfl) fun _ _ => rfl
    · rw [hreq]
      exact h.fresh
    · intro hne
      rw [hpend,hp] at hne
      exact absurd rfl hne
    · rw [hrunning,hp,if_pos rfl,hout]
      omega
  | cons s rest =>
    have hreq := advance_some hp
    have hq : Queued (c.requests s) := h.queued_of_pending (by rw [hp]; exact List.mem_cons_self)
    have hlt : s < c.next := h.live_lt hq.1
    have hcount : ∀ x, c.limiter.pending.count x =
        (advance c).limiter.pending.count x + if s = x then 1 else 0 := by
      intro x
      rw [hpend,hp,List.tail_cons,List.count_cons]
      simp [beq_iff_eq]
    have hout : outstanding (advance c) = outstanding c + 1 := by
      apply tally_gain hlt hq.not_owing
      · have hq' := sent_inFlight hq
        have hacc := ((h.placed s).proper.unfinished hq.1 hq.2.1).1
        rw [hreq,Function.update_self]
        exact ⟨hq'.2.2,hacc⟩
      · intro j hj
        rw [hreq,Function.update_of_ne hj]
    refine ⟨⟨fun r => ?_,hlinked,?_,?_,h.failures⟩,?_⟩
    · by_cases hr : r = s
      · subst hr
        refine (h.placed r).sent hq (by rw [hreq,Function.update_self]) ?_ rfl
        rw [hcount r,if_pos rfl]
      · refine (h.placed r).frame (by rw [hreq,Function.update_of_ne hr]) ?_ fun _ _ => rfl
        rw [hcount r,if_neg (Ne.symm hr)]
        rfl
    · intro r hr
      have hne : r ≠ s := by
        rintro rfl
        exact absurd hlt (not_lt.mpr hr)
      rw [hreq,Function.update_of_ne hne]
      exact h.fresh r hr
    · intro _
      rw [hconc,hrunning,hp,if_neg (List.cons_ne_nil _ _)]
      exact h.saturated (by rw [hp]; exact List.cons_ne_nil _ _)
    · rw [hrunning,hp,if_neg (List.cons_ne_nil _ _),hout]
      omega

/-! ### Closed forms of the operations -/

theorem check_of {c : Client} {p : Prop} [Decidable p] (h : p) (a : Assertion) :
    c.check p a = c := if_pos h

@[simp] theorem modify_self (c : Client) (r : RequestId) (f : RequestImpl → RequestImpl) :
    (c.modify r f).requests r = f (c.requests r) := Function.update_self ..

theorem modify_of_ne (c : Client) {r x : RequestId} (f : RequestImpl → RequestImpl) (h : x ≠ r) :
    (c.modify r f).requests x = c.requests x := Function.update_of_ne h ..

theorem modify_modify (c : Client) (r : RequestId) (f g : RequestImpl → RequestImpl) :
    (c.modify r f).modify r g = c.modify r fun q => g (f q) := by
  simp [modify]

/-- `done()` never starts the job of a request that is gone. -/
theorem done_advance {c : Client} (r : RequestId) (hpos : 0 < c.limiter.running)
    (hlive : ∀ s ∈ c.limiter.pending, (c.requests s).live = true) :
    c.done r = advance (c.modify r fun q => { q with accounted := q.accounted+1 }) := by
  have hnext := done_next c.limiter
  unfold done
  rw [check_of hpos]
  cases hp : c.limiter.pending with
  | nil =>
    rw [hp] at hnext
    simp only [modify,advance,hnext,List.head?_nil,call,started]
  | cons s rest =>
    rw [hp] at hnext
    have hs : (c.requests s).live = true := hlive s (by rw [hp]; exact List.mem_cons_self)
    have hs' : (Function.update c.requests r { c.requests r with
        accounted := (c.requests r).accounted+1 } s).live = true := by
      by_cases hrs : s = r
      · subst hrs
        simpa using hs
      · rwa [Function.update_of_ne hrs]
    simp only [modify,advance,hnext,List.head?_cons,call,started,send,check,hs',if_true]

/-- What happens to a request that is not next in the queue commutes with the start. -/
theorem advance_modify {c : Client} {r : RequestId} (f : RequestImpl → RequestImpl)
    (hr : r ∉ c.limiter.pending) : (advance c).modify r f = advance (c.modify r f) := by
  have hnext := done_next c.limiter
  cases hp : c.limiter.pending with
  | nil =>
    rw [hp] at hnext
    simp [modify,advance,hnext,started]
  | cons s rest =>
    rw [hp] at hnext
    have hrs : r ≠ s := by
      rintro rfl
      exact hr (by rw [hp]; exact List.mem_cons_self)
    simp only [modify,advance,hnext,List.head?_cons,started,Function.update_of_ne hrs,
      Function.update_of_ne hrs.symm]
    rw [Function.update_comm hrs]

theorem advance_requests_of_not_mem {c : Client} {r : RequestId} (hr : r ∉ c.limiter.pending) :
    (advance c).requests r = c.requests r := by
  cases hp : c.limiter.pending with
  | nil => rw [advance_none hp]
  | cons s rest =>
    have hrs : r ≠ s := by
      rintro rfl
      exact hr (by rw [hp]; exact List.mem_cons_self)
    rw [advance_some hp,Function.update_of_ne hrs]

/-- The request after an error, real or faked. -/
def failed (q : RequestImpl) (errorMessage : String) : RequestImpl :=
  { q with
    errorMessage := errorMessage, finished := true, isValid := false, image := none,
    watcher := .none, emitting := true, emitted := q.emitted+1 }

/-- The request after a reply with data. -/
def succeeded (q : RequestImpl) (bytes : Option ImageFile) : RequestImpl :=
  { q with
    image := bytes, finished := true, isValid := true, errorMessage := "", emitting := true,
    emitted := q.emitted+1 }

/-- The outcome of a reply for the request. -/
def concluded (reply : Reply) (q : RequestImpl) : RequestImpl :=
  if q.cancelled then failed q "Request cancelled"
  else
    match reply with
    | .data bytes => succeeded q bytes
    | .error message =>
      failed q ("Thumbnailer: RequestImpl::dbusCallFinished(): D-Bus error: " ++ message)

/-- The request after its reply. -/
def settled (reply : Reply) (q : RequestImpl) : RequestImpl :=
  concluded reply { q with watcher := .replied, accounted := q.accounted+1 }

theorem finishWithError_eq (c : Client) (r : RequestId) (errorMessage : String) :
    c.finishWithError r errorMessage = c.modify r (failed · errorMessage) := by
  simp only [finishWithError,emitFinished,modify_modify]
  rfl

theorem finishWithError_check (c : Client) (r : RequestId) (errorMessage : String) :
    (c.finishWithError r errorMessage).check
        (((c.finishWithError r errorMessage).requests r).watcher = .none) .watcherGone =
      c.modify r (failed · errorMessage) := by
  rw [finishWithError_eq]
  exact check_of (by rw [modify_self]; rfl) _

/-- A real reply to an unfinished request calls `done()` first. -/
theorem dbusCallFinished_reply {c : Client} {r : RequestId} (reply : Reply)
    (hfin : (c.requests r).finished = false)
    (hsent : (c.requests r).cancelledWhileWaiting = false)
    (hwatcher : ((c.done r).requests r).watcher ≠ .none)
    (hcan : ((c.done r).requests r).cancelled = (c.requests r).cancelled) :
    c.dbusCallFinished r (some reply) = (c.done r).modify r (concluded reply) := by
  have hcheck : c.check ((c.requests r).finished = false) .notFinished = c := check_of hfin _
  have hthere : (c.done r).check (((c.done r).requests r).watcher ≠ .none) .watcherThere =
    c.done r := check_of hwatcher _
  unfold dbusCallFinished
  simp only [hcheck,hsent,Bool.not_false,Bool.or_true,if_true,finishWithError_check,hthere,← hcan]
  cases h : ((c.done r).requests r).cancelled with
  | true => simp only [if_true,modify,concluded,h]
  | false =>
    cases reply with
    | data bytes =>
      simp only [Bool.false_eq_true,if_false,emitFinished,modify_modify]
      simp only [modify,concluded,h,Bool.false_eq_true,if_false,succeeded]
    | error message =>
      simp only [Bool.false_eq_true,if_false,finishWithError_eq]
      simp only [modify,concluded,h,Bool.false_eq_true,if_false]

/-- The fake call finishes a request that was cancelled in the queue. -/
theorem dbusCallFinished_fake {c : Client} {r : RequestId}
    (hfin : (c.requests r).finished = false) (hcan : (c.requests r).cancelled = true)
    (hwait : (c.requests r).cancelledWhileWaiting = true) (reply : Option Reply) :
    c.dbusCallFinished r reply = c.modify r (failed · "Request cancelled") := by
  have hcheck : c.check ((c.requests r).finished = false) .notFinished = c := check_of hfin _
  unfold dbusCallFinished
  simp [hcheck,hcan,hwait,finishWithError_check]

/-- Delivering a reply: the request settles, and its slot goes to the next one. -/
theorem deliver_eq {c : Client} {r : RequestId} (reply : Reply) (hpos : 0 < c.limiter.running)
    (hlive : ∀ s ∈ c.limiter.pending, (c.requests s).live = true) (hr : r ∉ c.limiter.pending)
    (hfin : (c.requests r).finished = false)
    (hsent : (c.requests r).cancelledWhileWaiting = false) :
    c.deliver r reply = advance (c.modify r (settled reply)) := by
  have hlive' : ∀ s ∈ c.limiter.pending,
      ((c.modify r fun q => { q with watcher := .replied }).requests s).live = true := by
    intro s hs
    have hrs : s ≠ r := by
      rintro rfl
      exact hr hs
    rw [modify_of_ne _ _ hrs]
    exact hlive s hs
  have hdone : (c.modify r fun q => { q with watcher := .replied }).done r =
      advance (c.modify r fun q => { q with watcher := .replied, accounted := q.accounted+1 }) := by
    rw [done_advance (c:=c.modify r _) r hpos hlive',modify_modify]
  have hreq : (advance (c.modify r fun q =>
      { q with watcher := .replied, accounted := q.accounted+1 })).requests r =
        { c.requests r with watcher := .replied, accounted := (c.requests r).accounted+1 } :=
    (advance_requests_of_not_mem (c:=c.modify r _) hr).trans (modify_self ..)
  unfold deliver
  rw [dbusCallFinished_reply reply (by rw [modify_self]; exact hfin)
    (by rw [modify_self]; exact hsent) (by rw [hdone,hreq]; simp)
    (by rw [hdone,hreq,modify_self]),hdone,
    advance_modify (c:=c.modify r _) (concluded reply) hr,modify_modify]
  rfl

/-! ### Changes to one request -/

/-- In no phase that the limiter or the event loop knows about. -/
def Quiet (q : RequestImpl) : Prop := ¬ Queued q ∧ ¬ Withdrawn q ∧ ¬ Orphaned q ∧ ¬ Rejected q

theorem InFlight.quiet {q : RequestImpl} (h : InFlight q) : Quiet q :=
  ⟨not_queued_of_inFlight h,fun hw => by simpa [hw.2.2.2] using h.2.2,
    fun ho => by simpa [ho.1] using h.1,fun hr => by simpa [hr.2.1] using h.2.1⟩

theorem Placed.counts_of_quiet {c : Client} {r : RequestId} (h : Placed c r)
    (hq : Quiet (c.requests r)) :
    c.limiter.pending.count r = 0 ∧ c.posted.count (.dbusCallFinished r) = 0 ∧
      c.posted.count (.pumpLimiter r) = 0 ∧ c.posted.count (.finished r) = 0 :=
  ⟨h.queue.trans (if_neg hq.1),h.fake.trans (if_neg hq.2.1),h.pump.trans (if_neg hq.2.2.1),
    h.announce.trans (if_neg hq.2.2.2)⟩

theorem placed_of_quiet {d : Client} {r : RequestId} (hproper : Proper (d.requests r))
    (hq : Quiet (d.requests r)) (hqueue : d.limiter.pending.count r = 0)
    (hposted : d.posted.count (.dbusCallFinished r) = 0 ∧ d.posted.count (.pumpLimiter r) = 0 ∧
      d.posted.count (.finished r) = 0) : Placed d r :=
  ⟨hproper,hqueue.trans (if_neg hq.1).symm,hposted.1.trans (if_neg hq.2.1).symm,
    hposted.2.1.trans (if_neg hq.2.2.1).symm,hposted.2.2.trans (if_neg hq.2.2.2).symm⟩

/-- Everything known about one other request stays as it is. -/
structure Elsewhere (c d : Client) (r : RequestId) : Prop where
  requests : ∀ x ≠ r, d.requests x = c.requests x
  queue : ∀ x ≠ r, d.limiter.pending.count x = c.limiter.pending.count x
  posted : ∀ x ≠ r, ∀ p, p = .dbusCallFinished x ∨ p = .pumpLimiter x ∨ p = .finished x →
    d.posted.count p = c.posted.count p

/-- Only the request that an operation is about has to be looked at again. -/
theorem Core.touch {c d : Client} {r : RequestId} (h : Core c) (helse : Elsewhere c d r)
    (hplaced : Placed d r) (hlinked : Linked d) (hlt : r < d.next) (hnext : c.next ≤ d.next)
    (hsat : d.limiter.pending ≠ [] → d.limiter.concurrency ≤ d.limiter.running)
    (hfail : d.failures = []) : Core d := by
  refine ⟨fun x => ?_,hlinked,fun x hx => ?_,hsat,hfail⟩
  · by_cases hxr : x = r
    · subst hxr
      exact hplaced
    · exact (h.placed x).frame (helse.requests x hxr) (helse.queue x hxr) (helse.posted x hxr)
  · have hxr : x ≠ r := by
      rintro rfl
      exact absurd hlt (not_lt.mpr hx)
    rw [helse.requests x hxr]
    exact h.fresh x (hnext.trans hx)

theorem modify_elsewhere (c : Client) (r : RequestId) (f : RequestImpl → RequestImpl) :
    Elsewhere c (c.modify r f) r :=
  ⟨fun _ hx => modify_of_ne c f hx,fun _ _ => rfl,fun _ _ _ _ => rfl⟩

/-- Links survive a change that keeps the cancel function and puts nothing into flight. -/
theorem Linked.modify {c : Client} (h : Linked c) {r : RequestId}
    {f : RequestImpl → RequestImpl}
    (hfunc : (f (c.requests r)).cancelFunc = (c.requests r).cancelFunc)
    (hfly : InFlight (f (c.requests r)) → InFlight (c.requests r)) : Linked (c.modify r f) := by
  have hcf : ∀ x, ((c.modify r f).requests x).cancelFunc = (c.requests x).cancelFunc := by
    intro x
    by_cases hx : x = r
    · subst hx
      rw [modify_self,hfunc]
    · rw [modify_of_ne c f hx]
  have hfl : ∀ x, InFlight ((c.modify r f).requests x) → InFlight (c.requests x) := by
    intro x
    by_cases hx : x = r
    · subst hx
      rw [modify_self]
      exact hfly
    · rw [modify_of_ne c f hx]
      exact id
  refine ⟨h.entry_lt,h.entry_nodup,?_,?_,?_,?_⟩
  · intro x ref hx
    rw [hcf] at hx
    exact h.func_lt x ref hx
  · intro x y ref hx hy
    rw [hcf] at hx hy
    exact h.func_inj x y ref hx hy
  · intro e he x hj
    rw [hcf]
    exact h.owner e he x hj
  · intro x hx ref hf e he
    rw [hcf] at hf
    exact h.inFlight x (hfl x hx) ref hf e he

theorem outstanding_modify_same {c : Client} {r : RequestId} {f : RequestImpl → RequestImpl}
    (h : Owing (f (c.requests r)) ↔ Owing (c.requests r)) :
    outstanding (c.modify r f) = outstanding c := by
  apply tally_congr
  intro x _
  by_cases hx : x = r
  · subst hx
    rw [modify_self,h]
  · rw [modify_of_ne c f hx]

theorem outstanding_modify_lose {c : Client} {r : RequestId} {f : RequestImpl → RequestImpl}
    (hlt : r < c.next) (h : Owing (c.requests r)) (h' : ¬ Owing (f (c.requests r))) :
    outstanding (c.modify r f) + 1 = outstanding c := by
  apply tally_lose hlt h (by rwa [modify_self])
  intro x hx
  rw [modify_of_ne c f hx]

/-- A change between quiet phases. -/
theorem Core.modify_quiet {c : Client} (h : Core c) {r : RequestId}
    {f : RequestImpl → RequestImpl} (hlt : r < c.next) (hproper : Proper (f (c.requests r)))
    (hq : Quiet (c.requests r)) (hq' : Quiet (f (c.requests r)))
    (hfunc : (f (c.requests r)).cancelFunc = (c.requests r).cancelFunc)
    (hfly : InFlight (f (c.requests r)) → InFlight (c.requests r)) : Core (c.modify r f) := by
  have hcounts := (h.placed r).counts_of_quiet hq
  refine h.touch (modify_elsewhere c r f) ?_ (h.linked.modify hfunc hfly) hlt le_rfl h.saturated
    h.failures
  exact placed_of_quiet (by rwa [modify_self]) (by rwa [modify_self]) hcounts.1 hcounts.2

/-! ### Replies -/

theorem concluded_proper {q : RequestImpl} {reply : Reply} (hsent : q.sent ≤ 1)
    (hacc : q.accounted = q.sent) (hemit : q.emitted = 0) (hlive : q.live = true)
    (hwatcher : q.watcher ≠ .pending) : Proper (concluded reply q) := by
  unfold concluded
  split
  · constructor <;> simp_all [failed]
  · cases reply with
    | data bytes => constructor <;> simp_all [succeeded]
    | error message => constructor <;> simp_all [failed]

theorem concluded_quiet {q : RequestImpl} {reply : Reply} (hlive : q.live = true) :
    Quiet (concluded reply q) := by
  unfold concluded
  split
  · simp [Quiet,Queued,Withdrawn,Orphaned,Rejected,failed,hlive]
  · cases reply <;> simp [Quiet,Queued,Withdrawn,Orphaned,Rejected,failed,succeeded,hlive]

theorem concluded_fields (q : RequestImpl) (reply : Reply) :
    (concluded reply q).cancelFunc = q.cancelFunc ∧ (concluded reply q).sent = q.sent ∧
      (concluded reply q).accounted = q.accounted ∧ (concluded reply q).finished = true := by
  unfold concluded
  split
  · exact ⟨rfl,rfl,rfl,rfl⟩
  · cases reply <;> exact ⟨rfl,rfl,rfl,rfl⟩

theorem settled_not_inFlight (q : RequestImpl) (reply : Reply) : ¬ InFlight (settled reply q) := by
  intro h
  have h1 := h.2.1
  simp [settled,(concluded_fields _ reply).2.2.2] at h1

theorem settled_not_owing (q : RequestImpl) (reply : Reply) : ¬ Owing (settled reply q) := by
  intro h
  have h1 := h.2
  simp [settled,(concluded_fields _ reply).2.2.1] at h1

/-- The reply for a request in flight settles it and starts the next one. -/
theorem deliver_inv {c : Client} (h : Inv c) {r : RequestId} (hr : InFlight (c.requests r))
    (reply : Reply) : Inv (c.deliver r reply) := by
  have howing := h.inFlight_owing hr
  have hlt := h.owing_lt howing
  obtain ⟨hacc,hemit,_,_,_,_,_,hcww⟩ := (h.placed r).proper.unfinished hr.1 hr.2.1
  have hsent : (c.requests r).cancelledWhileWaiting = false := by simp [hcww,hr.2.2]
  have hnot : r ∉ c.limiter.pending :=
    fun hmem => not_queued_of_inFlight hr (h.queued_of_pending hmem)
  rw [deliver_eq reply (h.running_pos howing) (fun s hs => (h.queued_of_pending hs).1) hnot
    hr.2.1 hsent]
  apply advance_inv
  · refine h.modify_quiet hlt ?_ hr.quiet ?_ ?_ fun hcon => absurd hcon (settled_not_inFlight _ _)
    · exact concluded_proper (by simp [hr.2.2]) (by simp [hacc,hr.2.2]) hemit hr.1 (by simp)
    · exact concluded_quiet hr.1
    · exact (concluded_fields _ reply).1
  · have hlose := outstanding_modify_lose (f:=settled reply) hlt howing (settled_not_owing _ _)
    have hrun := h.running
    change c.limiter.running = _
    omega

end Client
end UnityThumbnailer
