import UnityThumbnailer.RateLimiter
import UnityThumbnailer.EventSystem
import Mathlib.Data.Int.Order.Basic
import Mathlib.Order.Basic

/-! The queue of the limiter as a stack of jobs. A cancelled job leaves its entry behind;
seen from outside, the queue holds the jobs that are neither started nor cancelled. -/
namespace UnityThumbnailer

open EventSystem

namespace LimiterQueue

/-- What an operation has done; jobs are numbered in the order they are scheduled. -/
inductive Record
  | queued (n : ℕ)
  | started (n : ℕ)
  | cancelled (n : ℕ) (result : Bool)
  /-- The jobs whose entries have left the queue, and the one that is started. -/
  | done (left : List ℕ) (next : Option ℕ)
  deriving DecidableEq

/-! ### What a history says of the jobs -/

def Record.queues : Record → Option ℕ
  | .queued n => some n
  | _ => none

def Record.starts : Record → Option ℕ
  | .started n => some n
  | .done _ next => next
  | _ => none

def Record.cancels : Record → Option ℕ
  | .cancelled n true => some n
  | _ => none

def Record.leaves : Record → List ℕ
  | .done left _ => left
  | _ => []

def queuedJobs (log : List Record) : List ℕ := log.filterMap Record.queues

def startedJobs (log : List Record) : List ℕ := log.filterMap Record.starts

def cancelledJobs (log : List Record) : List ℕ := log.filterMap Record.cancels

def leftJobs (log : List Record) : List ℕ := log.flatMap Record.leaves

/-- The stack of the jobs that wait, the one that was queued last first. -/
def waiting (log : List Record) : List ℕ :=
  (queuedJobs log).filter fun n => n ∉ startedJobs log ∧ n ∉ cancelledJobs log

/-- A cancel function reports failure only for jobs that are started or whose cancelled entry
is gone; `done()` starts the job on top of the stack, and drops only cancelled jobs. -/
def Allowed (past : List Record) : Record → Prop
  | .cancelled n false =>
    n ∈ startedJobs past ∨ n ∈ cancelledJobs past ∧ n ∈ leftJobs past
  | .done left next =>
    next = (waiting past).head? ∧ ∀ n ∈ left, next = some n ∨ n ∈ cancelledJobs past
  | _ => True

/-! ### The limiter with its clients -/

inductive Op
  | schedule
  | scheduleNow
  | cancel (n : ℕ)
  | done

/-- The limiter, the cancel functions that were handed out, the job of each shared function
that was queued, and the history. -/
structure Limited where
  limiter : RateLimiter ℕ
  jobs : ℕ
  cancelFunc : ℕ → Option CancelFunc
  owner : ℕ → ℕ
  log : List Record

def new (c : ℤ) (h : 0 < c) : Limited := ⟨.new c h,0,fun _ => none,fun _ => 0,[]⟩

namespace Limited

/-- The next job is scheduled, with this outcome. -/
def scheduled (s : Limited) (r : RateLimiter ℕ × CancelFunc × Option ℕ) : Limited where
  limiter := r.1
  jobs := s.jobs+1
  cancelFunc := Function.update s.cancelFunc s.jobs (some r.2.1)
  owner := match r.2.1 with
    | .queued ref => Function.update s.owner ref s.jobs
    | .notQueued => s.owner
  log := (match r.2.2 with
    | some n => .started n
    | none => .queued s.jobs)::s.log

/-- The jobs whose entries are not in the queue any more. -/
def left (s : Limited) (rest : List (Entry ℕ)) : List ℕ :=
  (s.limiter.list.take (s.limiter.list.length-rest.length)).map fun e => s.owner e.ref

end Limited

/-- All histories of one limiter; a cancel function can be called when the call that returns
it is over, and `done()` only while a job runs. -/
def limited : Machine Limited Op where
  step s
    | .schedule => some (s.scheduled (s.limiter.schedule s.jobs))
    | .scheduleNow => some (s.scheduled (s.limiter.scheduleNow s.jobs))
    | .cancel n => (s.cancelFunc n).map fun f =>
      { s with
        limiter := (s.limiter.cancel f).1, log := .cancelled n (s.limiter.cancel f).2::s.log }
    | .done =>
      if 0 < s.limiter.running then
        some { s with
          limiter := s.limiter.done.1
          log := .done (s.left s.limiter.done.1.list) s.limiter.done.2::s.log }
      else none

/-! ### Histories -/

section History

variable {log : List Record} {n m : ℕ}

@[simp] theorem startedJobs_queued : startedJobs (.queued n::log) = startedJobs log := rfl
@[simp] theorem startedJobs_started : startedJobs (.started n::log) = n::startedJobs log := rfl
@[simp] theorem startedJobs_cancelled (r : Bool) :
    startedJobs (.cancelled n r::log) = startedJobs log := rfl
@[simp] theorem startedJobs_done (left : List ℕ) (next : Option ℕ) :
    startedJobs (.done left next::log) = next.toList ++ startedJobs log := by
  cases next <;> rfl

@[simp] theorem cancelledJobs_queued : cancelledJobs (.queued n::log) = cancelledJobs log := rfl
@[simp] theorem cancelledJobs_started : cancelledJobs (.started n::log) = cancelledJobs log := rfl
@[simp] theorem cancelledJobs_true :
    cancelledJobs (.cancelled n true::log) = n::cancelledJobs log := rfl
@[simp] theorem cancelledJobs_false :
    cancelledJobs (.cancelled n false::log) = cancelledJobs log := rfl
@[simp] theorem cancelledJobs_done (left : List ℕ) (next : Option ℕ) :
    cancelledJobs (.done left next::log) = cancelledJobs log := rfl

@[simp] theorem leftJobs_queued : leftJobs (.queued n::log) = leftJobs log := rfl
@[simp] theorem leftJobs_started : leftJobs (.started n::log) = leftJobs log := rfl
@[simp] theorem leftJobs_cancelled (r : Bool) :
    leftJobs (.cancelled n r::log) = leftJobs log := rfl
@[simp] theorem leftJobs_done (left : List ℕ) (next : Option ℕ) :
    leftJobs (.done left next::log) = left ++ leftJobs log := rfl

/-- A queued job that is not known yet is put on the stack. -/
theorem waiting_queued (hs : n ∉ startedJobs log) (hc : n ∉ cancelledJobs log) :
    waiting (.queued n::log) = n::waiting log :=
  List.filter_cons_of_pos (by simp [hs,hc])

theorem waiting_started : waiting (.started n::log) = (waiting log).filter (· ≠ n) := by
  unfold waiting
  rw [List.filter_filter]
  refine List.filter_congr fun m _ => ?_
  simp [and_assoc]

theorem waiting_cancelled : waiting (.cancelled n true::log) = (waiting log).filter (· ≠ n) := by
  unfold waiting
  rw [List.filter_filter]
  refine List.filter_congr fun m _ => ?_
  simp [and_left_comm]

@[simp] theorem waiting_not_cancelled : waiting (.cancelled n false::log) = waiting log := rfl

theorem waiting_done (left : List ℕ) (next : Option ℕ) :
    waiting (.done left next::log) = (waiting log).filter fun m => next ≠ some m := by
  unfold waiting
  rw [List.filter_filter]
  refine List.filter_congr fun m _ => ?_
  simp [and_assoc]

end History

/-! ### The invariant -/

/-- What holds between operations, under the limit `c`. -/
structure Sound (c : ℤ) (s : Limited) : Prop where
  limit : s.limiter.concurrency = c
  func_lt : ∀ n f, s.cancelFunc n = some f → n < s.jobs
  started_lt : ∀ n ∈ startedJobs s.log, n < s.jobs
  cancelled_lt : ∀ n ∈ cancelledJobs s.log, n < s.jobs
  owner_func : ∀ ref < s.limiter.nextRef, s.cancelFunc (s.owner ref) = some (.queued ref)
  func_owner : ∀ n ref, s.cancelFunc n = some (.queued ref) →
    ref < s.limiter.nextRef ∧ s.owner ref = n
  direct : ∀ n, s.cancelFunc n = some .notQueued → n ∈ startedJobs s.log
  refs : (s.limiter.list.map Entry.ref).Nodup
  ref_lt : ∀ e ∈ s.limiter.list, e.ref < s.limiter.nextRef
  uncancelled : ∀ e ∈ s.limiter.list, ∀ n, e.job = some n →
    n = s.owner e.ref ∧ n ∉ cancelledJobs s.log
  dead : ∀ e ∈ s.limiter.list, e.job = none → s.owner e.ref ∈ cancelledJobs s.log
  unstarted : ∀ e ∈ s.limiter.list, s.owner e.ref ∉ startedJobs s.log
  gone : ∀ ref < s.limiter.nextRef, (∀ e ∈ s.limiter.list, e.ref ≠ ref) →
    s.owner ref ∈ startedJobs s.log ∨
      s.owner ref ∈ cancelledJobs s.log ∧ s.owner ref ∈ leftJobs s.log
  nodup : (startedJobs s.log).Nodup
  disjoint : ∀ n ∈ cancelledJobs s.log, n ∉ startedJobs s.log
  stack : s.limiter.pending = waiting s.log
  full : s.limiter.pending ≠ [] → c ≤ s.limiter.running

section Steps

variable {c : ℤ} {s t : Limited} {ref : ℕ} {n : ℕ}

theorem Sound.owner_lt (h : Sound c s) (hr : ref < s.limiter.nextRef) : s.owner ref < s.jobs :=
  h.func_lt _ _ (h.owner_func ref hr)

theorem Sound.owner_inj (h : Sound c s) {r : ℕ} (hr : r < s.limiter.nextRef)
    (href : ref < s.limiter.nextRef) (heq : s.owner r = s.owner ref) : r = ref := by
  have hfunc := h.owner_func r hr
  rw [heq,h.owner_func ref href] at hfunc
  cases hfunc
  rfl

theorem Sound.pending_entry (h : Sound c s) (hn : n ∈ s.limiter.pending) :
    ∃ e ∈ s.limiter.list, e.job = some n ∧ n = s.owner e.ref := by
  obtain ⟨e,he,hjob⟩ := List.mem_filterMap.mp hn
  exact ⟨e,he,hjob,(h.uncancelled e he n hjob).1⟩

theorem Sound.waiting_lt (h : Sound c s) (hn : n ∈ waiting s.log) : n < s.jobs := by
  rw [← h.stack] at hn
  obtain ⟨e,he,-,rfl⟩ := h.pending_entry hn
  exact h.owner_lt (h.ref_lt e he)

theorem new_sound (c : ℤ) (hc : 0 < c) : Sound c (new c hc) where
  limit := rfl
  func_lt _ _ hf := by cases hf
  started_lt _ hn := by cases hn
  cancelled_lt _ hn := by cases hn
  owner_func _ hr := absurd hr (Nat.not_lt_zero _)
  func_owner _ _ hf := by cases hf
  direct _ hf := by cases hf
  refs := List.nodup_nil
  ref_lt _ he := by cases he
  uncancelled _ he := by cases he
  dead _ he := by cases he
  unstarted _ he := by cases he
  gone _ hr := absurd hr (Nat.not_lt_zero _)
  nodup := List.nodup_nil
  disjoint _ hn := by cases hn
  stack := rfl
  full h := absurd rfl h

/-- The cancel functions when one more is handed out. -/
theorem updated {f g : CancelFunc} (hf : Function.update s.cancelFunc s.jobs (some g) n = some f) :
    n = s.jobs ∧ f = g ∨ s.cancelFunc n = some f := by
  by_cases hn : n = s.jobs
  · subst hn
    rw [Function.update_self] at hf
    exact Or.inl ⟨rfl,(Option.some.inj hf).symm⟩
  · rw [Function.update_of_ne hn] at hf
    exact Or.inr hf

/-- The next job is started at once. -/
theorem Sound.start (h : Sound c s) : Sound c
    (s.scheduled ({ s.limiter with running := s.limiter.running+1 },.notQueued,some s.jobs)) := by
  have hfresh : s.jobs ∉ startedJobs s.log := fun hn => absurd (h.started_lt _ hn) (lt_irrefl _)
  refine ⟨h.limit,fun n f hf => ?_,fun n hn => ?_,fun n hn => ?_,fun ref hr => ?_,
    fun n ref hf => ?_,fun n hf => ?_,h.refs,h.ref_lt,h.uncancelled,h.dead,fun e he => ?_,
    fun ref hr he => ?_,?_,fun n hn => ?_,?_,fun hp => ?_⟩
  · rcases updated hf with ⟨rfl,-⟩ | hold
    · exact Nat.lt_succ_self _
    · exact (h.func_lt n f hold).trans (Nat.lt_succ_self _)
  · rcases List.mem_cons.mp hn with rfl | hold
    · exact Nat.lt_succ_self _
    · exact (h.started_lt n hold).trans (Nat.lt_succ_self _)
  · exact (h.cancelled_lt n hn).trans (Nat.lt_succ_self _)
  · exact (Function.update_of_ne (h.owner_lt hr).ne _ _).trans (h.owner_func ref hr)
  · rcases updated hf with ⟨-,hqueued⟩ | hold
    · cases hqueued
    · exact h.func_owner n ref hold
  · rcases updated hf with ⟨rfl,-⟩ | hold
    · exact List.mem_cons_self
    · exact List.mem_cons_of_mem _ (h.direct n hold)
  · exact List.not_mem_cons_of_ne_of_not_mem (h.owner_lt (h.ref_lt e he)).ne (h.unstarted e he)
  · exact (h.gone ref hr he).imp (List.mem_cons_of_mem _) id
  · exact List.nodup_cons.mpr ⟨hfresh,h.nodup⟩
  · exact List.not_mem_cons_of_ne_of_not_mem (h.cancelled_lt n hn).ne (h.disjoint n hn)
  · have hall : (waiting s.log).filter (· ≠ s.jobs) = waiting s.log :=
      List.filter_eq_self.mpr fun m hm => decide_eq_true (h.waiting_lt hm).ne
    exact h.stack.trans (hall.symm.trans waiting_started.symm)
  · exact (h.full hp).trans (Int.le_add_one le_rfl)

/-- The next job is queued. -/
theorem Sound.queue (h : Sound c s) (hfull : ¬ s.limiter.running < s.limiter.concurrency) :
    Sound c (s.scheduled (s.limiter.schedule s.jobs)) := by
  rw [RateLimiter.schedule_full hfull]
  obtain ⟨l,jobs,cancelFunc,owner,log⟩ := s
  have hstarted : jobs ∉ startedJobs log := fun hn => absurd (h.started_lt _ hn) (lt_irrefl _)
  have hcancelled : jobs ∉ cancelledJobs log :=
    fun hn => absurd (h.cancelled_lt _ hn) (lt_irrefl _)
  have hold : ∀ ref < l.nextRef, Function.update owner l.nextRef jobs ref = owner ref :=
    fun ref hr => Function.update_of_ne hr.ne _ _
  have hself : Function.update owner l.nextRef jobs l.nextRef = jobs := Function.update_self _ _ _
  have hbelow : ∀ ref < l.nextRef+1, ref < l.nextRef ∨ ref = l.nextRef := fun ref hr => by omega
  refine ⟨h.limit,fun n f hf => ?_,fun n hn => ?_,fun n hn => ?_,fun ref hr => ?_,
    fun n ref hf => ?_,fun n hf => ?_,?_,fun e he => ?_,fun e he n hn => ?_,fun e he hn => ?_,
    fun e he => ?_,fun ref hr he => ?_,h.nodup,h.disjoint,?_,fun _ => ?_⟩
  · rcases updated hf with ⟨rfl,-⟩ | hf
    · exact Nat.lt_succ_self _
    · exact (h.func_lt n f hf).trans (Nat.lt_succ_self _)
  · exact (h.started_lt n hn).trans (Nat.lt_succ_self _)
  · exact (h.cancelled_lt n hn).trans (Nat.lt_succ_self _)
  · rcases hbelow ref hr with hr | rfl
    · simp only [Limited.scheduled,hold ref hr]
      exact (Function.update_of_ne (h.owner_lt hr).ne _ _).trans (h.owner_func ref hr)
    · simp only [Limited.scheduled,hself]
      exact Function.update_self _ _ _
  · rcases updated hf with ⟨rfl,hf⟩ | hf
    · cases hf
      exact ⟨Nat.lt_succ_self _,hself⟩
    · obtain ⟨hr,howner⟩ := h.func_owner n ref hf
      exact ⟨hr.trans (Nat.lt_succ_self _),(hold ref hr).trans howner⟩
  · rcases updated hf with ⟨-,hf⟩ | hf
    · cases hf
    · exact h.direct n hf
  · refine List.nodup_cons.mpr ⟨fun hmem => ?_,h.refs⟩
    obtain ⟨e,he,href⟩ := List.mem_map.mp hmem
    exact absurd (h.ref_lt e he) (by rw [href]; exact lt_irrefl _)
  · rcases List.mem_cons.mp he with rfl | he
    · exact Nat.lt_succ_self _
    · exact (h.ref_lt e he).trans (Nat.lt_succ_self _)
  · rcases List.mem_cons.mp he with rfl | he
    · cases hn
      exact ⟨hself.symm,hcancelled⟩
    · obtain ⟨rfl,hn⟩ := h.uncancelled e he n hn
      exact ⟨(hold _ (h.ref_lt e he)).symm,hn⟩
  · rcases List.mem_cons.mp he with rfl | he
    · cases hn
    · simp only [Limited.scheduled,hold _ (h.ref_lt e he)]
      exact h.dead e he hn
  · rcases List.mem_cons.mp he with rfl | he
    · simp only [Limited.scheduled,hself]
      exact hstarted
    · simp only [Limited.scheduled,hold _ (h.ref_lt e he)]
      exact h.unstarted e he
  · have hr : ref < l.nextRef :=
      (hbelow ref hr).resolve_right fun hr => he _ List.mem_cons_self hr.symm
    simp only [Limited.scheduled,hold ref hr]
    exact h.gone ref hr fun e hmem => he e (List.mem_cons_of_mem _ hmem)
  · exact (congrArg (jobs::·) h.stack).trans (waiting_queued hstarted hcancelled).symm
  · exact (le_of_eq h.limit.symm).trans (not_lt.mp hfull)

/-- A cancel function whose entry is still there clears it. -/
theorem Sound.cancel (h : Sound c s) (hf : s.cancelFunc n = some (.queued ref))
    (he : ∃ e ∈ s.limiter.list, e.ref = ref) :
    Sound c { s with
      limiter := (s.limiter.cancel (.queued ref)).1, log := .cancelled n true::s.log } := by
  obtain ⟨hr,rfl⟩ := h.func_owner n ref hf
  have hlist := RateLimiter.cancel_list s.limiter ref
  have hentry : ∀ f ∈ (s.limiter.cancel (.queued ref)).1.list,
      ∃ e ∈ s.limiter.list, RateLimiter.clear ref e = f := by
    rw [hlist]
    exact fun f hf => List.mem_map.mp hf
  have hunstarted : s.owner ref ∉ startedJobs s.log := by
    obtain ⟨e,hmem,rfl⟩ := he
    exact h.unstarted e hmem
  refine ⟨(RateLimiter.cancel_concurrency _ _).trans h.limit,h.func_lt,h.started_lt,fun n hn => ?_,
    fun r hr => ?_,fun n r hf => ?_,h.direct,?_,fun f hf => ?_,fun f hf n hn => ?_,
    fun f hf hn => ?_,fun f hf => ?_,fun r hr hgone => ?_,h.nodup,fun n hn => ?_,?_,fun hp => ?_⟩
  · rcases List.mem_cons.mp hn with rfl | hn
    · exact h.owner_lt hr
    · exact h.cancelled_lt n hn
  · rw [RateLimiter.cancel_nextRef] at hr
    exact h.owner_func r hr
  · rw [RateLimiter.cancel_nextRef]
    exact h.func_owner n r hf
  · rw [hlist,List.map_map]
    have hrefs : Entry.ref ∘ RateLimiter.clear ref = (Entry.ref : Entry ℕ → ℕ) := by
      funext e
      exact RateLimiter.clear_ref ref e
    rw [hrefs]
    exact h.refs
  · obtain ⟨e,hmem,rfl⟩ := hentry f hf
    rw [RateLimiter.clear_ref,RateLimiter.cancel_nextRef]
    exact h.ref_lt e hmem
  · obtain ⟨e,hmem,rfl⟩ := hentry f hf
    obtain ⟨hjob,hne⟩ := RateLimiter.clear_job hn
    obtain ⟨rfl,hcancelled⟩ := h.uncancelled e hmem n hjob
    rw [RateLimiter.clear_ref]
    refine ⟨rfl,List.not_mem_cons_of_ne_of_not_mem (fun heq => hne ?_) hcancelled⟩
    exact h.owner_inj (h.ref_lt e hmem) hr heq
  · obtain ⟨e,hmem,rfl⟩ := hentry f hf
    rw [RateLimiter.clear_ref]
    by_cases href : e.ref = ref
    · rw [href]
      exact List.mem_cons_self
    · simp only [RateLimiter.clear,href,if_false] at hn
      exact List.mem_cons_of_mem _ (h.dead e hmem hn)
  · obtain ⟨e,hmem,rfl⟩ := hentry f hf
    rw [RateLimiter.clear_ref]
    exact h.unstarted e hmem
  · rw [RateLimiter.cancel_nextRef] at hr
    refine (h.gone r hr fun e hmem => ?_).imp id fun hdropped => ?_
    · have := hgone (RateLimiter.clear ref e) (hlist ▸ List.mem_map_of_mem hmem)
      rwa [RateLimiter.clear_ref] at this
    · exact ⟨List.mem_cons_of_mem _ hdropped.1,hdropped.2⟩
  · rcases List.mem_cons.mp hn with rfl | hn
    · exact hunstarted
    · exact h.disjoint n hn
  · rw [waiting_cancelled,← h.stack]
    refine RateLimiter.cancel_pending fun e hmem x hx => ?_
    obtain ⟨rfl,-⟩ := h.uncancelled e hmem x hx
    exact ⟨fun href => by rw [href],h.owner_inj (h.ref_lt e hmem) hr⟩
  · rw [RateLimiter.cancel_running]
    refine h.full fun hempty => hp ?_
    have hsub := RateLimiter.cancel_pending_sublist s.limiter (.queued ref)
    rw [hempty] at hsub
    exact List.sublist_nil.mp hsub

/-- A cancel function whose entry is gone changes nothing. -/
theorem Sound.cancelled_false (h : Sound c s) : Sound c { s with log := .cancelled n false::s.log } :=
  ⟨h.limit,h.func_lt,h.started_lt,h.cancelled_lt,h.owner_func,h.func_owner,h.direct,h.refs,h.ref_lt,
    h.uncancelled,h.dead,h.unstarted,h.gone,h.nodup,h.disjoint,h.stack,h.full⟩

theorem Sound.pending_nodup (h : Sound c s) : s.limiter.pending.Nodup := by
  have hrefs : s.limiter.list.Pairwise fun e f => e.ref ≠ f.ref := List.pairwise_map.mp h.refs
  refine List.pairwise_filterMap.mpr (hrefs.imp_of_mem fun {e f} he hf hne n hn m hm heq => ?_)
  obtain ⟨hn,-⟩ := h.uncancelled e he n hn
  obtain ⟨hm,-⟩ := h.uncancelled f hf m hm
  exact hne (h.owner_inj (h.ref_lt e he) (h.ref_lt f hf) (hn.symm.trans (heq.trans hm)))

/-- The stack after the job on its top has been started. -/
theorem Sound.waiting_tail (h : Sound c s) (left : List ℕ) :
    s.limiter.pending.tail = waiting (.done left s.limiter.pending.head?::s.log) := by
  have hnodup := h.pending_nodup
  rw [waiting_done,← h.stack]
  cases hp : s.limiter.pending with
  | nil => rfl
  | cons n rest =>
    rw [hp] at hnodup
    have hn : n ∉ rest := (List.nodup_cons.mp hnodup).1
    rw [List.head?_cons,List.tail_cons,List.filter_cons_of_neg (by simp)]
    refine (List.filter_eq_self.mpr fun m hm => ?_).symm
    have hne : n ≠ m := fun heq => hn (heq ▸ hm)
    simp [hne]

/-- What leaves the queue: the job that is started, and cancelled ones. -/
theorem Sound.left_cases (h : Sound c s) (hn : n ∈ s.left s.limiter.done.1.list) :
    s.limiter.done.2 = some n ∨ n ∈ cancelledJobs s.log := by
  obtain ⟨gone,hsplit,hjobs,-⟩ := s.limiter.done_split
  obtain ⟨e,he,rfl⟩ := List.mem_map.mp hn
  have hgone : e ∈ gone := by
    rw [hsplit,List.length_append,Nat.add_sub_cancel,List.take_left] at he
    exact he
  have hmem : e ∈ s.limiter.list := hsplit ▸ List.mem_append_left _ hgone
  cases hjob : e.job with
  | none => exact Or.inr (h.dead e hmem hjob)
  | some m =>
    obtain ⟨rfl,-⟩ := h.uncancelled e hmem m hjob
    exact Or.inl (((hjobs e hgone).resolve_left (by simp [hjob])).symm.trans hjob)

theorem Sound.done (h : Sound c s) : Sound c { s with
    limiter := s.limiter.done.1
    log := .done (s.left s.limiter.done.1.list) s.limiter.done.2::s.log } := by
  obtain ⟨gone,hsplit,hjobs,hnext⟩ := s.limiter.done_split
  have hsub : ∀ e ∈ s.limiter.done.1.list, e ∈ s.limiter.list :=
    fun e he => s.limiter.done_suffix.mem he
  have hleft : ∀ e ∈ gone, s.owner e.ref ∈ s.left s.limiter.done.1.list := by
    intro e he
    refine List.mem_map.mpr ⟨e,?_,rfl⟩
    rw [hsplit,List.length_append,Nat.add_sub_cancel,List.take_left]
    exact he
  -- the job that is started has its entry among those that go
  have hstart : ∀ n, s.limiter.done.2 = some n → ∃ e ∈ gone, e ∈ s.limiter.list ∧
      n = s.owner e.ref ∧ n ∉ cancelledJobs s.log := by
    intro n hn
    obtain ⟨e,he,hjob⟩ := hnext n hn
    have hmem : e ∈ s.limiter.list := hsplit ▸ List.mem_append_left _ he
    exact ⟨e,he,hmem,h.uncancelled e hmem n hjob⟩
  refine ⟨(RateLimiter.done_concurrency _).trans h.limit,h.func_lt,fun n hn => ?_,h.cancelled_lt,
    fun ref hr => ?_,fun n ref hf => ?_,fun n hf => ?_,?_,fun e he => ?_,
    fun e he => h.uncancelled e (hsub e he),fun e he => h.dead e (hsub e he),fun e he => ?_,
    fun ref hr hgone => ?_,?_,fun n hn => ?_,?_,fun hp => ?_⟩
  · rw [startedJobs_done,List.mem_append,Option.mem_toList] at hn
    rcases hn with hn | hn
    · obtain ⟨e,-,hmem,rfl,-⟩ := hstart n hn
      exact h.owner_lt (h.ref_lt e hmem)
    · exact h.started_lt n hn
  · rw [RateLimiter.done_nextRef] at hr
    exact h.owner_func ref hr
  · rw [RateLimiter.done_nextRef]
    exact h.func_owner n ref hf
  · rw [startedJobs_done]
    exact List.mem_append_right _ (h.direct n hf)
  · exact (s.limiter.done_suffix.sublist.map Entry.ref).nodup h.refs
  · rw [RateLimiter.done_nextRef]
    exact h.ref_lt e (hsub e he)
  · rw [startedJobs_done,List.mem_append,Option.mem_toList]
    rintro (hn | hn)
    · obtain ⟨f,hf,hmem,howner,-⟩ := hstart _ hn
      have href := h.owner_inj (h.ref_lt e (hsub e he)) (h.ref_lt f hmem) howner
      have hrefs := h.refs
      rw [hsplit,List.map_append,List.nodup_append] at hrefs
      exact hrefs.2.2 f.ref (List.mem_map_of_mem hf) e.ref (List.mem_map_of_mem he) href.symm
    · exact h.unstarted e (hsub e he) hn
  · rw [RateLimiter.done_nextRef] at hr
    rw [startedJobs_done,leftJobs_done,List.mem_append,List.mem_append,Option.mem_toList]
    by_cases hmem : ∃ e ∈ s.limiter.list, e.ref = ref
    · obtain ⟨e,hmem,rfl⟩ := hmem
      have hgo : e ∈ gone := by
        rw [hsplit] at hmem
        exact (List.mem_append.mp hmem).resolve_right fun hrest => hgone e hrest rfl
      rcases h.left_cases (hleft e hgo) with hnow | hdead
      · exact Or.inl (Or.inl hnow)
      · exact Or.inr ⟨hdead,Or.inl (hleft e hgo)⟩
    · have hnone : ∀ e ∈ s.limiter.list, e.ref ≠ ref := fun e he href => hmem ⟨e,he,href⟩
      exact (h.gone ref hr hnone).imp Or.inr fun hdropped => ⟨hdropped.1,Or.inr hdropped.2⟩
  · rw [startedJobs_done]
    cases hn : s.limiter.done.2 with
    | none => exact h.nodup
    | some n =>
      obtain ⟨e,-,hmem,rfl,-⟩ := hstart n hn
      exact List.nodup_cons.mpr ⟨h.unstarted e hmem,h.nodup⟩
  · rw [startedJobs_done,List.mem_append,Option.mem_toList]
    rintro (hnow | hold)
    · obtain ⟨-,-,-,-,huncancelled⟩ := hstart n hnow
      exact huncancelled hn
    · exact h.disjoint n hn hold
  · rw [RateLimiter.done_next,RateLimiter.done_pending]
    exact h.waiting_tail _
  · rw [RateLimiter.done_pending] at hp
    have hbefore : s.limiter.pending ≠ [] := fun hempty => hp (by rw [hempty]; rfl)
    rw [RateLimiter.done_running,if_neg hbefore]
    exact h.full hbefore

theorem step_sound (s : Limited) (e : Op) (t : Limited) (h : Sound c s)
    (ht : limited.step s e = some t) : Sound c t ∧ ∃ r, t.log = r::s.log ∧ Allowed s.log r := by
  cases e with
  | schedule =>
    obtain rfl := Option.some.inj ht
    by_cases hbelow : s.limiter.running < s.limiter.concurrency
    · rw [RateLimiter.schedule_below hbelow]
      exact ⟨h.start,_,rfl,trivial⟩
    · refine ⟨h.queue hbelow,.queued s.jobs,?_,trivial⟩
      rw [RateLimiter.schedule_full hbelow]
      rfl
  | scheduleNow =>
    obtain rfl := Option.some.inj ht
    exact ⟨h.start,_,rfl,trivial⟩
  | cancel n =>
    obtain ⟨f,hf,rfl⟩ := Option.map_eq_some_iff.mp ht
    cases f with
    | notQueued => exact ⟨h.cancelled_false,_,rfl,Or.inl (h.direct n hf)⟩
    | queued ref =>
      by_cases he : ∃ e ∈ s.limiter.list, e.ref = ref
      · have htrue := RateLimiter.cancel_snd.mpr he
        rw [htrue]
        exact ⟨h.cancel hf he,_,rfl,trivial⟩
      · have hsame : s.limiter.cancel (.queued ref) = (s.limiter,false) := if_neg he
        obtain ⟨hr,rfl⟩ := h.func_owner n ref hf
        rw [hsame]
        refine ⟨h.cancelled_false,_,rfl,h.gone ref hr fun e hmem href => he ⟨e,hmem,href⟩⟩
  | done =>
    simp only [limited,Option.ite_none_right_eq_some,Option.some.injEq] at ht
    obtain ⟨-,rfl⟩ := ht
    refine ⟨h.done,_,rfl,?_,fun n hn => h.left_cases hn⟩
    rw [RateLimiter.done_next,h.stack]

end Steps

/-- In every history of a limiter, no job is started twice, or both cancelled and started; each
operation does what is allowed after those before it; the queue holds exactly the stack of the
jobs that wait, so none of them is lost; and while one waits, the limit is reached. -/
theorem queueSemantics (c : ℤ) (hc : 0 < c) (ops : List Op) (t : Limited)
    (hrun : limited.run (new c hc) ops = some t) :
    (startedJobs t.log).Nodup ∧ (∀ n ∈ cancelledJobs t.log, n ∉ startedJobs t.log) ∧
      Justified Allowed t.log ∧ t.limiter.pending = waiting t.log ∧
        (waiting t.log ≠ [] → c ≤ t.limiter.running) := by
  let Inv (s : Limited) : Prop := Sound c s ∧ Justified Allowed s.log
  have hstep : ∀ s e u, Inv s → limited.step s e = some u → Inv u := by
    rintro s e u ⟨h,hjustified⟩ hu
    obtain ⟨hsound,r,hlog,hallowed⟩ := step_sound s e u h hu
    exact ⟨hsound,hlog ▸ ⟨hallowed,hjustified⟩⟩
  have hinit : Inv (new c hc) := ⟨new_sound c hc,trivial⟩
  obtain ⟨h,hjustified⟩ := Machine.invariant_run hstep hinit hrun
  refine ⟨h.nodup,h.disjoint,hjustified,h.stack,fun hwaiting => h.full ?_⟩
  rwa [h.stack]

/-- Of two jobs that wait, the upper one is cancelled, again and again. -/
def cancelledTop : List Op :=
  [.schedule,.schedule,.schedule,.cancel 2,.cancel 2,.done,.cancel 2,.cancel 1,.done]

theorem queueSemantics_cancelledTop : (0 : ℤ) < 1 ∧ ∃ t,
    limited.run (new 1 (by decide)) cancelledTop = some t ∧
      (startedJobs t.log).Nodup ∧ (∀ n ∈ cancelledJobs t.log, n ∉ startedJobs t.log) ∧
        Justified Allowed t.log ∧ t.limiter.pending = waiting t.log ∧
          (waiting t.log ≠ [] → 1 ≤ t.limiter.running) := by
  obtain ⟨t,ht⟩ := Option.isSome_iff_exists.mp
    (show (limited.run (new 1 (by decide)) cancelledTop).isSome = true by decide)
  exact ⟨by decide,t,ht,queueSemantics 1 (by decide) cancelledTop t ht⟩

example : (limited.run (new 1 (by decide)) cancelledTop).map Limited.log = some
    [.done [] none,.cancelled 1 false,.cancelled 2 false,.done [2,1] (some 1),
      .cancelled 2 true,.cancelled 2 true,.queued 2,.queued 1,.started 0] := by decide

end LimiterQueue
end UnityThumbnailer
