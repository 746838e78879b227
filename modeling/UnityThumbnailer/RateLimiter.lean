import Mathlib.Data.List.Basic
import Mathlib.Data.Int.Basic
import Mathlib.Tactic.Common

/-! The limiter for asynchronous jobs that the service and the client library share.
Calling a job is left to the caller: an operation returns the job it calls last,
with the counter and the queue as they are at that call. -/
namespace UnityThumbnailer

/-- A shared function in `list_`; cancelling clears the function and leaves the entry. -/
structure Entry (Job : Type*) where
  ref : ℕ
  job : Option Job

/-- What `schedule()` and `schedule_now()` return: a weak pointer to the queued
function, or the closure of a job that was never queued. -/
inductive CancelFunc
  | queued (ref : ℕ)
  | notQueued
  deriving DecidableEq

/-- The back of `list_` is the head of `list`; `nextRef` numbers the shared functions. -/
structure RateLimiter (Job : Type*) where
  concurrency : ℤ
  concurrency_pos : 0 < concurrency
  running : ℤ
  list : List (Entry Job)
  nextRef : ℕ

namespace RateLimiter

variable {Job : Type*}

def new (concurrency : ℤ) (h : 0 < concurrency) : RateLimiter Job :=
  ⟨concurrency,h,0,[],0⟩

/-- Start a job whatever the limit. -/
def scheduleNow (l : RateLimiter Job) (job : Job) : RateLimiter Job × CancelFunc × Option Job :=
  ({ l with running := l.running+1 },.notQueued,some job)

/-- Start a job below the limit, queue it otherwise. -/
def schedule (l : RateLimiter Job) (job : Job) : RateLimiter Job × CancelFunc × Option Job :=
  if l.running < l.concurrency then l.scheduleNow job
  else ({ l with list := ⟨l.nextRef,some job⟩ :: l.list, nextRef := l.nextRef+1 },
    .queued l.nextRef,none)

/-- The loop of `done()`: discard cleared entries up to the first function that is left. -/
def popJob : List (Entry Job) → List (Entry Job) × Option Job
  | [] => ([],none)
  | e::rest =>
    match e.job with
    | some job => (rest,some job)
    | none => popJob rest

/-- A job has completed; start the next one that is not cancelled. -/
def done (l : RateLimiter Job) : RateLimiter Job × Option Job :=
  let l := { l with running := l.running-1 }
  match popJob l.list with
  | (rest,some job) =>
    let r := { l with list := rest }.scheduleNow job
    (r.1,r.2.2)
  | (rest,none) => ({ l with list := rest },none)

def clear (ref : ℕ) (e : Entry Job) : Entry Job :=
  if e.ref = ref then { e with job := none } else e

/-- Call a cancel function; it reports whether the queued function was still there. -/
def cancel (l : RateLimiter Job) : CancelFunc → RateLimiter Job × Bool
  | .queued ref =>
    if ∃ e ∈ l.list, e.ref = ref then ({ l with list := l.list.map (clear ref) },true)
    else (l,false)
  | .notQueued => (l,false)

/-- The jobs that `done()` can still start, the next one first. -/
def pending (l : RateLimiter Job) : List Job := l.list.filterMap Entry.job

@[simp] theorem new_running (c : ℤ) (h : 0 < c) : (new c h : RateLimiter Job).running = 0 := rfl
@[simp] theorem new_concurrency (c : ℤ) (h : 0 < c) :
    (new c h : RateLimiter Job).concurrency = c := rfl
@[simp] theorem new_list (c : ℤ) (h : 0 < c) : (new c h : RateLimiter Job).list = [] := rfl
@[simp] theorem new_pending (c : ℤ) (h : 0 < c) : (new c h : RateLimiter Job).pending = [] := rfl

theorem schedule_below {l : RateLimiter Job} {job : Job} (h : l.running < l.concurrency) :
    l.schedule job = ({ l with running := l.running+1 },.notQueued,some job) := by
  simp [schedule,scheduleNow,h]

theorem schedule_full {l : RateLimiter Job} {job : Job} (h : ¬ l.running < l.concurrency) :
    l.schedule job = ({ l with list := ⟨l.nextRef,some job⟩ :: l.list, nextRef := l.nextRef+1 },
      .queued l.nextRef,none) := by
  simp [schedule,h]

/-- The loop ends with the newest job that is left, or with an empty list. -/
theorem popJob_eq (list : List (Entry Job)) :
    (popJob list).2 = (list.filterMap Entry.job).head? ∧
      (popJob list).1.filterMap Entry.job = (list.filterMap Entry.job).tail := by
  induction list with
  | nil => simp [popJob]
  | cons e rest ih => cases h : e.job <;> simp [popJob,h,ih]

/-- The job that is returned came from an entry that has left the list. -/
theorem popJob_some {list : List (Entry Job)} {job : Job} (h : (popJob list).2 = some job) :
    ∃ ref, ⟨ref,some job⟩ :: (popJob list).1 <:+ list := by
  induction list with
  | nil => simp [popJob] at h
  | cons e rest ih =>
    obtain ⟨ref,j⟩ := e
    cases j with
    | none =>
      obtain ⟨r,hr⟩ := ih (by simpa [popJob] using h)
      exact ⟨r,by simpa [popJob] using hr.trans (List.suffix_cons _ rest)⟩
    | some j =>
      obtain rfl : j = job := by simpa [popJob] using h
      exact ⟨ref,by simp [popJob]⟩

/-- Of the entries that leave the list, only the last can still have its function. -/
theorem popJob_split (list : List (Entry Job)) : ∃ gone, list = gone ++ (popJob list).1 ∧
    (∀ e ∈ gone, e.job = none ∨ e.job = (popJob list).2) ∧
      ∀ job, (popJob list).2 = some job → ∃ e ∈ gone, e.job = some job := by
  induction list with
  | nil => exact ⟨[],rfl,by simp,by simp [popJob]⟩
  | cons e rest ih =>
    cases hj : e.job with
    | some job => exact ⟨[e],by simp [popJob,hj],by simp [popJob,hj],by simp [popJob,hj]⟩
    | none =>
      obtain ⟨gone,hsplit,hjobs,hnext⟩ := ih
      simp only [popJob,hj]
      refine ⟨e::gone,congrArg (e::·) hsplit,fun f hf => ?_,fun job h => ?_⟩
      · rcases List.mem_cons.mp hf with rfl | hmem
        · exact Or.inl hj
        · exact hjobs f hmem
      · obtain ⟨f,hf,hjob⟩ := hnext job h
        exact ⟨f,List.mem_cons_of_mem _ hf,hjob⟩

theorem popJob_suffix (list : List (Entry Job)) : (popJob list).1 <:+ list := by
  obtain ⟨gone,hsplit,-⟩ := popJob_split list
  exact ⟨gone,hsplit.symm⟩

/-- `done()` frees a slot and gives it to the next job at once, if there is one. -/
theorem done_eq (l : RateLimiter Job) :
    l.done = ({ l with
      running := if (popJob l.list).2.isSome then l.running else l.running-1
      list := (popJob l.list).1 },(popJob l.list).2) := by
  cases h : popJob l.list with
  | mk rest next => cases next <;> simp [done,scheduleNow,h]

theorem done_next (l : RateLimiter Job) : l.done.2 = l.pending.head? := by
  rw [done_eq]
  exact (popJob_eq l.list).1

/-- The queue as `done()` leaves it. -/
theorem done_pending (l : RateLimiter Job) : l.done.1.pending = l.pending.tail := by
  rw [done_eq]
  exact (popJob_eq l.list).2

/-- `schedule()` starts the job itself, or none. -/
theorem schedule_next (l : RateLimiter Job) (job : Job) :
    (l.schedule job).2.2 = none ∨ (l.schedule job).2.2 = some job := by
  by_cases h : l.running < l.concurrency
  · exact Or.inr (by rw [schedule_below h])
  · exact Or.inl (by rw [schedule_full h])

/-- A job is handed out or queued. -/
theorem schedule_jobs (l : RateLimiter Job) (job : Job) :
    (l.schedule job).2.2.toList ++ (l.schedule job).1.pending = job :: l.pending := by
  by_cases h : l.running < l.concurrency
  · rw [schedule_below h]
    rfl
  · rw [schedule_full h]
    rfl

/-- `done()` only hands out what was queued. -/
theorem done_jobs (l : RateLimiter Job) : l.done.2.toList ++ l.done.1.pending = l.pending := by
  rw [done_next,done_pending]
  cases l.pending <;> rfl

theorem done_split (l : RateLimiter Job) : ∃ gone, l.list = gone ++ l.done.1.list ∧
    (∀ e ∈ gone, e.job = none ∨ e.job = l.done.2) ∧
      ∀ job, l.done.2 = some job → ∃ e ∈ gone, e.job = some job := by
  rw [done_eq]
  exact popJob_split l.list

theorem done_suffix (l : RateLimiter Job) : l.done.1.list <:+ l.list := by
  rw [done_eq]
  exact popJob_suffix l.list

@[simp] theorem done_nextRef (l : RateLimiter Job) : l.done.1.nextRef = l.nextRef := by
  rw [done_eq]

theorem done_running (l : RateLimiter Job) :
    l.done.1.running = if l.pending = [] then l.running-1 else l.running := by
  rw [done_eq]
  have h := (popJob_eq l.list).1
  change (popJob l.list).2 = l.pending.head? at h
  cases hp : l.pending <;> simp [h,hp]

@[simp] theorem clear_ref (ref : ℕ) (e : Entry Job) : (clear ref e).ref = e.ref := by
  unfold clear
  split <;> rfl

theorem clear_job {ref : ℕ} {e : Entry Job} {job : Job} (h : (clear ref e).job = some job) :
    e.job = some job ∧ e.ref ≠ ref := by
  unfold clear at h
  split at h
  · cases h
  · exact ⟨h,by assumption⟩

theorem cancel_snd {l : RateLimiter Job} {ref : ℕ} :
    (l.cancel (.queued ref)).2 = true ↔ ∃ e ∈ l.list, e.ref = ref := by
  simp only [cancel]
  split <;> simp_all

@[simp] theorem cancel_notQueued (l : RateLimiter Job) : l.cancel .notQueued = (l,false) := rfl

theorem cancel_list (l : RateLimiter Job) (ref : ℕ) :
    (l.cancel (.queued ref)).1.list = l.list.map (clear ref) := by
  simp only [cancel]
  split
  · rfl
  · rename_i h
    have hid : l.list.map (clear ref) = l.list.map id :=
      List.map_congr_left fun e he => if_neg fun hr => h ⟨e,he,hr⟩
    rw [hid,List.map_id]

@[simp] theorem cancel_nextRef (l : RateLimiter Job) (f : CancelFunc) :
    (l.cancel f).1.nextRef = l.nextRef := by
  cases f with
  | queued ref => simp only [cancel]; split <;> rfl
  | notQueued => rfl

/-- Cancelling the entry of a job takes this job out of the queue, and no other. -/
theorem cancel_pending [DecidableEq Job] {l : RateLimiter Job} {ref : ℕ} {job : Job}
    (h : ∀ e ∈ l.list, ∀ x, e.job = some x → (e.ref = ref ↔ x = job)) :
    (l.cancel (.queued ref)).1.pending = l.pending.filter (· ≠ job) := by
  simp only [pending,cancel_list]
  generalize l.list = list at h
  induction list with
  | nil => rfl
  | cons e rest ih =>
    have hrest := ih fun e he => h e (List.mem_cons_of_mem _ he)
    cases hj : e.job with
    | none =>
      have hc : (clear ref e).job = none := by
        unfold clear
        split <;> simp [hj]
      simpa [hj,hc] using hrest
    | some x =>
      have hx := h e List.mem_cons_self x hj
      by_cases hr : e.ref = ref
      · have hc : (clear ref e).job = none := by simp [clear,hr]
        have hxj : x = job := hx.mp hr
        simpa [hj,hc,hxj] using hrest
      · have hc : (clear ref e).job = some x := by simp [clear,hr,hj]
        have hxj : x ≠ job := fun hcon => hr (hx.mpr hcon)
        simpa [hj,hc,hxj] using hrest

/-- Cancelling never adds a job. -/
theorem cancel_pending_sublist (l : RateLimiter Job) (f : CancelFunc) :
    List.Sublist (l.cancel f).1.pending l.pending := by
  cases f with
  | notQueued => exact List.Sublist.refl _
  | queued ref =>
    simp only [pending,cancel_list]
    induction l.list with
    | nil => exact List.Sublist.refl _
    | cons e rest ih =>
      by_cases hr : e.ref = ref
      · have hc : (clear ref e).job = none := by simp [clear,hr]
        rw [List.map_cons,List.filterMap_cons_none hc]
        cases hj : e.job with
        | none => rwa [List.filterMap_cons_none hj]
        | some x =>
          rw [List.filterMap_cons_some hj]
          exact ih.trans (List.sublist_cons_self x _)
      · have hc : clear ref e = e := by simp [clear,hr]
        rw [List.map_cons,hc]
        cases hj : e.job with
        | none => rwa [List.filterMap_cons_none hj,List.filterMap_cons_none hj]
        | some x =>
          rw [List.filterMap_cons_some hj,List.filterMap_cons_some hj]
          exact ih.cons_cons x

@[simp] theorem done_concurrency (l : RateLimiter Job) : l.done.1.concurrency = l.concurrency := by
  rw [done_eq]

@[simp] theorem schedule_concurrency (l : RateLimiter Job) (job : Job) :
    (l.schedule job).1.concurrency = l.concurrency := by
  unfold schedule
  split <;> rfl

@[simp] theorem cancel_concurrency (l : RateLimiter Job) (f : CancelFunc) :
    (l.cancel f).1.concurrency = l.concurrency := by
  cases f with
  | queued ref => simp only [cancel]; split <;> rfl
  | notQueued => rfl

@[simp] theorem cancel_running (l : RateLimiter Job) (f : CancelFunc) :
    (l.cancel f).1.running = l.running := by
  cases f with
  | queued ref => simp only [cancel]; split <;> rfl
  | notQueued => rfl

end RateLimiter
end UnityThumbnailer
