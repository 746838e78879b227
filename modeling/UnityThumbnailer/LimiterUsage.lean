import Mathlib.Data.List.Count
import Mathlib.Tactic.Linarith
import UnityThumbnailer.EventSystem
import UnityThumbnailer.RateLimiter

/-! Runs of a limiter under callers that obey the contract of `done()`: it is called
once for a job that was started, and never for a job whose cancellation succeeded. -/
namespace UnityThumbnailer
namespace LimiterUsage

open EventSystem

variable {Job : Type*}

/-- How a running job came to its slot. -/
inductive Origin
  | scheduled | bypass
  deriving DecidableEq

/-- A limiter with the jobs that were started and have not been reported by `done()`. -/
structure Usage (Job : Type*) where
  limiter : RateLimiter Job
  active : List (Origin × Job)

inductive Event (Job : Type*)
  | schedule (job : Job)
  | scheduleNow (job : Job)
  | cancel (f : CancelFunc)
  | done (a : Origin × Job)

def new (c : ℤ) (h : 0 < c) : Usage Job := ⟨.new c h,[]⟩

def usage [DecidableEq Job] : Machine (Usage Job) (Event Job) where
  step u
    | .schedule job =>
      let r := u.limiter.schedule job
      some ⟨r.1,r.2.2.toList.map (.scheduled,·) ++ u.active⟩
    | .scheduleNow job =>
      let r := u.limiter.scheduleNow job
      some ⟨r.1,r.2.2.toList.map (.bypass,·) ++ u.active⟩
    | .cancel f => some { u with limiter := (u.limiter.cancel f).1 }
    | .done a =>
      if a ∈ u.active then
        let r := u.limiter.done
        some ⟨r.1,r.2.toList.map (.scheduled,·) ++ u.active.erase a⟩
      else none

/-- The number of running jobs that came through `schedule()` or the queue. -/
def scheduledCount (u : Usage Job) : ℕ := u.active.countP fun a => a.1 = .scheduled

/-- `done()` starts a job only into a slot below the limit. -/
def StartsBelowLimit (u : Usage Job) : Event Job → Prop
  | .done _ => ∀ job ∈ u.limiter.done.2, u.limiter.running-1 < u.limiter.concurrency
  | _ => True

/-- The scheduled jobs alone never exceed the limit. -/
def ScheduledWithinLimit (u : Usage Job) : Prop := (scheduledCount u : ℤ) ≤ u.limiter.concurrency

/-- No job waits in the queue at a `done()` that arrives above the limit. -/
def WithoutOvershoot (u : Usage Job) : Event Job → Prop
  | .done _ => u.limiter.running ≤ u.limiter.concurrency ∨ u.limiter.pending = []
  | _ => True

instance (u : Usage Job) : ∀ e, Decidable (StartsBelowLimit u e)
  | .done _ => inferInstanceAs (Decidable (∀ job ∈ u.limiter.done.2,_))
  | .schedule _ | .scheduleNow _ | .cancel _ => .isTrue trivial

instance (u : Usage Job) : Decidable (ScheduledWithinLimit u) :=
  inferInstanceAs (Decidable (_ ≤ _))

/-- At one `done()` the limit is respected exactly when it frees a slot below it. -/
theorem startsBelowLimit_iff (u : Usage Job) (e : Event Job) :
    StartsBelowLimit u e ↔ WithoutOvershoot u e := by
  cases e with
  | done a =>
    simp only [StartsBelowLimit,WithoutOvershoot,RateLimiter.done_next]
    cases h : u.limiter.pending with
    | nil => simp
    | cons job rest =>
      have hlt : u.limiter.running-1 < u.limiter.concurrency ↔
          u.limiter.running ≤ u.limiter.concurrency := by omega
      simp [hlt]
  | schedule | scheduleNow | cancel => exact Iff.rfl

/-- The counter counts the active jobs, and the scheduled ones stay within the limit. -/
structure Governed (u : Usage Job) : Prop where
  running : u.limiter.running = u.active.length
  scheduled : ScheduledWithinLimit u

theorem new_governed (c : ℤ) (h : 0 < c) : Governed (new c h : Usage Job) where
  running := by simp [new]
  scheduled := by simpa [ScheduledWithinLimit,scheduledCount,new] using h.le

theorem scheduledCount_le (u : Usage Job) : scheduledCount u ≤ u.active.length :=
  List.countP_le_length

theorem scheduledCount_erase_le [DecidableEq Job] (u : Usage Job) (a : Origin × Job) :
    (u.active.erase a).countP (fun b => b.1 = .scheduled) ≤ scheduledCount u :=
  (List.erase_sublist).countP_le

theorem schedule_governed {u : Usage Job} (hu : Governed u) (job : Job) :
    Governed ⟨(u.limiter.schedule job).1,
      (u.limiter.schedule job).2.2.toList.map (.scheduled,·) ++ u.active⟩ := by
  have hrun := hu.running
  have hsched := hu.scheduled
  have hle := scheduledCount_le u
  simp only [ScheduledWithinLimit,scheduledCount] at hsched hle
  by_cases h : u.limiter.running < u.limiter.concurrency
  · rw [RateLimiter.schedule_below h]
    constructor
    · simp [hrun]
    · simp only [ScheduledWithinLimit,scheduledCount,Option.toList_some,List.map_cons,List.map_nil,
        List.cons_append,List.nil_append,List.countP_cons,decide_true,if_true]
      omega
  · rw [RateLimiter.schedule_full h]
    exact ⟨by simpa using hrun,by simpa [ScheduledWithinLimit,scheduledCount] using hsched⟩

theorem done_governed [DecidableEq Job] {u : Usage Job} (hu : Governed u) {a : Origin × Job} (ha : a ∈ u.active)
    (hg : WithoutOvershoot u (.done a)) :
    Governed ⟨u.limiter.done.1,
      u.limiter.done.2.toList.map (.scheduled,·) ++ u.active.erase a⟩ := by
  have hrun := hu.running
  have hsched := hu.scheduled
  have hle := scheduledCount_erase_le u a
  have hlen := List.length_erase_of_mem ha
  have hpos := List.length_pos_of_mem ha
  have hcount : (u.active.erase a).countP (fun b => b.1 = .scheduled) ≤ (u.active.erase a).length :=
    List.countP_le_length
  simp only [ScheduledWithinLimit,scheduledCount] at hsched hle
  have hnext := RateLimiter.done_next u.limiter
  rw [RateLimiter.done_eq] at hnext ⊢
  simp only at hnext
  cases hp : u.limiter.pending with
  | nil =>
    simp only [hp,List.head?_nil] at hnext
    simp only [hnext,Option.isSome_none,Option.toList_none,List.map_nil,List.nil_append]
    constructor
    · simp only [Bool.false_eq_true,if_false]
      omega
    · simp only [ScheduledWithinLimit,scheduledCount]
      omega
  | cons job rest =>
    simp only [hp,List.head?_cons] at hnext
    have hroom : u.limiter.running ≤ u.limiter.concurrency := hg.resolve_right (by simp [hp])
    simp only [hnext,Option.isSome_some,Option.toList_some,List.map_cons,List.map_nil,
      List.cons_append,List.nil_append]
    constructor
    · simp only [if_true,List.length_cons]
      omega
    · simp only [ScheduledWithinLimit,scheduledCount,List.countP_cons,decide_true,if_true]
      omega

/-- One step below the limit keeps the accounting. -/
theorem step_governed [DecidableEq Job] (u : Usage Job) (e : Event Job) (v : Usage Job) (hu : Governed u)
    (hg : WithoutOvershoot u e) (hstep : usage.step u e = some v) : Governed v := by
  cases e with
  | schedule job =>
    obtain rfl := Option.some.inj hstep
    exact schedule_governed hu job
  | scheduleNow job =>
    obtain rfl := Option.some.inj hstep
    have hrun := hu.running
    have hsched := hu.scheduled
    constructor
    · simp [RateLimiter.scheduleNow,hrun]
    · simpa [ScheduledWithinLimit,scheduledCount,RateLimiter.scheduleNow] using hsched
  | cancel f =>
    obtain rfl := Option.some.inj hstep
    have hsched := hu.scheduled
    exact ⟨by simpa using hu.running,by simpa [ScheduledWithinLimit,scheduledCount] using hsched⟩
  | done a =>
    simp only [usage,Option.ite_none_right_eq_some,Option.some.injEq] at hstep
    obtain ⟨ha,rfl⟩ := hstep
    exact done_governed hu ha hg

/-! ### Without `schedule_now()` -/

def Event.bypasses : Event Job → Bool
  | .scheduleNow _ => true
  | _ => false

/-- Only `schedule_now()` goes beyond the limit. -/
theorem step_below [DecidableEq Job] (u : Usage Job) (e : Event Job) (v : Usage Job)
    (hu : u.limiter.running ≤ u.limiter.concurrency) (he : e.bypasses = false)
    (hstep : usage.step u e = some v) : v.limiter.running ≤ v.limiter.concurrency := by
  cases e with
  | schedule job =>
    obtain rfl := Option.some.inj hstep
    by_cases hroom : u.limiter.running < u.limiter.concurrency
    · simp only [RateLimiter.schedule_below hroom]
      omega
    · simpa only [RateLimiter.schedule_full hroom] using hu
  | scheduleNow job => cases he
  | cancel f =>
    obtain rfl := Option.some.inj hstep
    simpa using hu
  | done a =>
    simp only [usage,Option.ite_none_right_eq_some,Option.some.injEq] at hstep
    obtain ⟨-,rfl⟩ := hstep
    rw [RateLimiter.done_eq]
    dsimp only
    split_ifs <;> omega

theorem withoutOvershoot_of_schedule [DecidableEq Job] (c : ℤ) (h : 0 < c)
    {es : List (Event Job)} (hes : ∀ e ∈ es, e.bypasses = false) :
    usage.AllSteps WithoutOvershoot (new c h) es := by
  refine Machine.allSteps_of_guarded step_below (fun u e hu _ => ?_) ?_
    (Machine.allSteps_of_mem _ hes)
  · cases e with
    | done a => exact .inl hu
    | schedule | scheduleNow | cancel => trivial
  · simpa [new] using h.le

/-- The limit governs every queued job of a run exactly when no `done()` of the run
arrives above the limit while a job waits in the queue; none does in a run without
`schedule_now()`. -/
theorem limit_governs_iff [DecidableEq Job] (c : ℤ) (h : 0 < c) (es : List (Event Job)) :
    (usage.AllSteps StartsBelowLimit (new c h) es ∧
        usage.Always ScheduledWithinLimit (new c h) es ↔
      usage.AllSteps WithoutOvershoot (new c h) es) ∧
    ((∀ e ∈ es, e.bypasses = false) → usage.AllSteps WithoutOvershoot (new c h) es) := by
  have hguard : (StartsBelowLimit : Usage Job → Event Job → Prop) = WithoutOvershoot := by
    funext u e
    exact propext (startsBelowLimit_iff u e)
  rw [hguard]
  refine ⟨⟨And.left,fun hall => ⟨hall,?_⟩⟩,withoutOvershoot_of_schedule c h⟩
  exact Machine.always_of_guarded step_governed (fun _ hu => hu.scheduled) (new_governed c h) hall

/-- A client with one slot sends request 1, queues 2 and 3 and waits for 3. -/
def waitOnQueued : List (Event ℕ) :=
  [.schedule 1,.schedule 2,.schedule 3,.cancel (.queued 1),.scheduleNow 3,.done (.bypass,3)]

theorem limit_governs_two :
    0 < (2 : ℤ) ∧ usage.AllSteps WithoutOvershoot (new 2 (by decide))
      [Event.schedule 1,.schedule 2,.schedule 3,.done (.scheduled,1)] :=
  ⟨by decide,(limit_governs_iff 2 (by decide) _).1.mp (by decide)⟩

/-- Its reply starts request 2 beside request 1, which still holds the only slot. -/
theorem overshoot_kept :
    ¬ (usage.AllSteps StartsBelowLimit (new 1 (by decide)) waitOnQueued ∧
      usage.Always ScheduledWithinLimit (new 1 (by decide)) waitOnQueued) := by decide

end LimiterUsage
end UnityThumbnailer
