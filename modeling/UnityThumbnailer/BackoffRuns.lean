import Mathlib.Data.List.Chain
import UnityThumbnailer.BackoffAdjuster
import UnityThumbnailer.EventSystem
import Mathlib.Tactic.Ring

/-! Runs of the adjuster, with the failures that it has accepted since it was last reset. -/
namespace UnityThumbnailer

open EventSystem

namespace BackoffRuns

inductive Op
  | adjustRetryLimit
  | reset
  | retryOk

/-- An accepted failure, with the period that it set. -/
structure Accepted where
  time : ℤ
  period : ℤ

/-- The adjuster, and the failures accepted since the last effective reset, newest first. -/
structure Run where
  backoff : BackoffAdjuster
  accepted : List Accepted

/-- A reset is effective if there is a period and it is over. -/
def exec (s : Run) (now : ℤ) : Op → Run
  | .adjustRetryLimit =>
    let r := s.backoff.adjustRetryLimit now
    ⟨r.1,if r.2 then ⟨now,r.1.backoffPeriod⟩ :: s.accepted else s.accepted⟩
  | .reset =>
    ⟨s.backoff.reset now,
      if s.backoff.backoffPeriod ≠ 0 ∧ s.backoff.retryOk now = true then [] else s.accepted⟩
  | .retryOk => s

/-- Operations at the times that the clock shows. -/
def runs : Machine Run (ℤ × Op) where
  step s e := some (exec s e.1 e.2)

def start (minBackoff maxBackoff : ℤ) : Run := ⟨⟨0,0,minBackoff,maxBackoff⟩,[]⟩

/-- It is what the setters make of a new adjuster. -/
theorem start_backoff {minBackoff maxBackoff : ℤ} (hmin : 0 < minBackoff)
    (hmax : 2*minBackoff ≤ maxBackoff) :
    (BackoffAdjuster.new.setMinBackoff minBackoff).bind (·.setMaxBackoff maxBackoff) =
      .ok (start minBackoff maxBackoff).backoff := by
  rw [BackoffAdjuster.setMinBackoff_of_pos _ hmin]
  exact (BackoffAdjuster.setMaxBackoff_ok_iff hmin).mpr ⟨hmax,rfl⟩

/-- A failure is accepted only when the period that its predecessor set is over. -/
def Spaced (later earlier : Accepted) : Prop :=
  earlier.time+earlier.period*nanosPerSecond < later.time

/-- The period as a function of the history, and what the operations do at any moment. -/
structure ClosedForm (minBackoff maxBackoff : ℤ) (s : Run) : Prop where
  zero_iff : s.backoff.backoffPeriod = 0 ↔ s.accepted = []
  period : s.accepted ≠ [] →
    s.backoff.backoffPeriod = min (minBackoff*2^(s.accepted.length-1)) maxBackoff
  accepts_iff : ∀ now, (s.backoff.adjustRetryLimit now).2 = true ↔ s.backoff.retryOk now = true
  frozen : ∀ now, s.backoff.retryOk now = false →
    (s.backoff.adjustRetryLimit now).1 = s.backoff ∧ s.backoff.reset now = s.backoff
  spaced : s.accepted.IsChain Spaced

/-- The period after a history of accepted failures. -/
def periodAfter (minBackoff maxBackoff : ℤ) : List Accepted → ℤ
  | [] => 0
  | _::earlier => min (minBackoff*2^earlier.length) maxBackoff

/-- The adjuster is what the history makes of it. -/
structure Recorded (minBackoff maxBackoff : ℤ) (s : Run) : Prop where
  bounds : s.backoff.minBackoff = minBackoff ∧ s.backoff.maxBackoff = maxBackoff
  period : s.backoff.backoffPeriod = periodAfter minBackoff maxBackoff s.accepted
  newest : ∀ a ∈ s.accepted.head?, a.time = s.backoff.lastFailTime ∧
    a.period = s.backoff.backoffPeriod
  spaced : s.accepted.IsChain Spaced

section

variable {minBackoff maxBackoff : ℤ}

/-- Doubling a period and cutting it off is the same as cutting it off at every doubling. -/
theorem min_double (hmax : 0 < maxBackoff) (period : ℤ) :
    min (2*min period maxBackoff) maxBackoff = min (2*period) maxBackoff := by
  rcases le_total period maxBackoff with hle | hle
  · rw [min_eq_left hle]
  · rw [min_eq_right hle,min_eq_right (by omega : maxBackoff ≤ 2*maxBackoff),
      min_eq_right (by omega : maxBackoff ≤ 2*period)]

variable (hmin : 0 < minBackoff) (hmax : 2*minBackoff ≤ maxBackoff)
include hmin hmax

theorem periodAfter_pos (a : Accepted) (earlier : List Accepted) :
    0 < periodAfter minBackoff maxBackoff (a::earlier) :=
  lt_min (Int.mul_pos hmin (Int.pow_pos (by decide))) (by omega)

theorem periodAfter_eq_zero_iff (accepted : List Accepted) :
    periodAfter minBackoff maxBackoff accepted = 0 ↔ accepted = [] := by
  cases accepted with
  | nil => exact iff_of_true rfl rfl
  | cons a earlier =>
    have hpos := periodAfter_pos hmin hmax a earlier
    exact iff_of_false (ne_of_gt hpos) (List.cons_ne_nil a earlier)

/-- Accepting a failure lengthens the history by one. -/
theorem Recorded.extended {s : Run} (h : Recorded minBackoff maxBackoff s) (now : ℤ)
    (a : Accepted) :
    (s.backoff.extended now).backoffPeriod =
      periodAfter minBackoff maxBackoff (a::s.accepted) := by
  obtain ⟨b,accepted⟩ := s
  have hperiod : b.backoffPeriod = periodAfter minBackoff maxBackoff accepted := h.period
  have hzero := periodAfter_eq_zero_iff hmin hmax accepted
  obtain ⟨rfl,rfl⟩ : b.minBackoff = minBackoff ∧ b.maxBackoff = maxBackoff := h.bounds
  cases accepted with
  | nil =>
    simp only [BackoffAdjuster.extended,hperiod,if_true,periodAfter,List.length_nil]
    rw [pow_zero,mul_one,min_eq_left (by omega)]
  | cons c earlier =>
    simp only [BackoffAdjuster.extended,hperiod,hzero,reduceCtorEq,if_false]
    simp only [periodAfter,List.length_cons]
    rw [min_double (by omega),pow_succ]
    congr 1
    ring

theorem Recorded.toClosedForm {s : Run} (h : Recorded minBackoff maxBackoff s) :
    ClosedForm minBackoff maxBackoff s where
  zero_iff := by
    rw [h.period]
    exact periodAfter_eq_zero_iff hmin hmax s.accepted
  period hne := by
    rw [h.period]
    cases hs : s.accepted with
    | nil => exact absurd hs hne
    | cons a earlier => rfl
  accepts_iff now := by rw [BackoffAdjuster.adjustRetryLimit_snd]
  frozen now hfrozen :=
    ⟨by rw [BackoffAdjuster.adjustRetryLimit_of_not_ok hfrozen],
      BackoffAdjuster.reset_of_not_ok hfrozen⟩
  spaced := h.spaced

/-- One operation keeps the adjuster and its history together. -/
theorem Recorded.exec {s : Run} (h : Recorded minBackoff maxBackoff s) (now : ℤ) (op : Op) :
    Recorded minBackoff maxBackoff (BackoffRuns.exec s now op) := by
  cases op with
  | retryOk => exact h
  | reset =>
    simp only [BackoffRuns.exec]
    split_ifs with heffective
    · obtain ⟨hset,hok⟩ := heffective
      have hover := (BackoffAdjuster.retryOk_iff.mp hok).resolve_left hset
      rw [BackoffAdjuster.reset_of_over hset hover]
      exact ⟨h.bounds,rfl,by simp,List.isChain_nil⟩
    · have hself : s.backoff.reset now = s.backoff :=
        BackoffAdjuster.reset_eq_self_iff.mpr fun hover =>
          heffective ⟨hover.1,BackoffAdjuster.retryOk_iff.mpr (.inr hover.2)⟩
      rw [hself]
      exact h
  | adjustRetryLimit =>
    cases hok : s.backoff.retryOk now with
    | false =>
      simp only [BackoffRuns.exec,BackoffAdjuster.adjustRetryLimit_of_not_ok hok,
        Bool.false_eq_true,if_false]
      exact h
    | true =>
      simp only [BackoffRuns.exec,BackoffAdjuster.adjustRetryLimit_of_ok hok,if_true]
      refine ⟨h.bounds,h.extended hmin hmax now _,by simp [BackoffAdjuster.extended],?_⟩
      cases hs : s.accepted with
      | nil => exact List.isChain_singleton _
      | cons a earlier =>
        refine List.isChain_cons_cons.mpr ⟨?_,hs ▸ h.spaced⟩
        -- the failure is accepted, so the period of the one before it is over
        obtain ⟨htime,hperiod⟩ := h.newest a (by rw [hs]; rfl)
        have hne : s.backoff.backoffPeriod ≠ 0 := by
          rw [h.period,hs]
          exact ne_of_gt (periodAfter_pos hmin hmax a earlier)
        have hover := (BackoffAdjuster.retryOk_iff.mp hok).resolve_left hne
        unfold Spaced
        rw [htime,hperiod]
        exact hover

end

/-- In every run from the initial state, whatever the clock shows, the period doubles with
each accepted failure from the minimum up to the maximum. -/
theorem period_closedForm (minBackoff maxBackoff : ℤ) (hmin : 0 < minBackoff)
    (hmax : 2*minBackoff ≤ maxBackoff) (es : List (ℤ × Op)) :
    runs.Always (ClosedForm minBackoff maxBackoff) (start minBackoff maxBackoff) es := by
  have hstep : ∀ s e t, Recorded minBackoff maxBackoff s → runs.step s e = some t →
      Recorded minBackoff maxBackoff t := by
    rintro s ⟨now,op⟩ t hs ht
    obtain rfl := Option.some.inj ht
    exact hs.exec hmin hmax now op
  exact Machine.always_of_invariant hstep (fun _ hs => hs.toClosedForm hmin hmax) es
    ⟨⟨rfl,rfl⟩,rfl,by simp [start],List.isChain_nil⟩

/-- Two failures, the second after the first period, a reset that comes too early and one that
is effective. -/
theorem period_closedForm_twoFailures : runs.Always (ClosedForm 20 7200) (start 20 7200)
    [(0,.adjustRetryLimit),(21*nanosPerSecond,.retryOk),(21*nanosPerSecond,.adjustRetryLimit),
      (22*nanosPerSecond,.reset),(62*nanosPerSecond,.reset)] :=
  period_closedForm 20 7200 (by decide) (by decide) _

end BackoffRuns
end UnityThumbnailer
