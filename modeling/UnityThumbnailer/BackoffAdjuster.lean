import Mathlib.Data.Int.Order.Basic
import Mathlib.Tactic.Common

/-! Exponential backoff for a remote server that fails. Points in time are nanoseconds
since the epoch of the system clock, periods are seconds. -/
namespace UnityThumbnailer

structure BackoffAdjuster where
  lastFailTime : ℤ
  backoffPeriod : ℤ
  minBackoff : ℤ
  maxBackoff : ℤ
  deriving DecidableEq

def nanosPerSecond : ℤ := 1000000000

namespace BackoffAdjuster

/-- The default-constructed adjuster. -/
def new : BackoffAdjuster := ⟨0,0,1,2⟩

/-- The first moment after which the current period counts as over. -/
def retryTime (b : BackoffAdjuster) : ℤ := b.lastFailTime+b.backoffPeriod*nanosPerSecond

def retryOk (b : BackoffAdjuster) (now : ℤ) : Bool :=
  if b.backoffPeriod = 0 then true else b.retryTime < now

/-- Note a temporary failure; the flag tells whether the period was started or extended. -/
def adjustRetryLimit (b : BackoffAdjuster) (now : ℤ) : BackoffAdjuster × Bool :=
  if b.backoffPeriod = 0 then
    -- from "no failure" to "temporary failure"
    ({ b with backoffPeriod := b.minBackoff, lastFailTime := now },true)
  else if b.retryTime < now then
    ({ b with backoffPeriod := min (2*b.backoffPeriod) b.maxBackoff, lastFailTime := now },true)
  else (b,false)

/-- Back to "no failure", but not while the current period is in effect. -/
def reset (b : BackoffAdjuster) (now : ℤ) : BackoffAdjuster :=
  if b.backoffPeriod ≠ 0 then
    if b.retryTime < now then { b with backoffPeriod := 0, lastFailTime := 0 } else b
  else b

def setLastFailTime (b : BackoffAdjuster) (failTime : ℤ) : BackoffAdjuster :=
  { b with lastFailTime := failTime }

/-! The other setters check their argument: a failed assertion ends the process, and the
text of its condition is all that is left. -/

def setBackoffPeriod (b : BackoffAdjuster) (backoffPeriod : ℤ) : Except String BackoffAdjuster :=
  if backoffPeriod ≤ b.maxBackoff then .ok { b with backoffPeriod := backoffPeriod }
  else .error "backoff_period <= max_backoff_"

def setMinBackoff (b : BackoffAdjuster) (minBackoff : ℤ) : Except String BackoffAdjuster :=
  if 0 < minBackoff then .ok { b with minBackoff := minBackoff }
  else .error "min_backoff.count() > 0"

def setMaxBackoff (b : BackoffAdjuster) (maxBackoff : ℤ) : Except String BackoffAdjuster :=
  if ¬ 0 < maxBackoff then .error "max_backoff.count() > 0"
  else if ¬ 2*b.minBackoff ≤ maxBackoff then
    .error "max_backoff.count() >= 2 * min_backoff_.count()"
  else .ok { b with maxBackoff := maxBackoff }

theorem setMinBackoff_of_pos (b : BackoffAdjuster) {minBackoff : ℤ} (h : 0 < minBackoff) :
    b.setMinBackoff minBackoff = .ok { b with minBackoff := minBackoff } := if_pos h

theorem setBackoffPeriod_of_le (b : BackoffAdjuster) {period : ℤ} (h : period ≤ b.maxBackoff) :
    b.setBackoffPeriod period = .ok { b with backoffPeriod := period } := if_pos h

/-- Of the two assertions of `set_max_backoff()` the second implies the first. -/
theorem setMaxBackoff_ok_iff {b c : BackoffAdjuster} {maxBackoff : ℤ} (hmin : 0 < b.minBackoff) :
    b.setMaxBackoff maxBackoff = .ok c ↔
      2*b.minBackoff ≤ maxBackoff ∧ { b with maxBackoff := maxBackoff } = c := by
  by_cases htwice : 2*b.minBackoff ≤ maxBackoff
  · have hpos : 0 < maxBackoff := by omega
    simp [setMaxBackoff,htwice,hpos]
  · by_cases hpos : 0 < maxBackoff <;> simp [setMaxBackoff,htwice,hpos]

section Retry

variable {b : BackoffAdjuster} {now later : ℤ}

theorem retryOk_iff : b.retryOk now = true ↔ b.backoffPeriod = 0 ∨ b.retryTime < now := by
  unfold retryOk
  split <;> simp [*]

theorem retryOk_false_iff : b.retryOk now = false ↔ b.backoffPeriod ≠ 0 ∧ now ≤ b.retryTime := by
  rw [← Bool.not_eq_true,retryOk_iff,not_or,not_lt]

theorem retryOk_mono (h : b.retryOk now = true) (hle : now ≤ later) : b.retryOk later = true := by
  rw [retryOk_iff] at h ⊢
  exact h.imp id fun hlt => lt_of_lt_of_le hlt hle

theorem reset_retryOk (h : b.retryOk now = true) : (b.reset now).retryOk now = true := by
  unfold reset
  split_ifs with hperiod hover
  · simp [retryOk_iff]
  · exact h
  · exact h

/-- The adjuster after a failure that counts. -/
def extended (b : BackoffAdjuster) (now : ℤ) : BackoffAdjuster :=
  { b with
    lastFailTime := now
    backoffPeriod :=
      if b.backoffPeriod = 0 then b.minBackoff else min (2*b.backoffPeriod) b.maxBackoff }

/-- A failure counts exactly when a retry is due. -/
theorem adjustRetryLimit_of_ok (h : b.retryOk now = true) :
    b.adjustRetryLimit now = (b.extended now,true) := by
  unfold adjustRetryLimit extended
  by_cases hzero : b.backoffPeriod = 0
  · simp only [hzero,if_true]
  · have hover : b.retryTime < now := (retryOk_iff.mp h).resolve_left hzero
    simp only [hzero,hover,if_false,if_true]

theorem adjustRetryLimit_of_not_ok (h : b.retryOk now = false) :
    b.adjustRetryLimit now = (b,false) := by
  obtain ⟨hzero,hle⟩ := retryOk_false_iff.mp h
  simp only [adjustRetryLimit,hzero,not_lt.mpr hle,if_false]

theorem adjustRetryLimit_snd (b : BackoffAdjuster) (now : ℤ) :
    (b.adjustRetryLimit now).2 = b.retryOk now := by
  cases h : b.retryOk now with
  | true => rw [adjustRetryLimit_of_ok h]
  | false => rw [adjustRetryLimit_of_not_ok h]

theorem reset_of_zero (h : b.backoffPeriod = 0) : b.reset now = b := by
  simp only [reset,h,ne_eq,not_true_eq_false,if_false]

theorem reset_of_over (hzero : b.backoffPeriod ≠ 0) (hover : b.retryTime < now) :
    b.reset now = { b with backoffPeriod := 0, lastFailTime := 0 } := by
  simp only [reset,hzero,ne_eq,not_false_eq_true,hover,if_true]

theorem reset_of_not_ok (h : b.retryOk now = false) : b.reset now = b := by
  obtain ⟨hzero,hle⟩ := retryOk_false_iff.mp h
  simp only [reset,hzero,ne_eq,not_false_eq_true,not_lt.mpr hle,if_true,if_false]

/-- A reset has an effect exactly when a period is in force and over. -/
theorem reset_eq_self_iff : b.reset now = b ↔ ¬ (b.backoffPeriod ≠ 0 ∧ b.retryTime < now) := by
  by_cases h : b.backoffPeriod ≠ 0 ∧ b.retryTime < now
  · refine iff_of_false (fun hself => h.1 ?_) (not_not.mpr h)
    rw [reset_of_over h.1 h.2] at hself
    exact (congrArg BackoffAdjuster.backoffPeriod hself).symm
  · refine iff_of_true ?_ h
    by_cases hzero : b.backoffPeriod = 0
    · exact reset_of_zero hzero
    · exact reset_of_not_ok (retryOk_false_iff.mpr ⟨hzero,not_lt.mp fun hlt => h ⟨hzero,hlt⟩⟩)

end Retry

end BackoffAdjuster
end UnityThumbnailer
