import UnityThumbnailer.BackoffRestore

/-! The time until the server is contacted again. The moment of the last failure is read from
the system clock and survives restarts, so a clock that is set back makes the wait longer. -/
namespace UnityThumbnailer

open EventSystem Startup BackoffRestore

namespace BoundedWait

/-- The event at the time that the clock shows. -/
def timedEvent (now : ℤ) : Event → Event
  | .failed _ => .failed now
  | .answered _ => .answered now
  | e => e

/-- The service on its cache directory, and the last reading of the system clock. -/
structure Clocked where
  host : Host
  clock : ℤ

/-- All runs on one cache directory, with the readings of the clock. -/
def clocked : Machine Clocked (ℤ × Event) where
  step s e := (restarts.step s.host (timedEvent e.1 e.2)).map (⟨·,e.1⟩)

/-- If the server may not be contacted, the wait is at most the maximum. -/
def WaitBounded (s : Clocked) (e : ℤ × Event) : Prop :=
  ∀ b ∈ s.host.running, b.retryOk e.1 = false →
    b.retryTime-e.1 ≤ b.maxBackoff*nanosPerSecond

/-- The clock is not so far behind the failure on record as the period falls short of the
maximum. -/
def NotSetBack (s : Clocked) (e : ℤ × Event) : Prop :=
  ∀ b ∈ s.host.running, b.backoffPeriod ≠ 0 →
    b.lastFailTime-(b.maxBackoff-b.backoffPeriod)*nanosPerSecond ≤ e.1

/-- The clock never goes back. -/
def Onward (s : Clocked) (e : ℤ × Event) : Prop := s.clock ≤ e.1

instance (s : Clocked) (e : ℤ × Event) : Decidable (Onward s e) :=
  inferInstanceAs (Decidable (s.clock ≤ e.1))

/-! ### Restored adjusters -/

/-- The time in the failure cache is that of a failure, and not later than `clock`. -/
def NotLater (clock : ℤ) (e : Stored) : Prop :=
  e.key = CacheKeys.lastNetworkFailTimeKey →
    ∀ n, e.value.toInt? = some n → 0 ≤ n ∧ n*nanosPerSecond ≤ clock

/-- The failure on record is not later than `clock`. -/
def FailedBy (clock : ℤ) (b : BackoffAdjuster) : Prop :=
  0 ≤ b.lastFailTime ∧ b.lastFailTime ≤ clock

section Restore

variable {s : Host} {v : Version} {settings : Settings} {io : StartScript} {b : BackoffAdjuster}

theorem restoreFailTime_stored {d : CacheDir} {c : BackoffAdjuster}
    (h : restoreFailTime d b = .ok c) : c.lastFailTime = b.lastFailTime ∨
      ∃ e ∈ d.entries .failure, e.key = CacheKeys.lastNetworkFailTimeKey ∧
        ∃ n, e.value.toInt? = some n ∧ c.lastFailTime = n*nanosPerSecond := by
  unfold restoreFailTime at h
  cases hfind : d.find .failure CacheKeys.lastNetworkFailTimeKey with
  | none =>
    simp only [hfind] at h
    exact Or.inl (congrArg BackoffAdjuster.lastFailTime (Except.ok.inj h).symm)
  | some text =>
    obtain ⟨e,he,hkey,rfl⟩ := CacheDir.find_some hfind
    simp only [hfind,stoll] at h
    cases hparse : e.value.toInt? with
    | none =>
      simp only [hparse] at h
      cases h
    | some n =>
      simp only [hparse] at h
      obtain rfl := Except.ok.inj h
      exact Or.inr ⟨e,he,hkey,n,hparse,rfl⟩

theorem restorePeriod_lastFailTime {d : CacheDir} {c : BackoffAdjuster}
    (h : restorePeriod d b = .ok c) : c.lastFailTime = b.lastFailTime := by
  rw [restorePeriod_eq] at h
  split_ifs at h
  · exact congrArg BackoffAdjuster.lastFailTime (Except.ok.inj h).symm
  · cases hstored : storedPeriod d with
    | none =>
      rw [hstored] at h
      cases h
    | some n =>
      simp only [hstored,BackoffAdjuster.setBackoffPeriod] at h
      split_ifs at h
      · obtain rfl := Except.ok.inj h
        rfl
      · cases h

theorem configure_lastFailTime {m : Members} (h : configure settings = .ok m) :
    m.backoff.lastFailTime = 0 := by
  rcases configure_cases settings with ⟨what,hwhat⟩ | ⟨timeout,hours,haccepted⟩
  · rw [hwhat] at h
    cases h
  · obtain ⟨m',hbackoff,hconfigure⟩ := configure_accepted haccepted
    rw [hconfigure] at h
    split_ifs at h
    obtain rfl := Except.ok.inj h
    rw [hbackoff]
    rfl

/-- The time of the last failure is restored from the failure cache, or there is none. -/
theorem prepare_lastFailTime {d : CacheDir} {m : Members} (h : prepare settings d = .ok m) :
    m.backoff.lastFailTime = 0 ∨ ∃ e ∈ d.entries .failure,
      e.key = CacheKeys.lastNetworkFailTimeKey ∧ ∃ n, e.value.toInt? = some n ∧
        m.backoff.lastFailTime = n*nanosPerSecond := by
  cases hm : configure settings with
  | error e =>
    rw [prepare_of_rejected hm] at h
    cases h
  | ok m' =>
    cases hb : restoreFailTime d m'.backoff with
    | error e =>
      rw [prepare_of_unreadable hm hb] at h
      cases h
    | ok c =>
      rw [prepare_eq hm hb] at h
      cases hperiod : restorePeriod d c with
      | error e =>
        rw [hperiod] at h
        cases h
      | ok c' =>
        rw [hperiod] at h
        obtain rfl := Except.ok.inj h
        rw [restorePeriod_lastFailTime hperiod,← configure_lastFailTime hm]
        exact restoreFailTime_stored hb

theorem start_failedBy {clock : ℤ} (hclock : 0 ≤ clock)
    (hstored : ∀ e ∈ s.dir.entries .failure, NotLater clock e)
    (h : (s.start v settings io).running = some b) : FailedBy clock b := by
  obtain ⟨m,hprepare,happly⟩ := start_running h
  rcases applyUpgradeActions_cases happly with rfl | rfl
  · rcases prepare_lastFailTime hprepare with hzero | ⟨e,he,hkey,n,hn,htime⟩
    · exact ⟨hzero.ge,hzero.trans_le hclock⟩
    · obtain ⟨hpos,hle⟩ := hstored e he hkey n hn
      exact ⟨htime ▸ Int.mul_nonneg hpos (by decide),htime.trans_le hle⟩
  · exact ⟨le_rfl,hclock⟩

end Restore

/-! ### Runs -/

section Steps

variable {s t : Clocked} {e : ℤ × Event} {b : BackoffAdjuster} {now : ℤ}

theorem adjustRetryLimit_lastFailTime (b : BackoffAdjuster) (now : ℤ) :
    (b.adjustRetryLimit now).1.lastFailTime = now ∨
      (b.adjustRetryLimit now).1.lastFailTime = b.lastFailTime := by
  cases hok : b.retryOk now with
  | true =>
    rw [BackoffAdjuster.adjustRetryLimit_of_ok hok]
    exact Or.inl rfl
  | false =>
    rw [BackoffAdjuster.adjustRetryLimit_of_not_ok hok]
    exact Or.inr rfl

theorem reset_lastFailTime (b : BackoffAdjuster) (now : ℤ) :
    (b.reset now).lastFailTime = 0 ∨ (b.reset now).lastFailTime = b.lastFailTime := by
  by_cases hover : b.backoffPeriod ≠ 0 ∧ b.retryTime < now
  · rw [BackoffAdjuster.reset_of_over hover.1 hover.2]
    exact Or.inl rfl
  · rw [BackoffAdjuster.reset_eq_self_iff.mpr hover]
    exact Or.inr rfl

theorem carries_failedBy {clock : ℤ} (hclock : 0 ≤ clock) :
    Carries (FailedBy clock) (NotLater clock) where
  zero _ _ := ⟨le_rfl,hclock⟩
  put key value version hfree hkey := by
    obtain rfl : key = _ := hkey
    exact absurd hfree (by decide)
  failTime b version hb _ n hn := by
    have hparse : (toString (b.lastFailTime.tdiv nanosPerSecond)).toInt? =
        some (b.lastFailTime.tdiv nanosPerSecond) := by simp
    obtain rfl : b.lastFailTime.tdiv nanosPerSecond = n := Option.some.inj (hparse.symm.trans hn)
    refine ⟨Int.tdiv_nonneg hb.1 (by decide),le_trans ?_ hb.2⟩
    rw [Int.tdiv_eq_ediv_of_nonneg hb.1]
    exact Int.ediv_mul_le _ (by decide)
  period b version _ hkey := absurd hkey.symm reserved_ne

/-- While the clock goes forward, no failure on record is in the future. -/
structure InTime (s : Clocked) : Prop where
  bounded : Carried Bounded (fun _ => True) s.host
  clock_nonneg : 0 ≤ s.clock
  failed : Carried (FailedBy s.clock) (NotLater s.clock) s.host

/-- One step keeps the adjuster within its bounds, whatever the clock shows. -/
theorem clocked_bounded (h : Carried Bounded (fun _ => True) s.host)
    (ht : clocked.step s e = some t) : Carried Bounded (fun _ => True) t.host := by
  obtain ⟨u,hu,rfl⟩ := Option.map_eq_some_iff.mp ht
  exact step_bounded h hu

theorem InTime.step (h : InTime s) (hg : Onward s e) (ht : clocked.step s e = some t) :
    InTime t := by
  have hbounded := clocked_bounded h.bounded ht
  obtain ⟨now,e⟩ := e
  obtain ⟨u,hu,rfl⟩ := Option.map_eq_some_iff.mp ht
  have hnow : 0 ≤ now := h.clock_nonneg.trans hg
  have hlater : Carried (FailedBy now) (NotLater now) s.host := by
    refine ⟨fun b hb => ?_,fun f hf hkey n hn => ?_⟩
    · obtain ⟨hpos,hle⟩ := h.failed.running b hb
      exact ⟨hpos,hle.trans hg⟩
    · obtain ⟨hpos,hle⟩ := h.failed.stored f hf hkey n hn
      exact ⟨hpos,hle.trans hg⟩
  refine ⟨hbounded,hnow,hlater.step (carries_failedBy hnow)
    (fun v settings io _ b hb => start_failedBy hnow hlater.stored hb) (fun m b he hb => ?_)
    (fun m b _ hb => ?_) hu⟩
  · obtain rfl : now = m := by
      cases e <;> first | exact Event.failed.inj he | cases he
    rcases adjustRetryLimit_lastFailTime b now with htime | htime
    · exact ⟨hnow.trans_eq htime.symm,htime.le⟩
    · exact ⟨le_of_le_of_eq hb.1 htime.symm,le_of_eq_of_le htime hb.2⟩
  · rcases reset_lastFailTime b m with htime | htime
    · exact ⟨htime.ge,le_of_eq_of_le htime hnow⟩
    · exact ⟨le_of_le_of_eq hb.1 htime.symm,le_of_eq_of_le htime hb.2⟩

theorem waitBounded_iff (h : Carried Bounded (fun _ => True) s.host) :
    WaitBounded s e ↔ NotSetBack s e := by
  refine forall_congr' fun b => forall_congr' fun hb => ?_
  obtain ⟨hpos,htwice,-⟩ := h.running b hb
  rw [BackoffAdjuster.retryOk_false_iff]
  unfold BackoffAdjuster.retryTime nanosPerSecond
  constructor
  · intro hwait hzero
    by_cases hle : e.1 ≤ b.lastFailTime+b.backoffPeriod*1000000000
    · have := hwait ⟨hzero,hle⟩
      omega
    · omega
  · rintro hback ⟨hzero,-⟩
    have := hback hzero
    omega

theorem InTime.waitBounded (h : InTime s) (hg : Onward s e) : WaitBounded s e := by
  refine (waitBounded_iff h.bounded).mpr fun b hb _ => ?_
  have hle := (h.bounded.running b hb).period_le
  have hfailed : b.lastFailTime ≤ s.clock := (h.failed.running b hb).2
  have honward : s.clock ≤ e.1 := hg
  unfold nanosPerSecond
  omega

end Steps

/-- Along all runs of the service on a cache directory, the wait is bounded exactly when the
clock is never set back too far behind the failure on record; so it is when the clock is
never set back at all, and no failure of the future is stored at first. -/
theorem boundedWait (s : Clocked) (es : List (ℤ × Event)) (hs : s.host.running = none) :
    (clocked.AllSteps WaitBounded s es ↔ clocked.AllSteps NotSetBack s es) ∧
      (0 ≤ s.clock → (∀ e ∈ s.host.dir.entries .failure, NotLater s.clock e) →
        clocked.AllSteps Onward s es → clocked.AllSteps WaitBounded s es) := by
  have hbounded : Carried Bounded (fun _ => True) s.host := ⟨by simp [hs],fun _ _ => trivial⟩
  refine ⟨?_,fun hclock hstored honward => ?_⟩
  · exact Machine.allSteps_iff_of_invariant (fun _ _ _ h ht => clocked_bounded h ht)
      (fun _ _ h => waitBounded_iff h) es hbounded
  · have hinit : InTime s := ⟨hbounded,hclock,by simp [hs],hstored⟩
    exact Machine.allSteps_of_guarded (fun _ _ _ h hg ht => h.step hg ht)
      (fun _ _ h hg => h.waitBounded hg) hinit honward

/-- The server fails twice, and is contacted again after each of the periods. -/
def twoFailures : List (ℤ × Event) :=
  [(1000000*nanosPerSecond,.start release defaultSettings ordinaryStart),
    (1000000*nanosPerSecond,.failed 0),(1000021*nanosPerSecond,.failed 0),
    (1000062*nanosPerSecond,.answered 0)]

theorem boundedWait_twoFailures : emptyHost.running = none ∧
    clocked.AllSteps Onward ⟨emptyHost,0⟩ twoFailures ∧
      clocked.AllSteps WaitBounded ⟨emptyHost,0⟩ twoFailures := by
  have honward : clocked.AllSteps Onward ⟨emptyHost,0⟩ twoFailures := by decide
  have hempty : ∀ e ∈ emptyHost.dir.entries .failure, NotLater 0 e := fun e he => by cases he
  exact ⟨rfl,honward,(boundedWait ⟨emptyHost,0⟩ twoFailures rfl).2 le_rfl hempty honward⟩

/-! ### A clock that is set back -/

/-- The server fails at noon, and half an hour later the clock is put right by a day; an
event that leaves everything as it is reads it. -/
def putRight : List (ℤ × Event) :=
  [(1000000*nanosPerSecond,.start release defaultSettings ordinaryStart),
    (1000000*nanosPerSecond,.failed 0),
    (915400*nanosPerSecond,.drop .failure fun _ => true)]

/-- The server is not contacted for another day, with a maximum of two hours. -/
theorem putRight_unbounded : ¬ clocked.AllSteps WaitBounded ⟨emptyHost,0⟩ putRight := by
  intro h
  obtain ⟨t,b,hrun,hrunning,htime,hperiod,hmax⟩ : ∃ t b,
      clocked.run ⟨emptyHost,0⟩ (putRight.take 2) = some t ∧ t.host.running = some b ∧
        b.lastFailTime = 1000000000000000 ∧ b.backoffPeriod = 20 ∧ b.maxBackoff = 7200 :=
    ⟨_,_,rfl,rfl,rfl,rfl,rfl⟩
  have hretry : b.retryTime = 1000020000000000 := by
    rw [BackoffAdjuster.retryTime,htime,hperiod]
    rfl
  have hwait : WaitBounded t (915400*nanosPerSecond,.drop .failure fun _ => true) :=
    @Machine.allSteps_prefix _ _ clocked WaitBounded _ _ (putRight.take 2) [] _ h hrun
  have hlong := hwait b hrunning (BackoffAdjuster.retryOk_false_iff.mpr
    ⟨by rw [hperiod]; decide,by rw [hretry]; decide⟩)
  rw [hretry,hmax] at hlong
  exact absurd hlong (by decide)

end BoundedWait
end UnityThumbnailer
