import UnityThumbnailer.Startup

/-! The backoff period across restarts: a run of the service stores it under its own
maximum, and the next run checks it against the maximum of its own settings. -/
namespace UnityThumbnailer

open EventSystem Startup

namespace BackoffRestore

def periodAssertion : Failure := .assertion "backoff_period <= max_backoff_"

/-- The assertion of `set_backoff_period()` has not failed in the last construction, and the
period in force is at most the maximum. -/
def PeriodAdmitted (s : Host) : Prop :=
  s.failure ≠ some periodAssertion ∧ ∀ b ∈ s.running, b.backoffPeriod ≤ b.maxBackoff

/-- The backoff period in the failure cache. -/
def storedPeriod (d : CacheDir) : Option ℤ :=
  (d.find .failure CacheKeys.backoffPeriodKey).bind String.toInt?

/-- A start finds no stored period above the maximum that its settings give. -/
def RestoresAdmitted (s : Host) : Event → Prop
  | .start _ settings _ => ∀ m n, configure settings = .ok m →
      (∃ b, restoreFailTime s.dir m.backoff = .ok b) → storedPeriod s.dir = some n →
        n ≤ m.backoff.maxBackoff
  | _ => True

/-- An adjuster whose assertions hold. -/
structure Bounded (b : BackoffAdjuster) : Prop where
  min_pos : 0 < b.minBackoff
  twice_min_le : 2*b.minBackoff ≤ b.maxBackoff
  period_le : b.backoffPeriod ≤ b.maxBackoff

/-! ### The adjuster keeps its bounds -/

section Adjuster

variable {b : BackoffAdjuster} (h : Bounded b)
include h

theorem Bounded.adjustRetryLimit (now : ℤ) : Bounded (b.adjustRetryLimit now).1 := by
  obtain ⟨hpos,htwice,hle⟩ := h
  unfold BackoffAdjuster.adjustRetryLimit
  split_ifs
  · exact ⟨hpos,htwice,by dsimp only; omega⟩
  · exact ⟨hpos,htwice,min_le_right _ _⟩
  · exact ⟨hpos,htwice,hle⟩

theorem Bounded.zero (failTime : ℤ) :
    Bounded { b with backoffPeriod := 0, lastFailTime := failTime } :=
  ⟨h.min_pos,h.twice_min_le,by have := h.min_pos; have := h.twice_min_le; dsimp only; omega⟩

theorem Bounded.reset (now : ℤ) : Bounded (b.reset now) := by
  unfold BackoffAdjuster.reset
  split_ifs
  · exact h.zero 0
  · exact h
  · exact h

end Adjuster

/-! ### The constructor -/

section Constructor

variable {settings : Settings} {d : CacheDir} {m : Members}

/-- Either a setting is rejected, or all are accepted. -/
theorem configure_cases (settings : Settings) :
    (∃ what, configure settings = .error (.exception what)) ∨
      ∃ timeout hours, settings.Accepted timeout hours := by
  unfold configure
  cases hfull : settings.fullSizeCacheSize with
  | error e => exact Or.inl ⟨e,rfl⟩
  | ok fullSize =>
  cases hthumb : settings.thumbnailCacheSize with
  | error e => exact Or.inl ⟨e,rfl⟩
  | ok thumbnail =>
  cases hfail : settings.failureCacheSize with
  | error e => exact Or.inl ⟨e,rfl⟩
  | ok failure =>
  cases hsize : settings.maxThumbnailSize with
  | error e => exact Or.inl ⟨e,rfl⟩
  | ok maxSize =>
  cases hretry : settings.retryNotFoundHours with
  | error e => exact Or.inl ⟨e,rfl⟩
  | ok retryHours =>
  cases htimeout : settings.extractionTimeout with
  | error e => exact Or.inl ⟨e,rfl⟩
  | ok timeout =>
  cases hhours : settings.retryErrorHours with
  | ok hours =>
    exact Or.inr ⟨timeout,hours,⟨_,hfull⟩,⟨_,hthumb⟩,⟨_,hfail⟩,⟨_,hsize⟩,⟨_,hretry⟩,
      htimeout,hhours⟩
  | error e =>
    left
    have hmin := BackoffAdjuster.setMinBackoff_of_pos .new
      (show 0 < timeout*2 by have := getPositiveInt_pos htimeout; omega)
    have hmax : settings.retryErrorMaxSeconds = .error e := by
      unfold Settings.retryErrorMaxSeconds
      rw [hhours]
      rfl
    refine ⟨e,?_⟩
    rw [hmax]
    change Except.bind (Except.mapError Failure.assertion
      (BackoffAdjuster.new.setMinBackoff (timeout*2))) _ = _
    rw [hmin]
    rfl

theorem configure_bounded (h : configure settings = .ok m) : Bounded m.backoff := by
  rcases configure_cases settings with ⟨what,hwhat⟩ | ⟨timeout,hours,haccepted⟩
  · rw [hwhat] at h
    cases h
  · obtain ⟨m',hbackoff,hconfigure⟩ := configure_accepted haccepted
    have hpos := haccepted.pos
    rw [hconfigure] at h
    split_ifs at h with hle
    obtain rfl := Except.ok.inj h
    rw [hbackoff]
    refine ⟨?_,hle,?_⟩ <;> simp only [boundedBackoff] <;> omega

theorem configure_ne_periodAssertion : configure settings ≠ .error periodAssertion := by
  intro h
  rcases configure_cases settings with ⟨what,hwhat⟩ | ⟨timeout,hours,haccepted⟩
  · rw [hwhat] at h
    cases h
  · obtain ⟨m',_,hconfigure⟩ := configure_accepted haccepted
    rw [hconfigure] at h
    split_ifs at h
    simp [periodAssertion] at h

/-- Reading the time of the last failure leaves the bounds and the period alone. -/
theorem restoreFailTime_cases (d : CacheDir) (b : BackoffAdjuster) :
    (∃ what, restoreFailTime d b = .error (.exception what)) ∨
      ∃ failTime, restoreFailTime d b = .ok (b.setLastFailTime failTime) := by
  unfold restoreFailTime
  cases d.find .failure CacheKeys.lastNetworkFailTimeKey with
  | none => exact Or.inr ⟨b.lastFailTime,rfl⟩
  | some text =>
    cases hparse : stoll text with
    | error e => exact Or.inl ⟨e,by simp only [hparse]; rfl⟩
    | ok n => exact Or.inr ⟨n*nanosPerSecond,by simp only [hparse]; rfl⟩

/-- Reading the period: the only assertion is the one on a number that is stored. -/
theorem restorePeriod_eq (d : CacheDir) (b : BackoffAdjuster) :
    restorePeriod d b =
      if d.find .failure CacheKeys.backoffPeriodKey = none then .ok b
      else match storedPeriod d with
        | none => .error (.exception "stoll")
        | some n => (b.setBackoffPeriod n).mapError .assertion := by
  unfold restorePeriod storedPeriod
  cases d.find .failure CacheKeys.backoffPeriodKey with
  | none => rfl
  | some text =>
    simp only [Option.bind_some,reduceCtorEq,if_false,stoll]
    cases text.toInt? <;> rfl

theorem prepare_of_rejected {e : Failure} (hm : configure settings = .error e) :
    prepare settings d = .error e := by
  unfold prepare
  rw [hm]
  rfl

theorem prepare_of_unreadable {e : Failure} (hm : configure settings = .ok m)
    (he : restoreFailTime d m.backoff = .error e) : prepare settings d = .error e := by
  unfold prepare
  rw [hm]
  change Except.bind (restoreFailTime d m.backoff) _ = _
  rw [he]
  rfl

/-- The constructor before the adjustments, once the settings are accepted and the time of
the last failure is read: the stored period decides. -/
theorem prepare_eq {b : BackoffAdjuster} (hm : configure settings = .ok m)
    (hb : restoreFailTime d m.backoff = .ok b) :
    prepare settings d = (restorePeriod d b).map fun c => { m with backoff := c } := by
  unfold prepare
  rw [hm]
  change Except.bind (restoreFailTime d m.backoff) _ = _
  rw [hb]
  change Except.bind (restorePeriod d b) _ = _
  cases restorePeriod d b <;> rfl

/-- The assertion of `set_backoff_period()` fails exactly when a stored period is reached
that exceeds the maximum. -/
theorem prepare_aborts_iff : prepare settings d = .error periodAssertion ↔
    ∃ m n, configure settings = .ok m ∧ (∃ b, restoreFailTime d m.backoff = .ok b) ∧
      storedPeriod d = some n ∧ m.backoff.maxBackoff < n := by
  constructor
  · intro h
    cases hm : configure settings with
    | error e =>
      rw [prepare_of_rejected hm] at h
      rw [Except.error.inj h] at hm
      exact absurd hm configure_ne_periodAssertion
    | ok m =>
      rcases restoreFailTime_cases d m.backoff with ⟨what,hwhat⟩ | ⟨failTime,hb⟩
      · rw [prepare_of_unreadable hm hwhat] at h
        cases h
      · rw [prepare_eq hm hb,restorePeriod_eq] at h
        split_ifs at h
        · cases h
        · cases hstored : storedPeriod d with
          | none =>
            rw [hstored] at h
            cases h
          | some n =>
            refine ⟨m,n,rfl,⟨_,hb⟩,rfl,?_⟩
            by_contra hle
            rw [hstored] at h
            change Except.map _ (Except.mapError _ (BackoffAdjuster.setBackoffPeriod _ n)) = _ at h
            have hadmitted := BackoffAdjuster.setBackoffPeriod_of_le
              (m.backoff.setLastFailTime failTime) (show n ≤ m.backoff.maxBackoff from not_lt.mp hle)
            rw [hadmitted] at h
            cases h
  · rintro ⟨m,n,hm,⟨b,hb⟩,hstored,hlt⟩
    have hmax : b.maxBackoff = m.backoff.maxBackoff := by
      rcases restoreFailTime_cases d m.backoff with ⟨what,hwhat⟩ | ⟨failTime,hb'⟩
      · rw [hwhat] at hb
        cases hb
      · rw [hb'] at hb
        obtain rfl := Except.ok.inj hb
        rfl
    have hfound : d.find .failure CacheKeys.backoffPeriodKey ≠ none := by
      intro hnone
      simp [storedPeriod,hnone] at hstored
    rw [prepare_eq hm hb,restorePeriod_eq,if_neg hfound]
    simp only [hstored,BackoffAdjuster.setBackoffPeriod,hmax,not_le.mpr hlt,if_false]
    rfl

/-- Reading the period, when it goes well, keeps the bounds. -/
theorem restorePeriod_ok {b c : BackoffAdjuster} (h : restorePeriod d b = .ok c)
    (hb : Bounded b) : Bounded c ∧ c.maxBackoff = b.maxBackoff := by
  rw [restorePeriod_eq] at h
  split_ifs at h
  · obtain rfl := Except.ok.inj h
    exact ⟨hb,rfl⟩
  · cases hstored : storedPeriod d with
    | none =>
      rw [hstored] at h
      cases h
    | some n =>
      simp only [hstored,BackoffAdjuster.setBackoffPeriod] at h
      split_ifs at h with hle
      · obtain rfl := Except.ok.inj h
        exact ⟨⟨hb.min_pos,hb.twice_min_le,hle⟩,rfl⟩
      · cases h

/-- What the constructor has before the adjustments: an adjuster within the bounds that the
settings give. -/
theorem prepare_ok (h : prepare settings d = .ok m) : Bounded m.backoff ∧
    ∃ m', configure settings = .ok m' ∧ m.backoff.maxBackoff = m'.backoff.maxBackoff := by
  cases hm : configure settings with
  | error e =>
    rw [prepare_of_rejected hm] at h
    cases h
  | ok m' =>
    have hbounded := configure_bounded hm
    rcases restoreFailTime_cases d m'.backoff with ⟨what,hwhat⟩ | ⟨failTime,hb⟩
    · rw [prepare_of_unreadable hm hwhat] at h
      cases h
    · rw [prepare_eq hm hb] at h
      cases hperiod : restorePeriod d (m'.backoff.setLastFailTime failTime) with
      | error e =>
        rw [hperiod] at h
        cases h
      | ok c =>
        rw [hperiod] at h
        obtain rfl := Except.ok.inj h
        obtain ⟨hc,hmax⟩ := restorePeriod_ok hperiod
          ⟨hbounded.min_pos,hbounded.twice_min_le,hbounded.period_le⟩
        exact ⟨hc,m',rfl,hmax⟩

end Constructor

/-! ### Runs -/

/-- The invariant behind `PeriodAdmitted`. -/
def Sound (s : Host) : Prop :=
  s.failure ≠ some periodAssertion ∧ ∀ b ∈ s.running, Bounded b

section Steps

variable {s t : Host} {e : Event}

theorem Sound.admitted (h : Sound s) : PeriodAdmitted s :=
  ⟨h.1,fun b hb => (h.2 b hb).period_le⟩

theorem start_aborts (v : Version) (settings : Settings) (io : StartScript)
    (h : prepare settings s.dir = .error periodAssertion) :
    (s.start v settings io).failure = some periodAssertion := by
  unfold Host.start construct
  rw [h]
  rfl

/-- A service that has started has an adjuster whose assertions hold. -/
theorem start_bounded {v : Version} {settings : Settings} {io : StartScript} {b : BackoffAdjuster}
    (h : (s.start v settings io).running = some b) : Bounded b := by
  obtain ⟨m,hprepare,happly⟩ := start_running h
  have hbounded := (prepare_ok hprepare).1
  rcases applyUpgradeActions_cases happly with rfl | rfl
  · exact hbounded
  · exact hbounded.zero 0

theorem start_sound (v : Version) (settings : Settings) (io : StartScript)
    (h : prepare settings s.dir ≠ .error periodAssertion) : Sound (s.start v settings io) := by
  refine ⟨fun hfail => ?_,fun b hb => start_bounded hb⟩
  unfold Host.start construct at hfail
  cases hprepare : prepare settings s.dir with
  | error e =>
    rw [hprepare] at hfail
    have hwrap : wrap e = periodAssertion := Option.some.inj hfail
    cases e with
    | exception what => cases hwrap
    | assertion text => exact h (hprepare.trans (congrArg Except.error hwrap))
  | ok m =>
    rw [hprepare] at hfail
    rcases happly : applyUpgradeActions v io s.dir m.backoff with ⟨_ | b,d⟩
    · simp only [happly] at hfail
      cases hfail
    · simp only [happly] at hfail
      cases hfail

theorem start_admitted_iff (v : Version) (settings : Settings) (io : StartScript) :
    PeriodAdmitted (s.start v settings io) ↔ RestoresAdmitted s (.start v settings io) := by
  have hguard : RestoresAdmitted s (.start v settings io) ↔
      prepare settings s.dir ≠ .error periodAssertion := by
    rw [ne_eq,prepare_aborts_iff]
    simp only [RestoresAdmitted,not_exists,not_and,not_lt]
  rw [hguard]
  refine ⟨fun h habort => h.1 (start_aborts v settings io habort),fun h => ?_⟩
  exact (start_sound v settings io h).admitted

theorem carries_bounded : Carries Bounded fun _ => True where
  zero _ hb := hb.zero 0
  put _ _ _ _ := trivial
  failTime _ _ _ := trivial
  period _ _ _ := trivial

/-- Whatever happens, the adjuster of the service keeps its bounds. -/
theorem step_bounded (h : Carried Bounded (fun _ => True) s) (ht : restarts.step s e = some t) :
    Carried Bounded (fun _ => True) t :=
  h.step carries_bounded (fun _ _ _ _ _ hb => start_bounded hb)
    (fun now _ _ hb => hb.adjustRetryLimit now) (fun now _ _ hb => hb.reset now) ht

/-- Only a construction fails. -/
theorem serve_failure {version : ℤ} {b : BackoffAdjuster} (ht : s.serve version b e = some t) :
    t.failure = s.failure := by
  cases e with
  | start v settings io | drop cache kept => cases ht
  | put c key value =>
    obtain ⟨-,ht⟩ := Option.ite_none_left_eq_some.mp ht
    obtain rfl := Option.some.inj ht
    rfl
  | failed now | answered now | clear selector io | stop first second | kill =>
    obtain rfl := Option.some.inj ht
    rfl

theorem step_sound (s : Host) (e : Event) (t : Host) (h : Sound s) (hg : RestoresAdmitted s e)
    (ht : restarts.step s e = some t) : Sound t := by
  have hbounded := step_bounded ⟨h.2,fun _ _ => trivial⟩ ht
  refine ⟨?_,hbounded.running⟩
  cases e with
  | start v settings io =>
    simp only [restarts,Option.ite_none_right_eq_some,Option.some.injEq] at ht
    obtain ⟨_,rfl⟩ := ht
    exact ((start_admitted_iff v settings io).mpr hg).1
  | drop c kept =>
    obtain rfl := Option.some.inj ht
    exact h.1
  | put | failed | answered | clear | stop | kill =>
    simp only [restarts] at ht
    split at ht
    · rw [serve_failure ht]
      exact h.1
    · cases ht

theorem step_exceeded (s : Host) (e : Event) (t : Host) (_ : Sound s)
    (hg : ¬ RestoresAdmitted s e) (ht : restarts.step s e = some t) : ¬ PeriodAdmitted t := by
  cases e with
  | start v settings io =>
    simp only [restarts,Option.ite_none_right_eq_some,Option.some.injEq] at ht
    obtain ⟨_,rfl⟩ := ht
    exact fun hp => hg ((start_admitted_iff v settings io).mp hp)
  | drop | put | failed | answered | clear | stop | kill => exact absurd trivial hg

end Steps

/-! ### What is stored -/

section Stored

variable {d : CacheDir} {b : BackoffAdjuster} {version n : ℤ}

theorem stoll_toString (n : ℤ) : stoll (toString n) = .ok n := by
  simp [stoll]

theorem reserved_ne : CacheKeys.lastNetworkFailTimeKey ≠ CacheKeys.backoffPeriodKey := by decide

/-- The next constructor reads what the destructor has stored, in whole seconds. -/
theorem stored_destruct (d : CacheDir) (b : BackoffAdjuster) (version : ℤ) :
    storedPeriod (Startup.destruct version b .stored .stored d) = some b.backoffPeriod ∧
      ∀ c, restoreFailTime (Startup.destruct version b .stored .stored d) c =
        .ok (c.setLastFailTime (b.lastFailTime.tdiv nanosPerSecond*nanosPerSecond)) := by
  have hperiod : (Startup.destruct version b .stored .stored d).find .failure
      CacheKeys.backoffPeriodKey = some (toString b.backoffPeriod) := CacheDir.find_put_self
  have htime : (Startup.destruct version b .stored .stored d).find .failure
      CacheKeys.lastNetworkFailTimeKey =
        some (toString (b.lastFailTime.tdiv nanosPerSecond)) := by
    refine (CacheDir.find_put_of_ne ?_).trans CacheDir.find_put_self
    exact reserved_ne.symm
  refine ⟨by simp [storedPeriod,hperiod],fun c => ?_⟩
  unfold restoreFailTime
  rw [htime]
  simp only [stoll_toString]
  rfl

/-- A constructor with a maximum that admits the period has what the destructor has stored. -/
theorem prepare_stored {settings : Settings} {m : Members} (hm : configure settings = .ok m)
    (hle : b.backoffPeriod ≤ m.backoff.maxBackoff) :
    prepare settings (Startup.destruct version b .stored .stored d) = .ok { m with backoff :=
      { m.backoff with
        lastFailTime := b.lastFailTime.tdiv nanosPerSecond*nanosPerSecond
        backoffPeriod := b.backoffPeriod } } := by
  obtain ⟨hperiod,htime⟩ := stored_destruct d b version
  have hfound : (Startup.destruct version b .stored .stored d).find .failure
      CacheKeys.backoffPeriodKey ≠ none := by
    intro hnone
    simp [storedPeriod,hnone] at hperiod
  rw [prepare_eq hm (htime _),restorePeriod_eq,if_neg hfound,hperiod]
  simp only [BackoffAdjuster.setBackoffPeriod,BackoffAdjuster.setLastFailTime,hle,if_true]
  rfl

/-- The same program goes on with the backoff that it had when it was stopped. -/
theorem start_stored {settings : Settings} {m : Members} {s : Host} {v : Version}
    (hm : configure settings = .ok m) (hle : b.backoffPeriod ≤ m.backoff.maxBackoff)
    (hdir : s.dir = Startup.destruct version b .stored .stored d)
    (hversion : Version.prevCacheVersion s.dir = v.cacheVersion) (io : StartScript) :
    (s.start v settings io).running = some { m.backoff with
      lastFailTime := b.lastFailTime.tdiv nanosPerSecond*nanosPerSecond
      backoffPeriod := b.backoffPeriod } := by
  have hprepare : prepare settings (Startup.destruct version b .stored .stored d) = _ :=
    prepare_stored hm hle
  rw [← hdir] at hprepare
  unfold Host.start construct
  rw [hprepare]
  simp only [applyUpgradeActions,hversion,ne_eq,not_true_eq_false,if_false]
  rfl

/-- No period above the bound is stored, not even under a key that was written over. -/
def StoredAtMost (bound : ℤ) (d : CacheDir) : Prop :=
  ∀ e ∈ d.entries .failure, e.key = CacheKeys.backoffPeriodKey →
    ∀ n, e.value.toInt? = some n → n ≤ bound

variable {bound : ℤ}

theorem StoredAtMost.storedPeriod_le (h : StoredAtMost bound d) (hn : storedPeriod d = some n) :
    n ≤ bound := by
  obtain ⟨text,htext,hparse⟩ := Option.bind_eq_some_iff.mp hn
  obtain ⟨e,he,hkey,rfl⟩ := CacheDir.find_some htext
  exact h e he hkey n hparse

end Stored

/-! ### Runs under one maximum -/

/-- Every start has settings that give the same maximum. -/
def SameMaximum (bound : ℤ) (_ : Host) : Event → Prop
  | .start _ settings _ => ∀ m, configure settings = .ok m → m.backoff.maxBackoff = bound
  | _ => True

/-- The service runs under that maximum, and nothing above it is stored. -/
structure Kept (bound : ℤ) (s : Host) : Prop where
  sound : Sound s
  maximum : ∀ b ∈ s.running, b.maxBackoff = bound
  stored : StoredAtMost bound s.dir

section Maximum

theorem adjustRetryLimit_max (b : BackoffAdjuster) (now : ℤ) :
    (b.adjustRetryLimit now).1.maxBackoff = b.maxBackoff := by
  unfold BackoffAdjuster.adjustRetryLimit
  split_ifs <;> rfl

theorem reset_max (b : BackoffAdjuster) (now : ℤ) : (b.reset now).maxBackoff = b.maxBackoff := by
  unfold BackoffAdjuster.reset
  split_ifs <;> rfl

end Maximum

section Steps

variable {bound : ℤ} {s t : Host} {e : Event}

/-- What is stored comes from an adjuster under the maximum. -/
theorem carries_atMost (bound : ℤ) : Carries (fun b => Bounded b ∧ b.maxBackoff = bound)
    fun e => e.key = CacheKeys.backoffPeriodKey → ∀ n, e.value.toInt? = some n → n ≤ bound where
  zero _ hb := ⟨hb.1.zero 0,hb.2⟩
  put key value version hfree hkey := by
    obtain rfl : key = _ := hkey
    exact absurd hfree (by decide)
  failTime _ _ _ hkey := absurd hkey reserved_ne
  period b version hb _ n hn := by
    have hparse : (toString b.backoffPeriod).toInt? = some b.backoffPeriod := by simp
    obtain rfl : b.backoffPeriod = n := Option.some.inj (hparse.symm.trans hn)
    exact hb.1.period_le.trans hb.2.le

/-- The maximum of a service that has started is that of its settings. -/
theorem start_max {v : Version} {settings : Settings} {io : StartScript} {b : BackoffAdjuster}
    (h : (s.start v settings io).running = some b) :
    ∃ m, configure settings = .ok m ∧ b.maxBackoff = m.backoff.maxBackoff := by
  obtain ⟨m,hprepare,happly⟩ := start_running h
  obtain ⟨-,m',hm',hmax⟩ := prepare_ok hprepare
  refine ⟨m',hm',?_⟩
  rcases applyUpgradeActions_cases happly with rfl | rfl <;> exact hmax

/-- Under the same maximum, no start meets a stored period above it. -/
theorem Kept.restoresAdmitted (h : Kept bound s) (hg : SameMaximum bound s e) :
    RestoresAdmitted s e := by
  cases e with
  | start v settings io =>
    intro m n hm _ hn
    rw [hg m hm]
    exact h.stored.storedPeriod_le hn
  | drop | put | failed | answered | clear | stop | kill => trivial

theorem step_kept (s : Host) (e : Event) (t : Host) (h : Kept bound s)
    (hg : SameMaximum bound s e) (ht : restarts.step s e = some t) : Kept bound t := by
  have hcarried : Carried (fun b => Bounded b ∧ b.maxBackoff = bound)
      (fun f => f.key = CacheKeys.backoffPeriodKey → ∀ n, f.value.toInt? = some n → n ≤ bound) s :=
    ⟨fun b hb => ⟨h.sound.2 b hb,h.maximum b hb⟩,h.stored⟩
  have hafter := hcarried.step (carries_atMost bound) (fun v settings io he b hb => ?_)
    (fun now b _ hb => ⟨hb.1.adjustRetryLimit now,(adjustRetryLimit_max b now).trans hb.2⟩)
    (fun now b _ hb => ⟨hb.1.reset now,(reset_max b now).trans hb.2⟩) ht
  · exact ⟨step_sound s e t h.sound (h.restoresAdmitted hg) ht,
      fun b hb => (hafter.running b hb).2,hafter.stored⟩
  · subst he
    obtain ⟨m,hm,hmax⟩ := start_max hb
    exact ⟨start_bounded hb,hmax.trans (hg m hm)⟩

end Steps

/-- As long as the settings do not change the maximum, every stored period is admitted. -/
theorem restoresAdmitted_of_same_maximum {bound : ℤ} {s : Host} {es : List Event} (h : Sound s)
    (hrunning : s.running = none) (hstored : StoredAtMost bound s.dir)
    (hg : restarts.AllSteps (SameMaximum bound) s es) : restarts.AllSteps RestoresAdmitted s es :=
  Machine.allSteps_of_guarded step_kept (fun _ _ hk hg => hk.restoresAdmitted hg)
    ⟨h,by simp [hrunning],hstored⟩ hg

/-- Along all runs of the service on a cache directory, the assertion of
`set_backoff_period()` never fails and the period in force never exceeds the maximum
exactly when every start finds no stored period above the maximum of its own settings; so it is
when all settings give the same maximum. -/
theorem periodAdmitted_iff (s t : Host) (es : List Event) (hrunning : s.running = none)
    (hfailure : s.failure = none) (hrun : restarts.run s es = some t) :
    (restarts.Always PeriodAdmitted s es ↔ restarts.AllSteps RestoresAdmitted s es) ∧
    ∀ bound, StoredAtMost bound s.dir → restarts.AllSteps (SameMaximum bound) s es →
      restarts.AllSteps RestoresAdmitted s es := by
  have hinit : Sound s := ⟨by simp [hfailure],by simp [hrunning]⟩
  exact ⟨Machine.always_iff_allSteps step_sound (fun _ h => h.admitted) step_exceeded hinit hrun,
    fun bound hstored hg => restoresAdmitted_of_same_maximum hinit hrunning hstored hg⟩

/-! ### A maximum that was lowered -/

def release : Version := ⟨3,0,0,1⟩

def ordinaryStart : StartScript := ⟨fun _ => none,.written,.written⟩

/-- The settings after the administrator has halved the time to retry errors. -/
def impatient : Settings := ⟨Settings.defaultSchemaName,fun key =>
  if key = "retry-error-hours" then some 1 else none⟩

/-- Ten failures of the server, far enough apart, take the period from nothing to the
default maximum of two hours. -/
def failingServer : List Event :=
  [.failed 10000000000000,.failed 20000000000000,.failed 30000000000000,.failed 40000000000000,
    .failed 50000000000000,.failed 60000000000000,.failed 70000000000000,.failed 80000000000000,
    .failed 90000000000000,.failed 100000000000000]

theorem failingServer_backsOff : ∃ u b, restarts.run emptyHost
    (.start release defaultSettings ordinaryStart::failingServer) = some u ∧
      u.program = some 1 ∧ u.running = some b ∧ b.backoffPeriod = 7200 ∧
        Version.prevCacheVersion u.dir = 1 :=
  ⟨_,_,rfl,rfl,rfl,rfl,rfl⟩

/-- The service stops while the server fails, and goes on with the same settings. -/
def restarted : List Event :=
  (.start release defaultSettings ordinaryStart::failingServer) ++
    [.stop .stored .stored,.start release defaultSettings ordinaryStart]

theorem configure_default : ∃ m, configure defaultSettings = .ok m ∧ m.backoff.maxBackoff = 7200 :=
  ⟨_,rfl,rfl⟩

theorem restarted_sameMaximum (s : Host) : restarts.AllSteps (SameMaximum 7200) s restarted := by
  have hdefault : ∀ m, configure defaultSettings = .ok m → m.backoff.maxBackoff = 7200 := by
    obtain ⟨m,hm,hmax⟩ := configure_default
    intro m' hm'
    obtain rfl := Except.ok.inj (hm.symm.trans hm')
    exact hmax
  have hall : ∀ e ∈ restarted, SameMaximum 7200 emptyHost e := by
    simpa [restarted,failingServer,SameMaximum] using hdefault
  exact Machine.allSteps_of_mem s hall

theorem periodAdmitted_failingServer :
    emptyHost.running = none ∧ emptyHost.failure = none ∧
      ∃ t, restarts.run emptyHost restarted = some t ∧
        (∃ b, t.running = some b ∧ b.backoffPeriod = 7200) ∧
          restarts.Always PeriodAdmitted emptyHost restarted := by
  obtain ⟨u,b,hrun,hprogram,hrunning,hperiod,hversion⟩ := failingServer_backsOff
  obtain ⟨m,hm,hmax⟩ := configure_default
  let w : Host := { u with dir := Startup.destruct 1 b .stored .stored u.dir, running := none }
  have hstop : restarts.step u (.stop .stored .stored) = some w := by
    simp only [restarts,hprogram,hrunning]
    rfl
  have hlast : restarts.run emptyHost restarted =
      some (w.start release defaultSettings ordinaryStart) := by
    rw [restarted,Machine.run_append,hrun,Option.bind_some,Machine.run_cons,hstop]
    rfl
  have hback := start_stored (s:=w) (v:=release) hm (hperiod.le.trans hmax.ge) rfl hversion
    ordinaryStart
  have hempty : StoredAtMost 7200 emptyHost.dir := fun e he => by cases he
  have hiff := periodAdmitted_iff emptyHost _ restarted rfl rfl hlast
  exact ⟨rfl,rfl,_,hlast,⟨_,hback,hperiod⟩,
    hiff.1.mpr (hiff.2 7200 hempty (restarted_sameMaximum _))⟩

/-- The service stops while the server fails, and is started again with a maximum of one
hour. -/
def loweredMaximum : List Event :=
  (.start release defaultSettings ordinaryStart::failingServer) ++
    [.stop .stored .stored,.start release impatient ordinaryStart]

theorem loweredMaximum_aborts : ¬ restarts.Always PeriodAdmitted emptyHost loweredMaximum := by
  intro h
  obtain ⟨u,b,hrun,hprogram,hrunning,hperiod,-⟩ := failingServer_backsOff
  obtain ⟨m,hm,hmax⟩ : ∃ m, configure impatient = .ok m ∧ m.backoff.maxBackoff = 3600 :=
    ⟨_,rfl,rfl⟩
  let w : Host := { u with dir := Startup.destruct 1 b .stored .stored u.dir, running := none }
  obtain ⟨hstored,htime⟩ := stored_destruct u.dir b 1
  have hstop : restarts.step u (.stop .stored .stored) = some w := by
    simp only [restarts,hprogram,hrunning]
    rfl
  have hlast : restarts.run emptyHost loweredMaximum =
      some (w.start release impatient ordinaryStart) := by
    rw [loweredMaximum,Machine.run_append,hrun,Option.bind_some,Machine.run_cons,hstop]
    rfl
  have hadmitted : PeriodAdmitted (w.start release impatient ordinaryStart) :=
    Machine.always_prefix [] (by rwa [List.append_nil]) hlast
  have hle := (start_admitted_iff release impatient ordinaryStart).mp hadmitted m 7200 hm
    ⟨_,htime m.backoff⟩ (hstored.trans (congrArg some hperiod))
  rw [hmax] at hle
  exact absurd hle (by decide)

end BackoffRestore
end UnityThumbnailer
