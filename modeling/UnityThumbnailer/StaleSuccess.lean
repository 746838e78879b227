import UnityThumbnailer.BackoffAdjuster
import UnityThumbnailer.EventSystem

/-! Concurrent requests to the remote server that complete out of order: the success of a
request must not lift the backoff after another one has failed since its start. -/
namespace UnityThumbnailer

open EventSystem

namespace StaleSuccess

/-- A download under way: when and in which state of the adjuster it was started, and
whether a temporary error has been reported since. -/
structure Download where
  startedAt : ℤ
  startedWith : BackoffAdjuster
  failedSince : Bool

/-- The adjuster, the time of the last event, and the downloads by their request. -/
structure Load where
  backoff : BackoffAdjuster
  clock : ℤ
  downloads : ℕ → Option Download

inductive Event
  | start (h : ℕ)
  | temporaryError (h : ℕ)
  /-- The server has answered, if only that there is no such image. -/
  | answered (h : ℕ)
  /-- The request has timed out or was given up; the adjuster is not told. -/
  | dropped (h : ℕ)

def Download.failed (d : Download) : Download := { d with failedSince := true }

/-- The downloads that remain after a request has reported a temporary error. -/
def failAll (downloads : ℕ → Option Download) (h : ℕ) : ℕ → Option Download :=
  fun x => if x = h then none else (downloads x).map Download.failed

/-- Any number of requests at a time, with the times at which they start and report. -/
def load : Machine Load (ℤ × Event) where
  step s e :=
    match e.2 with
    | .start h =>
      if (s.downloads h).isSome then none
      else some ⟨s.backoff,e.1,Function.update s.downloads h (some ⟨e.1,s.backoff,false⟩)⟩
    | .temporaryError h =>
      if (s.downloads h).isSome
      then some ⟨(s.backoff.adjustRetryLimit e.1).1,e.1,failAll s.downloads h⟩ else none
    | .answered h =>
      if (s.downloads h).isSome
      then some ⟨s.backoff.reset e.1,e.1,Function.update s.downloads h none⟩ else none
    | .dropped h =>
      if (s.downloads h).isSome
      then some ⟨s.backoff,e.1,Function.update s.downloads h none⟩ else none

/-- The clock is not set back, and requests report within the minimal backoff period. -/
def Timely (s : Load) (e : ℤ × Event) : Prop :=
  s.clock ≤ e.1 ∧ match e.2 with
    | .temporaryError h | .answered h => ∀ d ∈ s.downloads h,
        e.1 ≤ d.startedAt+s.backoff.minBackoff*nanosPerSecond
    | .start _ | .dropped _ => True

/-- If a request is answered that started before some failure was reported, the backoff
stays as it is. -/
def StaleSuccessIgnored (s : Load) (e : ℤ × Event) : Prop :=
  match e.2 with
  | .answered h => ∀ d ∈ s.downloads h, d.failedSince = true → s.backoff.reset e.1 = s.backoff
  | .start _ | .temporaryError _ | .dropped _ => True

/-- The download was started inside of a backoff window that is still the one on record,
and that is over now. -/
def OutlivesWindow (s : Load) (now : ℤ) (d : Download) : Prop :=
  d.startedWith.retryOk d.startedAt = false ∧ s.backoff = d.startedWith ∧
    d.startedWith.retryTime < now

/-- No request is answered, after failures have been reported, that has outlived the window
it was started in. -/
def NoneOutlivesWindow (s : Load) (e : ℤ × Event) : Prop :=
  match e.2 with
  | .answered h => ∀ d ∈ s.downloads h, d.failedSince = true → ¬ OutlivesWindow s e.1 d
  | .start _ | .temporaryError _ | .dropped _ => True

/-- Downloads start only while the server may be contacted. -/
def StartsOutside (s : Load) (e : ℤ × Event) : Prop :=
  match e.2 with
  | .start _ => s.backoff.retryOk e.1 = true
  | .answered _ | .temporaryError _ | .dropped _ => True

instance decidableTimely (s : Load) : ∀ e, Decidable (Timely s e)
  | (now,.start _) | (now,.dropped _) => inferInstanceAs (Decidable (s.clock ≤ now ∧ True))
  | (now,.temporaryError h) | (now,.answered h) =>
    inferInstanceAs (Decidable (s.clock ≤ now ∧ ∀ d ∈ s.downloads h,
      now ≤ d.startedAt+s.backoff.minBackoff*nanosPerSecond))

instance decidableStaleSuccessIgnored (s : Load) : ∀ e, Decidable (StaleSuccessIgnored s e)
  | (_,.start _) | (_,.dropped _) | (_,.temporaryError _) => inferInstanceAs (Decidable True)
  | (now,.answered h) => inferInstanceAs (Decidable (∀ d ∈ s.downloads h,
      d.failedSince = true → s.backoff.reset now = s.backoff))

instance decidableStartsOutside (s : Load) : ∀ e, Decidable (StartsOutside s e)
  | (now,.start _) => inferInstanceAs (Decidable (s.backoff.retryOk now = true))
  | (_,.answered _) | (_,.dropped _) | (_,.temporaryError _) => inferInstanceAs (Decidable True)

/-- Since the download was started, a failure was recorded, or the backoff is lifted. -/
def Covered (b : BackoffAdjuster) (d : Download) : Prop :=
  b.backoffPeriod = 0 ∨ d.startedAt ≤ b.lastFailTime ∧ b.minBackoff ≤ b.backoffPeriod

/-- A failure that was not recorded was reported inside of the window on record. -/
structure Tracked (s : Load) (d : Download) : Prop where
  started : d.startedAt ≤ s.clock
  unchanged : s.backoff = d.startedWith ∨ Covered s.backoff d
  failed : d.failedSince = true →
    Covered s.backoff d ∨ d.startedWith.retryOk d.startedAt = false

/-- A period in force is never less than the minimum. -/
structure AtLeastMin (b : BackoffAdjuster) : Prop where
  min_pos : 0 < b.minBackoff
  twice_min_le : 2*b.minBackoff ≤ b.maxBackoff
  period : b.backoffPeriod = 0 ∨ b.minBackoff ≤ b.backoffPeriod

structure Sound (s : Load) : Prop where
  backoff : AtLeastMin s.backoff
  tracked : ∀ h, ∀ d ∈ s.downloads h, Tracked s d

/-- No download was started inside of a backoff window. -/
def StartedOutside (s : Load) : Prop :=
  ∀ h, ∀ d ∈ s.downloads h, d.startedWith.retryOk d.startedAt = true

section Adjuster

variable {b : BackoffAdjuster} {d : Download} {now : ℤ}

/-- A request that started before the failure on record, and reports in time, reports while
the period of that failure is in force. -/
theorem Covered.reset (hc : Covered b d)
    (hnow : now ≤ d.startedAt+b.minBackoff*nanosPerSecond) : b.reset now = b := by
  rcases hc with hzero | ⟨hstart,hmin⟩
  · exact BackoffAdjuster.reset_of_zero hzero
  · refine BackoffAdjuster.reset_eq_self_iff.mpr fun hover => ?_
    have hlt := hover.2
    unfold BackoffAdjuster.retryTime nanosPerSecond at hlt
    unfold nanosPerSecond at hnow
    omega

theorem Covered.of_reset (hc : Covered b d) : Covered (b.reset now) d := by
  by_cases h : b.backoffPeriod ≠ 0 ∧ b.retryTime < now
  · rw [BackoffAdjuster.reset_of_over h.1 h.2]
    exact Or.inl rfl
  · rwa [BackoffAdjuster.reset_eq_self_iff.mpr h]

theorem AtLeastMin.min_le_extended (h : AtLeastMin b) (now : ℤ) :
    b.minBackoff ≤ (b.extended now).backoffPeriod := by
  obtain ⟨hpos,htwice,hperiod⟩ := h
  unfold BackoffAdjuster.extended
  dsimp only
  split_ifs with hzero
  · exact le_rfl
  · have hle := hperiod.resolve_left hzero
    exact le_min (by omega) (by omega)

theorem AtLeastMin.adjustRetryLimit (h : AtLeastMin b) (now : ℤ) :
    AtLeastMin (b.adjustRetryLimit now).1 := by
  cases hok : b.retryOk now with
  | true =>
    rw [BackoffAdjuster.adjustRetryLimit_of_ok hok]
    exact ⟨h.min_pos,h.twice_min_le,Or.inr (h.min_le_extended now)⟩
  | false =>
    rw [BackoffAdjuster.adjustRetryLimit_of_not_ok hok]
    exact h

theorem AtLeastMin.reset (h : AtLeastMin b) (now : ℤ) : AtLeastMin (b.reset now) := by
  by_cases hover : b.backoffPeriod ≠ 0 ∧ b.retryTime < now
  · rw [BackoffAdjuster.reset_of_over hover.1 hover.2]
    exact ⟨h.min_pos,h.twice_min_le,Or.inl rfl⟩
  · rwa [BackoffAdjuster.reset_eq_self_iff.mpr hover]

end Adjuster

section Steps

variable {s t : Load} {d : Download} {now : ℤ} {e : ℤ × Event}

theorem Tracked.later (h : Tracked s d) (hle : s.clock ≤ now) (downloads : ℕ → Option Download) :
    Tracked ⟨s.backoff,now,downloads⟩ d :=
  ⟨le_trans h.started hle,h.unchanged,h.failed⟩

/-- A failure that is reported is recorded, or falls into the window on record; a download
that was started before then was started inside of this window. -/
theorem Tracked.temporaryError (hs : Sound s) (h : Tracked s d) (hle : s.clock ≤ now)
    (downloads : ℕ → Option Download) :
    Tracked ⟨(s.backoff.adjustRetryLimit now).1,now,downloads⟩ d.failed := by
  have hstart : d.startedAt ≤ now := le_trans h.started hle
  cases hok : s.backoff.retryOk now with
  | true =>
    rw [BackoffAdjuster.adjustRetryLimit_of_ok hok]
    have hcovered : Covered (s.backoff.extended now) d.failed :=
      Or.inr ⟨hstart,hs.backoff.min_le_extended now⟩
    exact ⟨hstart,Or.inr hcovered,fun _ => Or.inl hcovered⟩
  | false =>
    rw [BackoffAdjuster.adjustRetryLimit_of_not_ok hok]
    refine ⟨hstart,h.unchanged,fun _ => ?_⟩
    rcases h.unchanged with hsame | hcovered
    · right
      rw [hsame] at hok
      exact Bool.eq_false_iff.mpr fun hearly =>
        Bool.eq_false_iff.mp hok (BackoffAdjuster.retryOk_mono hearly hstart)
    · exact Or.inl hcovered

/-- A success that is reported lifts the backoff, or leaves it alone. -/
theorem Tracked.answered (h : Tracked s d) (hle : s.clock ≤ now)
    (downloads : ℕ → Option Download) : Tracked ⟨s.backoff.reset now,now,downloads⟩ d := by
  refine ⟨le_trans h.started hle,?_,fun hf => (h.failed hf).imp_left Covered.of_reset⟩
  rcases h.unchanged with hsame | hcovered
  · by_cases hself : s.backoff.reset now = s.backoff
    · exact Or.inl (hself.trans hsame)
    · have hover := not_not.mp (mt BackoffAdjuster.reset_eq_self_iff.mpr hself)
      right
      rw [BackoffAdjuster.reset_of_over hover.1 hover.2]
      exact Or.inl rfl
  · exact Or.inr hcovered.of_reset

/-- A request that reports is forgotten, and no other. -/
theorem mem_of_forgotten {downloads : ℕ → Option Download} {h x : ℕ}
    (hd : d ∈ Function.update downloads h none x) : d ∈ downloads x := by
  by_cases hx : x = h
  · rw [hx,Function.update_self] at hd
    cases hd
  · rwa [Function.update_of_ne hx] at hd

theorem Sound.step (hs : Sound s) (hg : Timely s e) (ht : load.step s e = some t) : Sound t := by
  obtain ⟨now,e⟩ := e
  have hle : s.clock ≤ now := hg.1
  cases e with
  | start h =>
    simp only [load] at ht
    split_ifs at ht
    obtain rfl := Option.some.inj ht
    refine ⟨hs.backoff,fun x d hd => ?_⟩
    by_cases hx : x = h
    · subst hx
      obtain rfl : ⟨now,s.backoff,false⟩ = d := by simpa using hd
      exact ⟨le_rfl,Or.inl rfl,by simp⟩
    · simp only [Function.update_of_ne hx] at hd
      exact (hs.tracked x d hd).later hle _
  | temporaryError h =>
    simp only [load] at ht
    split_ifs at ht
    obtain rfl := Option.some.inj ht
    refine ⟨hs.backoff.adjustRetryLimit now,fun x d hd => ?_⟩
    by_cases hx : x = h
    · simp [failAll,hx] at hd
    · obtain ⟨c,hc,rfl⟩ : ∃ c, s.downloads x = some c ∧ c.failed = d := by
        simpa [failAll,hx] using hd
      exact (hs.tracked x c hc).temporaryError hs hle _
  | answered h =>
    simp only [load] at ht
    split_ifs at ht
    obtain rfl := Option.some.inj ht
    exact ⟨hs.backoff.reset now,fun x d hd =>
      (hs.tracked x d (mem_of_forgotten hd)).answered hle _⟩
  | dropped h =>
    simp only [load] at ht
    split_ifs at ht
    obtain rfl := Option.some.inj ht
    exact ⟨hs.backoff,fun x d hd => (hs.tracked x d (mem_of_forgotten hd)).later hle _⟩

/-- A success is ignored, or its request has outlived the window it was started in. -/
theorem Sound.ignored_iff (hs : Sound s) (hg : Timely s e) :
    StaleSuccessIgnored s e ↔ NoneOutlivesWindow s e := by
  obtain ⟨now,e⟩ := e
  cases e with
  | start | temporaryError | dropped => exact Iff.rfl
  | answered h =>
    refine forall_congr' fun d => forall_congr' fun hd => forall_congr' fun hfailed => ?_
    have htracked := hs.tracked h d hd
    constructor
    · rintro hself ⟨hwindow,hsame,hover⟩
      have hzero := (BackoffAdjuster.retryOk_false_iff.mp hwindow).1
      rw [← hsame] at hzero hover
      exact BackoffAdjuster.reset_eq_self_iff.mp hself ⟨hzero,hover⟩
    · intro hinside
      have hcovered : Covered s.backoff d → s.backoff.reset now = s.backoff :=
        fun hc => hc.reset (hg.2 d hd)
      rcases htracked.failed hfailed with hc | hwindow
      · exact hcovered hc
      · rcases htracked.unchanged with hsame | hc
        · refine BackoffAdjuster.reset_eq_self_iff.mpr fun hover => ?_
          exact hinside ⟨hwindow,hsame,hsame ▸ hover.2⟩
        · exact hcovered hc

/-- A download under way after a step was started by it, or was under way before. -/
theorem downloads_step (ht : load.step s e = some t) {x : ℕ} (hd : d ∈ t.downloads x) :
    (e.2 = .start x ∧ d = ⟨e.1,s.backoff,false⟩) ∨
      ∃ c ∈ s.downloads x, d = c ∨ d = c.failed := by
  obtain ⟨now,e⟩ := e
  cases e with
  | start h =>
    simp only [load] at ht
    split_ifs at ht
    obtain rfl := Option.some.inj ht
    by_cases hx : x = h
    · subst hx
      have hstarted : ⟨now,s.backoff,false⟩ = d := by simpa using hd
      exact Or.inl ⟨rfl,hstarted.symm⟩
    · simp only [Function.update_of_ne hx] at hd
      exact Or.inr ⟨d,hd,Or.inl rfl⟩
  | temporaryError h =>
    simp only [load] at ht
    split_ifs at ht
    obtain rfl := Option.some.inj ht
    by_cases hx : x = h
    · simp [failAll,hx] at hd
    · obtain ⟨c,hc,rfl⟩ : ∃ c, s.downloads x = some c ∧ c.failed = d := by
        simpa [failAll,hx] using hd
      exact Or.inr ⟨c,hc,Or.inr rfl⟩
  | answered h | dropped h =>
    simp only [load] at ht
    split_ifs at ht
    obtain rfl := Option.some.inj ht
    exact Or.inr ⟨d,mem_of_forgotten hd,Or.inl rfl⟩

theorem StartedOutside.step (hs : StartedOutside s) (hg : StartsOutside s e)
    (ht : load.step s e = some t) : StartedOutside t := by
  intro x d hd
  rcases downloads_step ht hd with ⟨he,rfl⟩ | ⟨c,hc,rfl | rfl⟩
  · simpa only [StartsOutside,he] using hg
  · exact hs x d hc
  · exact hs x c hc

/-- Requests that are started while no window is in effect never outlive one. -/
theorem StartedOutside.noneOutlives (hs : StartedOutside s) : NoneOutlivesWindow s e := by
  obtain ⟨now,e⟩ := e
  cases e with
  | start | temporaryError | dropped => trivial
  | answered h => exact fun d hd _ ho => absurd ((hs h d hd).symm.trans ho.1) (by decide)

end Steps

/-- Whatever the order in which requests complete, successes of requests that were started
before a failure are ignored in exactly the runs in which none of these requests outlives a
window that it was started in; so they are when all downloads start outside of windows. -/
theorem staleSuccess_iff (b : BackoffAdjuster) (clock : ℤ) (es : List (ℤ × Event))
    (hmin : 0 < b.minBackoff) (hmax : 2*b.minBackoff ≤ b.maxBackoff)
    (hperiod : b.backoffPeriod = 0 ∨ b.minBackoff ≤ b.backoffPeriod)
    (hg : load.AllSteps Timely ⟨b,clock,fun _ => none⟩ es) :
    (load.AllSteps StaleSuccessIgnored ⟨b,clock,fun _ => none⟩ es ↔
      load.AllSteps NoneOutlivesWindow ⟨b,clock,fun _ => none⟩ es) ∧
    (load.AllSteps StartsOutside ⟨b,clock,fun _ => none⟩ es →
      load.AllSteps StaleSuccessIgnored ⟨b,clock,fun _ => none⟩ es) := by
  have hiff := @Machine.allSteps_iff_of_guarded _ _ load _ _ _ Sound
    (fun _ _ _ hs hg ht => hs.step hg ht) (fun _ _ hs hg => hs.ignored_iff hg) _ _
    ⟨⟨hmin,hmax,hperiod⟩,by simp⟩ hg
  refine ⟨hiff,fun hstarts => hiff.mpr ?_⟩
  exact Machine.allSteps_of_guarded (fun _ _ _ hs hg ht => hs.step hg ht)
    (fun _ _ hs _ => hs.noneOutlives) (show StartedOutside _ by simp [StartedOutside]) hstarts

def seconds (n : ℤ) : ℤ := n*nanosPerSecond

/-- The adjuster with the default settings. -/
def defaultBackoff : BackoffAdjuster := ⟨0,0,20,7200⟩

/-- A succeeds after B has failed. -/
def outOfOrder : List (ℤ × Event) :=
  [(0,.start 0),(0,.start 1),(seconds 1,.temporaryError 1),(seconds 15,.answered 0)]

theorem staleSuccess_outOfOrder : (load.run ⟨defaultBackoff,0,fun _ => none⟩ outOfOrder).isSome ∧
    load.AllSteps StaleSuccessIgnored ⟨defaultBackoff,0,fun _ => none⟩ outOfOrder ∧
      load.AllSteps NoneOutlivesWindow ⟨defaultBackoff,0,fun _ => none⟩ outOfOrder := by
  have hiff := staleSuccess_iff defaultBackoff 0 outOfOrder (by decide) (by decide) (Or.inl rfl)
    (by decide)
  have hignored := hiff.2 (by decide)
  exact ⟨by decide,hignored,hiff.1.mp hignored⟩

/-- Request 1 is started inside of the window of 20 seconds that request 0 has opened;
request 2 fails inside of it, and request 1 succeeds when it is over. -/
def staleSuccess : List (ℤ × Event) :=
  [(0,.start 0),(0,.start 2),(0,.temporaryError 0),(seconds 18,.start 1),
    (seconds 19,.temporaryError 2),(seconds 25,.answered 1)]

theorem staleSuccess_lifts : load.AllSteps Timely ⟨defaultBackoff,0,fun _ => none⟩ staleSuccess ∧
    ¬ load.AllSteps StaleSuccessIgnored ⟨defaultBackoff,0,fun _ => none⟩ staleSuccess := by
  decide

end StaleSuccess
end UnityThumbnailer
