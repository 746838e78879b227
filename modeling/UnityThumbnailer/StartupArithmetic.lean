import UnityThumbnailer.MachineInt
import UnityThumbnailer.Settings

/-! The arithmetic on the settings. The validation only requires that they are positive, and
products are taken in `int`, whose 32 bits a large setting exceeds. -/
namespace UnityThumbnailer

open MachineInt

namespace StartupArithmetic

/-- The size in bytes that a cache is opened with. -/
def cacheBytes (size : ℤ) : Option ℤ :=
  (checked 32 (size*1024)).bind fun kilobytes => checked 32 (kilobytes*1024)

def timeoutMilliseconds (timeout : ℤ) : Option ℤ := checked 32 (timeout*1000)

def minBackoffSeconds (timeout : ℤ) : Option ℤ := checked 32 (timeout*2)

/-- Seconds are counted in 64 bits, and returned in 32. -/
def retryErrorMaxSeconds (hours timeout : ℤ) : Option ℤ :=
  (checked 64 (hours*3600)).bind fun retryMax =>
    (checked 32 (2*timeout)).map fun retryMin =>
      narrow 32 (if retryMax < retryMin then retryMin else retryMax)

/-- The system clock counts nanoseconds in 64 bits. -/
def expiryTime (now hours : ℤ) : Option ℤ :=
  (checked 64 (hours*(3600*nanosPerSecond))).bind fun wait => checked 64 (now+wait)

/-- The settings that the arithmetic starts from. -/
structure Values where
  fullSize : ℤ
  thumbnail : ℤ
  failure : ℤ
  timeout : ℤ
  errorHours : ℤ
  notFoundHours : ℤ

/-- A value that `get_positive_int()` returns. -/
def Admitted (n : ℤ) : Prop := 0 < n ∧ Fits 32 n

instance (n : ℤ) : Decidable (Admitted n) := inferInstanceAs (Decidable (0 < n ∧ Fits 32 n))

structure Values.Admitted (v : Values) : Prop where
  fullSize : StartupArithmetic.Admitted v.fullSize
  thumbnail : StartupArithmetic.Admitted v.thumbnail
  failure : StartupArithmetic.Admitted v.failure
  timeout : StartupArithmetic.Admitted v.timeout
  errorHours : StartupArithmetic.Admitted v.errorHours
  notFoundHours : StartupArithmetic.Admitted v.notFoundHours

/-- No operation overflows, and every result is the mathematical one. -/
structure Exact (v : Values) (now : ℤ) : Prop where
  fullSize : cacheBytes v.fullSize = some (v.fullSize*1024*1024)
  thumbnail : cacheBytes v.thumbnail = some (v.thumbnail*1024*1024)
  failure : cacheBytes v.failure = some (v.failure*1024*1024)
  timeout : timeoutMilliseconds v.timeout = some (v.timeout*1000)
  minBackoff : minBackoffSeconds v.timeout = some (v.timeout*2)
  maxBackoff : retryErrorMaxSeconds v.errorHours v.timeout =
    some (max (v.errorHours*3600) (2*v.timeout))
  expiry : expiryTime now v.notFoundHours = some (now+v.notFoundHours*(3600*nanosPerSecond))

/-- Sizes below 2 GB, and times that are not too long. -/
structure Moderate (v : Values) (now : ℤ) : Prop where
  fullSize : v.fullSize ≤ 2047
  thumbnail : v.thumbnail ≤ 2047
  failure : v.failure ≤ 2047
  timeout : v.timeout ≤ 2147483
  errorHours : v.errorHours ≤ 596523
  notFoundHours : v.notFoundHours ≤ 2562047
  expiry : now+v.notFoundHours*(3600*nanosPerSecond) < 2^63

/-! ### The results one by one -/

section Results

variable {n timeout hours now : ℤ}

theorem fits_32_iff : Fits 32 n ↔ -2147483648 ≤ n ∧ n < 2147483648 := Iff.rfl

theorem fits_64_iff : Fits 64 n ↔ -9223372036854775808 ≤ n ∧ n < 9223372036854775808 := Iff.rfl

theorem cacheBytes_exact_iff (hn : 0 < n) : cacheBytes n = some (n*1024*1024) ↔ n ≤ 2047 := by
  have hproduct : cacheBytes n = checked 32 (n*1024*1024) :=
    checked_mul_mul hn.le (by decide) (by decide)
  rw [hproduct,checked_eq_some_iff,fits_32_iff]
  omega

theorem timeoutMilliseconds_exact_iff (hn : 0 < timeout) :
    timeoutMilliseconds timeout = some (timeout*1000) ↔ timeout ≤ 2147483 := by
  rw [timeoutMilliseconds,checked_eq_some_iff,fits_32_iff]
  omega

theorem minBackoffSeconds_exact_iff (hn : 0 < timeout) :
    minBackoffSeconds timeout = some (timeout*2) ↔ timeout ≤ 1073741823 := by
  rw [minBackoffSeconds,checked_eq_some_iff,fits_32_iff]
  omega

/-- The hours have to be few enough for the conversion to `int`. -/
theorem retryErrorMaxSeconds_exact_iff (hh : Admitted hours) (ht : Admitted timeout) :
    retryErrorMaxSeconds hours timeout = some (max (hours*3600) (2*timeout)) ↔
      hours ≤ 596523 ∧ timeout ≤ 1073741823 := by
  obtain ⟨hhours,hhfits⟩ := hh
  obtain ⟨htimeout,htfits⟩ := ht
  rw [fits_32_iff] at hhfits htfits
  have hmax : checked 64 (hours*3600) = some (hours*3600) :=
    checked_of_fits (fits_64_iff.mpr (by omega))
  have hif : (if hours*3600 < 2*timeout then 2*timeout else hours*3600) =
      max (hours*3600) (2*timeout) := by
    split_ifs <;> omega
  rw [retryErrorMaxSeconds,hmax,Option.bind_some]
  by_cases hmin : Fits 32 (2*timeout)
  · rw [checked_of_fits hmin,Option.map_some,hif,Option.some.injEq,narrow_eq_self_iff (by decide)]
    rw [fits_32_iff] at hmin ⊢
    omega
  · rw [checked,if_neg hmin,Option.map_none]
    rw [fits_32_iff] at hmin
    exact iff_of_false (by simp) (by omega)

theorem expiryTime_exact_iff (hh : Admitted hours) (hnow : Fits 64 now) :
    expiryTime now hours = some (now+hours*(3600*nanosPerSecond)) ↔
      hours ≤ 2562047 ∧ now+hours*(3600*nanosPerSecond) < 2^63 := by
  obtain ⟨hpos,-⟩ := hh
  rw [fits_64_iff] at hnow
  unfold expiryTime nanosPerSecond
  by_cases hwait : Fits 64 (hours*(3600*1000000000))
  · rw [checked_of_fits hwait,Option.bind_some,checked_eq_some_iff,fits_64_iff]
    rw [fits_64_iff] at hwait
    omega
  · rw [checked,if_neg hwait,Option.bind_none]
    rw [fits_64_iff] at hwait
    exact iff_of_false (by simp) (by omega)

end Results

/-! ### The constructor in `int` -/

/-- A step that does not overflow. -/
def defined {ε α : Type} (x : Except ε α) : ExceptT ε Option α := ExceptT.mk (some x)

@[simp] theorem defined_ok_bind {ε α β : Type} (a : α) (f : α → ExceptT ε Option β) :
    (defined (.ok a) >>= f) = f a := rfl

@[simp] theorem ok_bind {ε α β : Type} (a : α) (f : α → Except ε β) :
    (Except.ok a >>= f) = f a := rfl

@[simp] theorem lift_some_bind {ε α β : Type} (a : α) (f : α → ExceptT ε Option β) :
    (ExceptT.lift (some a) >>= f) = f a := rfl

/-- The settings part of the constructor with the products taken in `int`; when one of
them overflows, nothing can be said. -/
def configureInt (s : Settings) : ExceptT Failure Option Members := do
  let fullSize ← defined (s.fullSizeCacheSize.mapError .exception)
  let fullBytes ← ExceptT.lift (cacheBytes fullSize)
  let thumbnail ← defined (s.thumbnailCacheSize.mapError .exception)
  let thumbnailBytes ← ExceptT.lift (cacheBytes thumbnail)
  let failure ← defined (s.failureCacheSize.mapError .exception)
  let failureBytes ← ExceptT.lift (cacheBytes failure)
  let maxSize ← defined (s.maxThumbnailSize.mapError .exception)
  let retryNotFoundHours ← defined (s.retryNotFoundHours.mapError .exception)
  let timeout ← defined (s.extractionTimeout.mapError .exception)
  let milliseconds ← ExceptT.lift (timeoutMilliseconds timeout)
  let minBackoff ← ExceptT.lift (minBackoffSeconds timeout)
  let backoff ← defined ((BackoffAdjuster.new.setMinBackoff minBackoff).mapError .assertion)
  let retryErrorHours ← defined (s.retryErrorHours.mapError .exception)
  let maxBackoff ← ExceptT.lift (retryErrorMaxSeconds retryErrorHours timeout)
  let backoff ← defined ((backoff.setMaxBackoff maxBackoff).mapError .assertion)
  return ⟨fullBytes,thumbnailBytes,failureBytes,maxSize,retryNotFoundHours,milliseconds,backoff⟩

/-- The validation accepts all settings, and reads these values. -/
structure Reads (s : Settings) (v : Values) : Prop where
  fullSize : s.fullSizeCacheSize = .ok v.fullSize
  thumbnail : s.thumbnailCacheSize = .ok v.thumbnail
  failure : s.failureCacheSize = .ok v.failure
  maxSize : ∃ n, s.maxThumbnailSize = .ok n
  timeout : s.extractionTimeout = .ok v.timeout
  errorHours : s.retryErrorHours = .ok v.errorHours
  notFoundHours : s.retryNotFoundHours = .ok v.notFoundHours

/-- What is read from `int` settings is admitted. -/
theorem Reads.admitted {s : Settings} {v : Values} (h : Reads s v)
    (hint : ∀ key, ∀ n ∈ s.value key, Fits 32 n) : v.Admitted := by
  have hread : ∀ {key : String} {d n : ℤ}, Fits 32 d → s.getPositiveInt key d = .ok n →
      Admitted n := by
    intro key d n hd hn
    refine ⟨getPositiveInt_pos hn,?_⟩
    simp only [Settings.getPositiveInt] at hn
    split_ifs at hn
    obtain rfl := Except.ok.inj hn
    unfold Settings.getInt
    cases hvalue : s.value key with
    | none => exact hd
    | some i => exact hint key i hvalue
  exact ⟨hread (by decide) h.fullSize,hread (by decide) h.thumbnail,hread (by decide) h.failure,
    hread (by decide) h.timeout,hread (by decide) h.errorHours,hread (by decide) h.notFoundHours⟩

/-- Where the arithmetic is exact, the constructor computes what it is meant to. -/
theorem configureInt_eq {s : Settings} {v : Values} {now : ℤ} (h : Reads s v)
    (hexact : Exact v now) : configureInt s = some (configure s) := by
  obtain ⟨maxSize,hsize⟩ := h.maxSize
  have haccepted : s.Accepted v.timeout v.errorHours := ⟨⟨_,h.fullSize⟩,⟨_,h.thumbnail⟩,
    ⟨_,h.failure⟩,h.maxSize,⟨_,h.notFoundHours⟩,h.timeout,h.errorHours⟩
  have hmax := retryErrorMaxSeconds_eq haccepted
  have hmin := BackoffAdjuster.setMinBackoff_of_pos .new
    (show 0 < v.timeout*2 by have := haccepted.pos; omega)
  unfold configureInt configure
  simp only [h.fullSize,h.thumbnail,h.failure,hsize,h.timeout,h.errorHours,h.notFoundHours,hmax,
    Except.mapError,defined_ok_bind,hexact.fullSize,hexact.thumbnail,hexact.failure,
    hexact.timeout,hexact.minBackoff,hexact.maxBackoff,lift_some_bind,hmin,ok_bind]
  cases BackoffAdjuster.setMaxBackoff _ _ <;> rfl

/-! ### All of the arithmetic -/

/-- For all settings that the validation admits, the arithmetic is exact exactly when they
are moderate. -/
theorem exact_iff_moderate (v : Values) (now : ℤ) (h : v.Admitted) (hnow : Fits 64 now) :
    Exact v now ↔ Moderate v now := by
  have hfull := cacheBytes_exact_iff h.fullSize.1
  have hthumbnail := cacheBytes_exact_iff h.thumbnail.1
  have hfailure := cacheBytes_exact_iff h.failure.1
  have htimeout := timeoutMilliseconds_exact_iff h.timeout.1
  have hmin := minBackoffSeconds_exact_iff h.timeout.1
  have hmax := retryErrorMaxSeconds_exact_iff h.errorHours h.timeout
  have hexpiry := expiryTime_exact_iff h.notFoundHours hnow
  constructor
  · intro he
    obtain ⟨hhours,hend⟩ := hexpiry.mp he.expiry
    exact ⟨hfull.mp he.fullSize,hthumbnail.mp he.thumbnail,hfailure.mp he.failure,
      htimeout.mp he.timeout,(hmax.mp he.maxBackoff).1,hhours,hend⟩
  · intro hm
    have hdouble : v.timeout ≤ 1073741823 := hm.timeout.trans (by decide)
    exact ⟨hfull.mpr hm.fullSize,hthumbnail.mpr hm.thumbnail,hfailure.mpr hm.failure,
      htimeout.mpr hm.timeout,hmin.mpr hdouble,hmax.mpr ⟨hm.errorHours,hdouble⟩,
      hexpiry.mpr ⟨hm.notFoundHours,hm.expiry⟩⟩

/-- The default settings, at some moment of the year 2023. -/
def defaultValues : Values := ⟨50,100,2,10,2,168⟩

theorem exact_defaultValues : Reads defaultSettings defaultValues ∧
    Exact defaultValues 1700000000000000000 := by
  have hreads : Reads defaultSettings defaultValues := ⟨rfl,rfl,rfl,⟨1920,rfl⟩,rfl,rfl,rfl⟩
  have hadmitted := hreads.admitted fun key n hn => by cases hn
  exact ⟨hreads,(exact_iff_moderate defaultValues 1700000000000000000 hadmitted (by decide)).mpr
    ⟨by decide,by decide,by decide,by decide,by decide,by decide,by decide⟩⟩

/-- A cache of 2 GB for the images. -/
def largeCache : Settings := ⟨Settings.defaultSchemaName,fun key =>
  if key = "full-size-cache-size" then some 2048 else none⟩

/-- Its size in bytes is not an `int` any more, although the cache would take it. -/
theorem largeCache_overflows : ∃ v : Values, Reads largeCache v ∧ v.Admitted ∧
    configureInt largeCache = none ∧ ¬ Exact v 1700000000000000000 := by
  refine ⟨⟨2048,100,2,10,2,168⟩,⟨rfl,rfl,rfl,⟨1920,rfl⟩,rfl,rfl,rfl⟩,
    ⟨by decide,by decide,by decide,by decide,by decide,by decide⟩,rfl,fun h => ?_⟩
  have hsome : cacheBytes 2048 = some (2048*1024*1024) := h.fullSize
  exact absurd hsome (by decide)

end StartupArithmetic
end UnityThumbnailer
