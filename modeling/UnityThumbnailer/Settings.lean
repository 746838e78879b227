import UnityThumbnailer.BackoffAdjuster

/-! The settings of the service, and the bounds of the backoff period that the constructor
of `Thumbnailer` derives from them. -/
namespace UnityThumbnailer

/-- The integer values found under the keys of the schema; there is none when the schema
is not installed or does not have the key. -/
structure Settings where
  schemaName : String
  value : String → Option ℤ

namespace Settings

def defaultSchemaName : String := "com.canonical.Unity.Thumbnailer"

def getInt (s : Settings) (key : String) (defaultValue : ℤ) : ℤ :=
  (s.value key).getD defaultValue

/-- Zero and negative values throw. -/
def getPositiveInt (s : Settings) (key : String) (defaultValue : ℤ) : Except String ℤ :=
  let i := s.getInt key defaultValue
  if i ≤ 0 then
    .error ("Settings::get_positive_int(): invalid zero or negative value for " ++ key ++ ": "
      ++ toString i ++ " in schema " ++ s.schemaName)
  else .ok i

section Getters

variable (s : Settings)

def fullSizeCacheSize : Except String ℤ := s.getPositiveInt "full-size-cache-size" 50

def thumbnailCacheSize : Except String ℤ := s.getPositiveInt "thumbnail-cache-size" 100

def failureCacheSize : Except String ℤ := s.getPositiveInt "failure-cache-size" 2

def maxThumbnailSize : Except String ℤ := s.getPositiveInt "max-thumbnail-size" 1920

def retryNotFoundHours : Except String ℤ := s.getPositiveInt "retry-not-found-hours" 168

def retryErrorHours : Except String ℤ := s.getPositiveInt "retry-error-hours" 2

def extractionTimeout : Except String ℤ := s.getPositiveInt "extraction-timeout" 10

/-- The maximum of the backoff period, raised to twice the extraction timeout if it is
less. -/
def retryErrorMaxSeconds : Except String ℤ := do
  let retryErrorHours ← s.retryErrorHours
  let extractionTimeout ← s.extractionTimeout
  let retryMax := retryErrorHours*3600
  let retryMin := 2*extractionTimeout
  return if retryMax < retryMin then retryMin else retryMax

end Getters

end Settings

/-- How the constructor of `Thumbnailer` can fail. -/
inductive Failure
  | exception (what : String)
  | assertion (text : String)
  deriving DecidableEq

/-- The members that the constructor takes from the settings, with the sizes of the caches
in bytes and the timeout in milliseconds. -/
structure Members where
  fullSizeCacheSize : ℤ
  thumbnailCacheSize : ℤ
  failureCacheSize : ℤ
  maxSize : ℤ
  retryNotFoundHours : ℤ
  extractionTimeout : ℤ
  backoff : BackoffAdjuster

/-- The settings part of the constructor. -/
def configure (s : Settings) : Except Failure Members := do
  let fullSize ← s.fullSizeCacheSize.mapError .exception
  let thumbnail ← s.thumbnailCacheSize.mapError .exception
  let failure ← s.failureCacheSize.mapError .exception
  let maxSize ← s.maxThumbnailSize.mapError .exception
  let retryNotFoundHours ← s.retryNotFoundHours.mapError .exception
  let timeout ← s.extractionTimeout.mapError .exception
  let backoff ← (BackoffAdjuster.new.setMinBackoff (timeout*2)).mapError .assertion
  let maxBackoff ← s.retryErrorMaxSeconds.mapError .exception
  let backoff ← (backoff.setMaxBackoff maxBackoff).mapError .assertion
  return ⟨fullSize*1024*1024,thumbnail*1024*1024,failure*1024*1024,maxSize,retryNotFoundHours,
    timeout*1000,backoff⟩

/-! ### The bounds of the backoff period -/

/-- The validation accepts all settings, with these values of the two that matter for the
backoff period. -/
structure Settings.Accepted (s : Settings) (timeout hours : ℤ) : Prop where
  fullSize : ∃ n, s.fullSizeCacheSize = .ok n
  thumbnail : ∃ n, s.thumbnailCacheSize = .ok n
  failure : ∃ n, s.failureCacheSize = .ok n
  maxSize : ∃ n, s.maxThumbnailSize = .ok n
  retryNotFoundHours : ∃ n, s.retryNotFoundHours = .ok n
  timeout : s.extractionTimeout = .ok timeout
  hours : s.retryErrorHours = .ok hours

theorem getPositiveInt_pos {s : Settings} {key : String} {d n : ℤ}
    (h : s.getPositiveInt key d = .ok n) : 0 < n := by
  simp only [Settings.getPositiveInt] at h
  split_ifs at h with hpos
  obtain rfl := Except.ok.inj h
  omega

section Bounds

variable {s : Settings} {timeout hours : ℤ} (h : s.Accepted timeout hours)
include h

theorem Settings.Accepted.pos : 0 < timeout ∧ 0 < hours :=
  ⟨getPositiveInt_pos h.timeout,getPositiveInt_pos h.hours⟩

theorem retryErrorMaxSeconds_eq :
    s.retryErrorMaxSeconds = .ok (max (hours*3600) (2*timeout)) := by
  unfold Settings.retryErrorMaxSeconds
  rw [h.hours,h.timeout]
  change Except.ok (if hours*3600 < 2*timeout then 2*timeout else hours*3600) = _
  congr 1
  split_ifs <;> omega

/-- The adjuster with the bounds that these settings give. -/
def boundedBackoff (timeout hours : ℤ) : BackoffAdjuster :=
  ⟨0,0,timeout*2,max (hours*3600) (2*timeout)⟩

/-- Of the settings part of the constructor, only the assertion on the maximum can fail. -/
theorem configure_accepted : ∃ m : Members, m.backoff = boundedBackoff timeout hours ∧
    configure s =
      if 2*(timeout*2) ≤ max (hours*3600) (2*timeout) then .ok m
      else .error (.assertion "max_backoff.count() >= 2 * min_backoff_.count()") := by
  obtain ⟨fullSize,hfull⟩ := h.fullSize
  obtain ⟨thumbnail,hthumb⟩ := h.thumbnail
  obtain ⟨failure,hfail⟩ := h.failure
  obtain ⟨maxSize,hsize⟩ := h.maxSize
  obtain ⟨retryHours,hretry⟩ := h.retryNotFoundHours
  have hpos := h.pos
  have hmin := BackoffAdjuster.setMinBackoff_of_pos .new (show 0 < timeout*2 by omega)
  have hmax : 0 < max (hours*3600) (2*timeout) := by omega
  refine ⟨⟨fullSize*1024*1024,thumbnail*1024*1024,failure*1024*1024,maxSize,retryHours,
    timeout*1000,boundedBackoff timeout hours⟩,rfl,?_⟩
  unfold configure
  rw [hfull,hthumb,hfail,hsize,hretry,h.timeout,retryErrorMaxSeconds_eq h]
  change Except.bind (Except.mapError Failure.assertion
    (BackoffAdjuster.new.setMinBackoff (timeout*2))) _ = _
  rw [hmin]
  change Except.bind (Except.mapError Failure.assertion (BackoffAdjuster.setMaxBackoff _ _)) _ = _
  simp only [BackoffAdjuster.setMaxBackoff,hmax,not_true_eq_false,if_false]
  split_ifs <;> rfl

end Bounds

/-- With settings that the validation accepts, the constructor gets past the assertions on
the bounds of the backoff period exactly when the timeout in seconds is at most 900 times
the hours; the products are those of the source as long as none of them overflows. -/
theorem backoffBounds_iff (s : Settings) (timeout hours : ℤ) (h : s.Accepted timeout hours) :
    (∃ m, configure s = .ok m ∧ 2*m.backoff.minBackoff ≤ m.backoff.maxBackoff) ↔
      timeout ≤ 900*hours := by
  have hpos := h.pos
  have hle : 2*(timeout*2) ≤ max (hours*3600) (2*timeout) ↔ timeout ≤ 900*hours := by omega
  obtain ⟨m,hbackoff,hconfigure⟩ := configure_accepted h
  rw [hconfigure,← hle]
  split_ifs with hbound
  · refine iff_of_true ⟨m,rfl,?_⟩ hbound
    rw [hbackoff]
    exact hbound
  · exact iff_of_false (by simp) hbound

/-- The default settings. -/
def defaultSettings : Settings := ⟨Settings.defaultSchemaName,fun _ => none⟩

theorem defaultSettings_accepted : defaultSettings.Accepted 10 2 :=
  ⟨⟨50,rfl⟩,⟨100,rfl⟩,⟨2,rfl⟩,⟨1920,rfl⟩,⟨168,rfl⟩,rfl,rfl⟩

theorem backoffBounds_defaults : defaultSettings.Accepted 10 2 ∧
    ((∃ m, configure defaultSettings = .ok m ∧ 2*m.backoff.minBackoff ≤ m.backoff.maxBackoff) ↔
      10 ≤ 900*(2 : ℤ)) :=
  ⟨defaultSettings_accepted,backoffBounds_iff defaultSettings 10 2 defaultSettings_accepted⟩

/-- An extraction timeout of 1000 seconds and one hour until errors are retried. -/
def slowExtraction : Settings := ⟨Settings.defaultSchemaName,fun key =>
  if key = "extraction-timeout" then some 1000
  else if key = "retry-error-hours" then some 1
  else none⟩

theorem slowExtraction_accepted : slowExtraction.Accepted 1000 1 :=
  ⟨⟨50,rfl⟩,⟨100,rfl⟩,⟨2,rfl⟩,⟨1920,rfl⟩,⟨168,rfl⟩,rfl,rfl⟩

/-- These settings are accepted, and the service does not start with them. -/
theorem slowExtraction_aborts : slowExtraction.Accepted 1000 1 ∧
    ¬ ∃ m, configure slowExtraction = .ok m ∧ 2*m.backoff.minBackoff ≤ m.backoff.maxBackoff := by
  refine ⟨slowExtraction_accepted,?_⟩
  rintro ⟨m,hm,_⟩
  obtain ⟨_,_,hconfigure⟩ := configure_accepted slowExtraction_accepted
  rw [hconfigure] at hm
  cases hm

end UnityThumbnailer
