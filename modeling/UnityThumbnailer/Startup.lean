import UnityThumbnailer.CacheKeys
import UnityThumbnailer.Settings
import UnityThumbnailer.EventSystem

/-! Construction and destruction of the `Thumbnailer`, over the cache directory that all
runs of the service share: the version files, and the entries of the three caches. -/
namespace UnityThumbnailer

open EventSystem

/-- An entry of a cache; the cache version of the program that wrote it is not stored. -/
structure Stored where
  key : String
  value : String
  writtenBy : ℤ
  deriving DecidableEq

/-- The version files hold the numbers that can be read from them, if they exist. -/
structure CacheDir where
  versionFile : Option (List ℤ)
  cacheVersionFile : Option (List ℤ)
  entries : Cache → List Stored

namespace CacheDir

def find (d : CacheDir) (cache : Cache) (key : String) : Option String :=
  ((d.entries cache).find? (·.key = key)).map Stored.value

def setEntries (d : CacheDir) (cache : Cache) (es : List Stored) : CacheDir :=
  { d with entries := Function.update d.entries cache es }

/-- Entries are replaced under their key. -/
def put (d : CacheDir) (cache : Cache) (e : Stored) : CacheDir :=
  d.setEntries cache (e :: (d.entries cache).filter (·.key ≠ e.key))

/-- Only some of the entries are left. -/
def keep (d : CacheDir) (cache : Cache) (kept : Stored → Bool) : CacheDir :=
  d.setEntries cache ((d.entries cache).filter kept)

section

variable {d : CacheDir} {cache c : Cache} {es : List Stored} {e f : Stored}

theorem mem_setEntries : e ∈ (d.setEntries c es).entries cache ↔
    if cache = c then e ∈ es else e ∈ d.entries cache := by
  by_cases h : cache = c
  · subst h
    simp [setEntries]
  · simp [setEntries,h]

theorem mem_keep {kept : Stored → Bool} : e ∈ (d.keep c kept).entries cache ↔
    e ∈ d.entries cache ∧ (cache = c → kept e = true) := by
  rw [keep,mem_setEntries]
  by_cases h : cache = c
  · subst h
    simp
  · simp [h]

theorem mem_put (h : e ∈ (d.put c f).entries cache) : e = f ∨ e ∈ d.entries cache := by
  rw [put,mem_setEntries] at h
  split_ifs at h with hc
  · subst hc
    rcases List.mem_cons.mp h with rfl | hold
    · exact Or.inl rfl
    · exact Or.inr (List.mem_filter.mp hold).1
  · exact Or.inr h

theorem find_put_self : (d.put c f).find c f.key = some f.value := by
  simp [find,put,setEntries]

theorem find_put_of_ne {key : String} (h : f.key ≠ key) :
    (d.put c f).find c key = d.find c key := by
  have hsame : ((d.entries c).filter (·.key ≠ f.key)).find? (·.key = key) =
      (d.entries c).find? (·.key = key) := by
    rw [List.find?_filter]
    congr 1
    funext e
    by_cases he : e.key = key
    · simp [he,Ne.symm h]
    · simp [he]
  simp only [find,put,setEntries,Function.update_self]
  rw [List.find?_cons_of_neg (by simpa using h),hsame]

/-- What is found under a key is the value of an entry of that key. -/
theorem find_some {key value : String} (h : d.find c key = some value) :
    ∃ e ∈ d.entries c, e.key = key ∧ e.value = value := by
  obtain ⟨e,he,hvalue⟩ := Option.map_eq_some_iff.mp h
  exact ⟨e,List.mem_of_find?_eq_some he,by simpa using List.find?_some he,hvalue⟩

end

end CacheDir

/-- The version constants of a program. -/
structure Version where
  major : ℤ
  minor : ℤ
  micro : ℤ
  cacheVersion : ℤ

/-- What comes of writing a version file: all of it is written, the file cannot be opened,
or it is left with other contents when the writing fails. -/
inductive FileWrite
  | written
  | notOpened
  | failed (rest : List ℤ)
  deriving DecidableEq

def FileWrite.apply (w : FileWrite) (numbers : List ℤ) (file : Option (List ℤ)) :
    Option (List ℤ) :=
  match w with
  | .written => some numbers
  | .notOpened => file
  | .failed rest => some rest

/-- A number of a version file, or its default when the file does not exist or ends before. -/
def readNumber (file : Option (List ℤ)) (i : ℕ) (defaultValue : ℤ) : ℤ :=
  ((file.getD [])[i]?).getD defaultValue

namespace Version

def prevMajor (d : CacheDir) : ℤ := readNumber d.versionFile 0 2

def prevMinor (d : CacheDir) : ℤ := readNumber d.versionFile 1 3

def prevMicro (d : CacheDir) : ℤ := readNumber d.versionFile 2 0

def prevCacheVersion (d : CacheDir) : ℤ := readNumber d.cacheVersionFile 0 0

def updateVersion (v : Version) (d : CacheDir) : Bool :=
  prevMajor d ≠ v.major || prevMinor d ≠ v.minor || prevMicro d ≠ v.micro

def updateCacheVersion (v : Version) (d : CacheDir) : Bool := prevCacheVersion d ≠ v.cacheVersion

/-- The destructor, which writes the files that are out of date since the constructor; when
the first cannot be opened, it leaves the second alone. -/
def destruct (v : Version) (updateVersion updateCacheVersion : Bool)
    (versionWrite cacheVersionWrite : FileWrite) (d : CacheDir) : CacheDir :=
  if updateVersion && (versionWrite matches .notOpened) then d
  else
    let d := if updateVersion
      then { d with versionFile := versionWrite.apply [v.major,v.minor,v.micro] d.versionFile }
      else d
    if updateCacheVersion
    then { d with cacheVersionFile := cacheVersionWrite.apply [v.cacheVersion] d.cacheVersionFile }
    else d

end Version

inductive CacheSelector
  | all | fullSizeCache | thumbnailCache | failureCache
  deriving DecidableEq

def selectCaches : CacheSelector → List Cache
  | .fullSizeCache => [.fullSize]
  | .thumbnailCache => [.thumbnail]
  | .failureCache => [.failure]
  | .all => [.fullSize,.thumbnail,.failure]

namespace Startup

/-- The outcome of `invalidate()` on each cache: none when it succeeds, or an exception
with the entries that are left when it is thrown. -/
abbrev Invalidation := Cache → Option (String × (Stored → Bool))

/-- Invalidate the caches one after the other, up to the first exception. -/
def invalidate (io : Invalidation) : List Cache → CacheDir → Option String × CacheDir
  | [], d => (none,d)
  | cache::caches, d =>
    match io cache with
    | none => invalidate io caches (d.setEntries cache [])
    | some (what,kept) => (some what,d.keep cache kept)

/-- `Thumbnailer::clear()`: an exception leaves the backoff as it is. -/
def clear (io : Invalidation) (selector : CacheSelector) (d : CacheDir) (b : BackoffAdjuster) :
    Except String BackoffAdjuster × CacheDir :=
  match invalidate io (selectCaches selector) d with
  | (some what,d) => (.error what,d)
  | (none,d) =>
    if selector = .failureCache ∨ selector = .all
    -- zero is never more than the maximum
    then (.ok { b.setLastFailTime 0 with backoffPeriod := 0 },d)
    else (.ok b,d)

/-- What the system decides about one construction. -/
structure StartScript where
  invalidation : Invalidation
  versionWrite : FileWrite
  cacheVersionWrite : FileWrite

/-- Apply the adjustments that are version-dependent; the destructor of the version object
runs at the end, also when an exception leaves the function. -/
def applyUpgradeActions (v : Version) (io : StartScript) (d : CacheDir) (b : BackoffAdjuster) :
    Except String BackoffAdjuster × CacheDir :=
  let r := if Version.prevCacheVersion d ≠ v.cacheVersion
    then clear io.invalidation .all d b else (.ok b,d)
  (r.1,v.destruct (v.updateVersion d) (v.updateCacheVersion d) io.versionWrite
    io.cacheVersionWrite r.2)

/-- `stoll()`, of strings that `to_string()` has made. -/
def stoll (s : String) : Except String ℤ :=
  match s.toInt? with
  | some n => .ok n
  | none => .error "stoll"

/-- Read the time of the last failure, if it is stored. -/
def restoreFailTime (d : CacheDir) (b : BackoffAdjuster) : Except Failure BackoffAdjuster :=
  match d.find .failure CacheKeys.lastNetworkFailTimeKey with
  | none => .ok b
  | some text =>
    ((stoll text).mapError .exception).map fun seconds =>
      b.setLastFailTime (seconds*nanosPerSecond)

/-- Read the backoff period, if it is stored. -/
def restorePeriod (d : CacheDir) (b : BackoffAdjuster) : Except Failure BackoffAdjuster :=
  match d.find .failure CacheKeys.backoffPeriodKey with
  | none => .ok b
  | some text => do
    let seconds ← (stoll text).mapError .exception
    (b.setBackoffPeriod seconds).mapError .assertion

/-- The constructor up to the version-dependent adjustments, which only reads. -/
def prepare (settings : Settings) (d : CacheDir) : Except Failure Members := do
  let m ← configure settings
  let b ← restoreFailTime d m.backoff
  let b ← restorePeriod d b
  return { m with backoff := b }

/-- Exceptions are wrapped before they leave the constructor. -/
def wrap : Failure → Failure
  | .exception what => .exception ("Thumbnailer(): Cannot instantiate cache: " ++ what)
  | .assertion text => .assertion text

/-- The constructor. -/
def construct (v : Version) (settings : Settings) (io : StartScript) (d : CacheDir) :
    Except Failure Members × CacheDir :=
  match prepare settings d with
  | .error e => (.error (wrap e),d)
  | .ok m =>
    let r := applyUpgradeActions v io d m.backoff
    ((r.1.mapError fun what => wrap (.exception what)).map fun b =>
      { m with backoff := b },r.2)

/-- What comes of a `put()` into a cache. -/
inductive PutOutcome
  | stored | rejected | threw
  deriving DecidableEq

def storeNumber (cacheVersion : ℤ) (outcome : PutOutcome) (key : String) (n : ℤ) (d : CacheDir) :
    CacheDir :=
  if outcome = .stored then d.put .failure ⟨key,toString n,cacheVersion⟩ else d

/-- The destructor stores the backoff state in whole seconds; what it throws is dropped. -/
def destruct (cacheVersion : ℤ) (b : BackoffAdjuster) (first second : PutOutcome) (d : CacheDir) :
    CacheDir :=
  if first = .threw then d
  else storeNumber cacheVersion second CacheKeys.backoffPeriodKey b.backoffPeriod
    (storeNumber cacheVersion first CacheKeys.lastNetworkFailTimeKey
      (b.lastFailTime.tdiv nanosPerSecond) d)

/-- The cache directory, with the program that was started on it last, the backoff state of
the service while it runs, and the failure of its construction. -/
structure Host where
  dir : CacheDir
  program : Option ℤ
  running : Option BackoffAdjuster
  failure : Option Failure

inductive Event
  | start (v : Version) (settings : Settings) (io : StartScript)
  /-- The service stores an entry; its keys are never the reserved ones. -/
  | put (cache : Cache) (key value : String)
  /-- Entries are evicted, expire, or are lost with a corrupt database. -/
  | drop (cache : Cache) (kept : Stored → Bool)
  | failed (now : ℤ)
  | answered (now : ℤ)
  | clear (selector : CacheSelector) (io : Invalidation)
  | stop (first second : PutOutcome)
  | kill

def reserved (key : String) : Bool :=
  key = CacheKeys.lastNetworkFailTimeKey || key = CacheKeys.backoffPeriodKey

/-- A construction of the service by some program, when it is not running. -/
def Host.start (s : Host) (v : Version) (settings : Settings) (io : StartScript) : Host :=
  let r := construct v settings io s.dir
  match r.1 with
  | .ok m => ⟨r.2,some v.cacheVersion,some m.backoff,none⟩
  | .error e => ⟨r.2,some v.cacheVersion,none,some e⟩

/-- What happens to the service while it runs as a program of this cache version. -/
def Host.serve (s : Host) (version : ℤ) (b : BackoffAdjuster) : Event → Option Host
  | .put cache key value =>
    if reserved key then none else some { s with dir := s.dir.put cache ⟨key,value,version⟩ }
  | .failed now => some { s with running := some (b.adjustRetryLimit now).1 }
  | .answered now => some { s with running := some (b.reset now) }
  | .clear selector io =>
    let r := Startup.clear io selector s.dir b
    -- the exception goes to the administrator
    some { s with dir := r.2, running := some (r.1.toOption.getD b) }
  | .stop first second =>
    some { s with dir := destruct version b first second s.dir, running := none }
  | .kill => some { s with running := none }
  | .start .. | .drop .. => none

/-- All runs of all programs on one cache directory. -/
def restarts : Machine Host Event where
  step s e :=
    match e with
    | .start v settings io => if s.running = none then some (s.start v settings io) else none
    | .drop cache kept => some { s with dir := s.dir.keep cache kept }
    | e =>
      match s.program,s.running with
      | some version,some b => s.serve version b e
      | _,_ => none

/-- A directory without files, on which nothing has run. -/
def emptyHost : Host := ⟨⟨none,none,fun _ => []⟩,none,none,none⟩

/-! ### What a start leaves alone -/

section Frame

variable {v : Version} {settings : Settings} {io : Invalidation} {d : CacheDir} {s : Host}
  {cache : Cache} {e : Stored}

theorem mem_of_invalidate (cs : List Cache) (h : e ∈ (invalidate io cs d).2.entries cache) :
    e ∈ d.entries cache := by
  induction cs generalizing d with
  | nil => exact h
  | cons c cs ih =>
    cases hio : io c with
    | none =>
      simp only [invalidate,hio] at h
      have hleft := CacheDir.mem_setEntries.mp (ih h)
      split_ifs at hleft
      · cases hleft
      · exact hleft
    | some r =>
      simp only [invalidate,hio] at h
      exact (CacheDir.mem_keep.mp h).1

theorem invalidate_files (cs : List Cache) :
    (invalidate io cs d).2.cacheVersionFile = d.cacheVersionFile ∧
      (invalidate io cs d).2.versionFile = d.versionFile := by
  induction cs generalizing d with
  | nil => exact ⟨rfl,rfl⟩
  | cons c cs ih =>
    cases hio : io c with
    | none =>
      simp only [invalidate,hio]
      exact ih
    | some r =>
      simp only [invalidate,hio]
      exact ⟨rfl,rfl⟩

theorem clear_snd (selector : CacheSelector) (b : BackoffAdjuster) :
    (clear io selector d b).2 = (invalidate io (selectCaches selector) d).2 := by
  unfold clear
  rcases invalidate io (selectCaches selector) d with ⟨_ | what,d'⟩
  · simp only
    split_ifs <;> rfl
  · rfl

@[simp] theorem destruct_entries (u uc : Bool) (w1 w2 : FileWrite) :
    (v.destruct u uc w1 w2 d).entries = d.entries := by
  unfold Version.destruct
  split_ifs <;> rfl

theorem mem_of_applyUpgradeActions {io : StartScript} {b : BackoffAdjuster}
    (h : e ∈ (applyUpgradeActions v io d b).2.entries cache) : e ∈ d.entries cache := by
  simp only [applyUpgradeActions,destruct_entries] at h
  split_ifs at h
  · rw [clear_snd] at h
    exact mem_of_invalidate _ h
  · exact h

theorem start_program (io : StartScript) :
    (s.start v settings io).program = some v.cacheVersion := by
  unfold Host.start
  rcases construct v settings io s.dir with ⟨_ | _,d⟩ <;> rfl

theorem start_dir (io : StartScript) :
    (s.start v settings io).dir = (construct v settings io s.dir).2 := by
  unfold Host.start
  rcases construct v settings io s.dir with ⟨_ | _,d⟩ <;> rfl

/-- A start adds no entries. -/
theorem mem_of_start {io : StartScript} (h : e ∈ (s.start v settings io).dir.entries cache) :
    e ∈ s.dir.entries cache := by
  rw [start_dir] at h
  unfold construct at h
  cases hprepare : prepare settings s.dir with
  | error what => rwa [hprepare] at h
  | ok m =>
    rw [hprepare] at h
    exact mem_of_applyUpgradeActions h

/-- A service that has started came through both parts of the constructor. -/
theorem start_running {io : StartScript} {b : BackoffAdjuster}
    (h : (s.start v settings io).running = some b) : ∃ m, prepare settings s.dir = .ok m ∧
      (applyUpgradeActions v io s.dir m.backoff).1 = .ok b := by
  unfold Host.start construct at h
  cases hprepare : prepare settings s.dir with
  | error e =>
    rw [hprepare] at h
    cases h
  | ok m =>
    refine ⟨m,rfl,?_⟩
    rw [hprepare] at h
    rcases happly : applyUpgradeActions v io s.dir m.backoff with ⟨_ | c,d⟩
    · simp only [happly] at h
      cases h
    · simp only [happly] at h
      exact congrArg Except.ok (Option.some.inj h)

/-- Clearing the caches leaves the adjuster alone, or takes it back to "no failure". -/
theorem clear_cases {selector : CacheSelector} {b c : BackoffAdjuster}
    (h : (clear io selector d b).1 = .ok c) :
    c = b ∨ c = { b with lastFailTime := 0, backoffPeriod := 0 } := by
  unfold clear at h
  rcases hinvalidate : invalidate io (selectCaches selector) d with ⟨_ | what,d'⟩
  · simp only [hinvalidate] at h
    split_ifs at h
    · exact Or.inr (Except.ok.inj h).symm
    · exact Or.inl (Except.ok.inj h).symm
  · rw [hinvalidate] at h
    cases h

theorem applyUpgradeActions_cases {io : StartScript} {b c : BackoffAdjuster}
    (h : (applyUpgradeActions v io d b).1 = .ok c) :
    c = b ∨ c = { b with lastFailTime := 0, backoffPeriod := 0 } := by
  unfold applyUpgradeActions at h
  simp only at h
  split_ifs at h
  · exact clear_cases h
  · exact Or.inl (Except.ok.inj h).symm

end Frame

/-! ### What the running service and the failure cache carry along -/

/-- The adjuster of the running service has one property, and the entries of the failure
cache have another. -/
structure Carried (P : BackoffAdjuster → Prop) (Q : Stored → Prop) (s : Host) : Prop where
  running : ∀ b ∈ s.running, P b
  stored : ∀ e ∈ s.dir.entries .failure, Q e

section Carry

variable {P : BackoffAdjuster → Prop} {Q : Stored → Prop} {s t : Host} {e : Event}

/-- The two properties go well together: cleared adjusters and stored ones are covered. -/
structure Carries (P : BackoffAdjuster → Prop) (Q : Stored → Prop) : Prop where
  zero : ∀ b, P b → P { b with lastFailTime := 0, backoffPeriod := 0 }
  put : ∀ key value version, reserved key = false → Q ⟨key,value,version⟩
  failTime : ∀ b version, P b →
    Q ⟨CacheKeys.lastNetworkFailTimeKey,toString (b.lastFailTime.tdiv nanosPerSecond),version⟩
  period : ∀ b version, P b →
    Q ⟨CacheKeys.backoffPeriodKey,toString b.backoffPeriod,version⟩

theorem storeNumber_carried {d : CacheDir} {version n : ℤ} {outcome : PutOutcome} {key : String}
    (hd : ∀ e ∈ d.entries .failure, Q e) (hn : Q ⟨key,toString n,version⟩) :
    ∀ e ∈ (storeNumber version outcome key n d).entries .failure, Q e := by
  intro e he
  unfold storeNumber at he
  split_ifs at he
  · rcases CacheDir.mem_put he with rfl | hold
    · exact hn
    · exact hd e hold
  · exact hd e he

theorem Carried.serve {version : ℤ} {b : BackoffAdjuster} (hc : Carries P Q)
    (h : Carried P Q s) (hb : s.running = some b)
    (hfailed : ∀ now, e = .failed now → P (b.adjustRetryLimit now).1)
    (hanswered : ∀ now, e = .answered now → P (b.reset now))
    (ht : s.serve version b e = some t) : Carried P Q t := by
  have hP : P b := h.running b hb
  have hnow : ∀ c d, P c → (∀ f ∈ d.entries .failure, Q f) →
      Carried P Q { s with dir := d, running := some c } :=
    fun c d hPc hd => ⟨fun c' hc' => Option.some.inj hc' ▸ hPc,hd⟩
  have hover : ∀ d, (∀ f ∈ d.entries .failure, Q f) →
      Carried P Q { s with dir := d, running := none } := fun d hd => ⟨by simp,hd⟩
  cases e with
  | start v settings io | drop cache kept => cases ht
  | put c key value =>
    simp only [Host.serve,Option.ite_none_left_eq_some,Option.some.injEq] at ht
    obtain ⟨hkey,rfl⟩ := ht
    refine ⟨h.running,fun f hf => ?_⟩
    rcases CacheDir.mem_put hf with rfl | hold
    · exact hc.put key value version (Bool.eq_false_iff.mpr hkey)
    · exact h.stored f hold
  | failed now =>
    obtain rfl := Option.some.inj ht
    exact hnow _ _ (hfailed now rfl) h.stored
  | answered now =>
    obtain rfl := Option.some.inj ht
    exact hnow _ _ (hanswered now rfl) h.stored
  | clear selector io =>
    obtain rfl := Option.some.inj ht
    refine hnow _ _ ?_ fun f hf => ?_
    · cases hclear : (Startup.clear io selector s.dir b).1 with
      | error what => exact hP
      | ok c =>
        rcases clear_cases hclear with rfl | rfl
        · exact hP
        · exact hc.zero b hP
    · rw [clear_snd] at hf
      exact h.stored f (mem_of_invalidate _ hf)
  | stop first second =>
    obtain rfl := Option.some.inj ht
    refine hover _ ?_
    unfold destruct
    split_ifs
    · exact h.stored
    · exact storeNumber_carried (storeNumber_carried h.stored (hc.failTime b version hP))
        (hc.period b version hP)
  | kill =>
    obtain rfl := Option.some.inj ht
    exact hover _ h.stored

/-- One event carries the properties along, if a start establishes them and the two reports
about the server keep them. -/
theorem Carried.step (hc : Carries P Q) (h : Carried P Q s)
    (hstart : ∀ v settings io, e = .start v settings io →
      ∀ b, (s.start v settings io).running = some b → P b)
    (hfailed : ∀ now b, e = .failed now → P b → P (b.adjustRetryLimit now).1)
    (hanswered : ∀ now b, e = .answered now → P b → P (b.reset now))
    (ht : restarts.step s e = some t) : Carried P Q t := by
  cases e with
  | start v settings io =>
    simp only [restarts,Option.ite_none_right_eq_some,Option.some.injEq] at ht
    obtain ⟨_,rfl⟩ := ht
    exact ⟨hstart v settings io rfl,fun f hf => h.stored f (mem_of_start hf)⟩
  | drop c kept =>
    obtain rfl := Option.some.inj ht
    exact ⟨h.running,fun f hf => h.stored f (CacheDir.mem_keep.mp hf).1⟩
  | put | failed | answered | clear | stop | kill =>
    simp only [restarts] at ht
    split at ht
    · rename_i version b hprogram hrunning
      have hP : P b := h.running b hrunning
      exact h.serve hc hrunning (fun now he => hfailed now b he hP)
        (fun now he => hanswered now b he hP) ht
    · cases ht

end Carry

end Startup
end UnityThumbnailer
