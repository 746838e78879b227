import UnityThumbnailer.CacheRetry
import UnityThumbnailer.Startup

/-! Methods that find the database corrupt. Not all of them go through `call()`, and the
constructor of `Thumbnailer` reads the failure cache between its calls. -/
namespace UnityThumbnailer

/-- A failure of the constructor as the end of a call: what `stoll()` throws is a logic
error, and a failed assertion ends the process. -/
def Ending.ofFailure {α : Type*} : Except Failure α → Ending α
  | .ok value => .returned value
  | .error (.exception what) => .threw (.logicError what)
  | .error (.assertion _) => .crashed

namespace CacheHelper

variable {World Handle Stats α β : Type*}

/-- The method finds the database corrupt, the cache is re-created, and on the new one the
method returns the value and leaves `t`. -/
def CorruptOnce (b : CacheT World Handle Stats) (s : CacheHelper World Handle)
    (method : Handle → World → Except Exn α × World) (value : α)
    (t : CacheHelper World Handle) : Prop :=
  ∃ h what w h' w' as w'', s.c = some h ∧
    method h s.world = (.error (.systemError corruptCode what),w) ∧
    Recreation b s.path s.size s.policy (b.destroy h w) (.ok ()) (some h') w' as ∧
    method h' w' = (.ok value,w'') ∧ t = { s with c := some h', world := w'' }

/-- The call returns the result of the retried method. -/
def ReturnsRetried (b : CacheT World Handle Stats) (s : CacheHelper World Handle)
    (method : Handle → World → Except Exn α × World)
    (r : Ending α × CacheHelper World Handle) : Prop :=
  ∀ value t, CorruptOnce b s method value t → r = (.returned value,t)

section Calls

variable (b : CacheT World Handle Stats) (s : CacheHelper World Handle)

/-- The recovery that is promised for all methods. -/
def PassesThrough : Call → Prop
  | .get key => ReturnsRetried b s (b.get key) (s.get b key)
  | .put key value expiryTime =>
    ReturnsRetried b s (b.put key value expiryTime) (s.put b key value expiryTime)
  | .containsKey key => ReturnsRetried b s (b.containsKey key) (s.containsKey b key)
  | .stats => ReturnsRetried b s b.stats (s.stats b)
  | .clearStats => ReturnsRetried b s b.clearStats (s.clearStats b)
  | .invalidate => ReturnsRetried b s b.invalidate (s.invalidate b)
  | .compact => ReturnsRetried b s b.compact (s.compact b)

/-- The method finds the database corrupt, and would succeed on a new one. -/
def FindsCorrupt : Call → Prop
  | .get key => ∃ value t, CorruptOnce b s (b.get key) value t
  | .put key value expiryTime => ∃ stored t, CorruptOnce b s (b.put key value expiryTime) stored t
  | .containsKey key => ∃ found t, CorruptOnce b s (b.containsKey key) found t
  | .stats => ∃ stats t, CorruptOnce b s b.stats stats t
  | .clearStats => ∃ u t, CorruptOnce b s b.clearStats u t
  | .invalidate => ∃ u t, CorruptOnce b s b.invalidate u t
  | .compact => ∃ u t, CorruptOnce b s b.compact u t

end Calls

/-- The methods that are wrapped in `call()`. -/
def Wrapped : Call → Prop
  | .get _ | .put .. | .invalidate | .compact => True
  | .containsKey _ | .stats | .clearStats => False

section

variable {b : CacheT World Handle Stats} {s t : CacheHelper World Handle} {value : α}
  {method : Handle → World → Except Exn α × World}

theorem CorruptOnce.call (h : CorruptOnce b s method value t) :
    s.call b (·.deref method) = (.returned value,t) := by
  obtain ⟨h,what,w,h',w',as,w'',hc,hm,hr,hagain,rfl⟩ := h
  exact (Retried.retried (c := .stats) hc hm hr hagain).call_eq

theorem CorruptOnce.deref (h : CorruptOnce b s method value t) :
    ∃ what u, s.deref method = (.threw (.systemError corruptCode what),u) := by
  obtain ⟨h,what,w,h',w',as,w'',hc,hm,-⟩ := h
  exact ⟨what,{ s with world := w },by simp only [CacheHelper.deref,hc,hm,Ending.ofExcept]⟩

theorem returnsRetried_call : ReturnsRetried b s method (s.call b (·.deref method)) :=
  fun _ _ h => h.call

/-- Without `call()` the exception escapes. -/
theorem returnsRetried_deref : ReturnsRetried b s method (s.deref method) ↔
    ¬ ∃ value t, CorruptOnce b s method value t := by
  constructor
  · rintro h ⟨value,t,hcorrupt⟩
    obtain ⟨what,u,hthrew⟩ := hcorrupt.deref
    cases (h value t hcorrupt).symm.trans hthrew
  · exact fun h value t hcorrupt => absurd ⟨value,t,hcorrupt⟩ h

/-- A method recovers exactly when it is wrapped in `call()`, or has nothing to recover
from. -/
theorem passesThrough_iff (c : Call) :
    PassesThrough b s c ↔ Wrapped c ∨ ¬ FindsCorrupt b s c := by
  cases c with
  | get | put | invalidate | compact => exact iff_of_true returnsRetried_call (Or.inl trivial)
  | containsKey | stats | clearStats => exact returnsRetried_deref.trans (or_iff_right id).symm

end

/-! ### The constructor -/

/-- Go on after a call that has returned. -/
def andThen (r : Ending α × CacheHelper World Handle)
    (next : α → CacheHelper World Handle → Ending β × CacheHelper World Handle) :
    Ending β × CacheHelper World Handle :=
  match r with
  | (.returned value,s) => next value s
  | (.threw e,s) => (.threw e,s)
  | (.crashed,s) => (.crashed,s)

section Constructor

variable (b : CacheT World Handle Stats)

/-- Read a number from the failure cache, if it has the key. -/
def readNumber (key : String) (s : CacheHelper World Handle) :
    Ending (Option ℤ) × CacheHelper World Handle :=
  andThen (s.containsKey b key) fun found s =>
    if found then
      andThen (s.get b key) fun value s =>
        match value with
        -- the empty `Optional` is dereferenced
        | none => (.crashed,s)
        | some text => (.ofFailure (((Startup.stoll text).mapError .exception).map some),s)
    else (.returned none,s)

def restoreFailTime (backoff : BackoffAdjuster) (s : CacheHelper World Handle) :
    Ending BackoffAdjuster × CacheHelper World Handle :=
  andThen (readNumber b CacheKeys.lastNetworkFailTimeKey s) fun failTime s =>
    match failTime with
    | none => (.returned backoff,s)
    | some seconds => (.returned (backoff.setLastFailTime (seconds*nanosPerSecond)),s)

def restorePeriod (backoff : BackoffAdjuster) (s : CacheHelper World Handle) :
    Ending BackoffAdjuster × CacheHelper World Handle :=
  andThen (readNumber b CacheKeys.backoffPeriodKey s) fun period s =>
    match period with
    | none => (.returned backoff,s)
    | some seconds => (.ofFailure ((backoff.setBackoffPeriod seconds).mapError .assertion),s)

/-- The part of the constructor that reads the backoff state. -/
def restoreBackoff (backoff : BackoffAdjuster) (s : CacheHelper World Handle) :
    Ending BackoffAdjuster × CacheHelper World Handle :=
  andThen (restoreFailTime b backoff s) (restorePeriod b)

/-- One of the two calls for a key finds the failure cache corrupt. -/
def ReadFindsCorrupt (key : String) (s : CacheHelper World Handle) : Prop :=
  FindsCorrupt b s (.containsKey key) ∨
    ∃ t, s.containsKey b key = (.returned true,t) ∧ FindsCorrupt b t (.get key)

/-- One of the calls of the constructor does. -/
def StartFindsCorrupt (s : CacheHelper World Handle) : Prop :=
  ReadFindsCorrupt b CacheKeys.lastNetworkFailTimeKey s ∨
    ∃ failTime t, readNumber b CacheKeys.lastNetworkFailTimeKey s = (.returned failTime,t) ∧
      ReadFindsCorrupt b CacheKeys.backoffPeriodKey t

/-- The constructor gets over a failure cache that turns out to be corrupt. -/
def StartSurvives (backoff : BackoffAdjuster) (s : CacheHelper World Handle) : Prop :=
  StartFindsCorrupt b s → ∃ backoff' t, restoreBackoff b backoff s = (.returned backoff',t)

/-- A cache that has just been re-created has no entries. -/
def NewIsEmpty : Prop :=
  ∀ path size policy w h w' as, Recreation b path size policy w (.ok ()) (some h) w' as →
    ∀ key text, (b.get key h w').1 ≠ .ok (some text)

end Constructor

section

variable {b : CacheT World Handle Stats} {s t : CacheHelper World Handle} {key : String}

/-- Neither of the two calls survives corruption: the first throws, and the second returns
an empty `Optional`. -/
theorem readNumber_corrupt (hb : NewIsEmpty b) (h : ReadFindsCorrupt b key s) (n : Option ℤ)
    (t : CacheHelper World Handle) : readNumber b key s ≠ (.returned n,t) := by
  rcases h with ⟨found,u,hcorrupt⟩ | ⟨u,hfound,value,v,hcorrupt⟩
  · obtain ⟨what,v,hthrew⟩ := hcorrupt.deref
    have hcontains : s.containsKey b key = (.threw (.systemError corruptCode what),v) := hthrew
    rw [readNumber,hcontains,andThen]
    simp
  · have hget : u.get b key = (.returned value,v) := hcorrupt.call
    obtain ⟨h,what,w,h',w',as,w'',-,-,hr,hagain,-⟩ := hcorrupt
    rw [readNumber,hfound,andThen,if_pos rfl,hget,andThen]
    cases value with
    | none => simp
    | some text => exact absurd (congrArg Prod.fst hagain) (hb _ _ _ _ _ _ _ hr key text)

theorem andThen_returned {r : Ending α × CacheHelper World Handle} {value : β}
    {next : α → CacheHelper World Handle → Ending β × CacheHelper World Handle}
    (h : andThen r next = (.returned value,t)) :
    ∃ a u, r = (.returned a,u) ∧ next a u = (.returned value,t) := by
  rcases r with ⟨_ | _ | _,u⟩
  · exact ⟨_,u,rfl,h⟩
  · cases h
  · cases h

theorem restoreBackoff_returned {backoff c : BackoffAdjuster}
    (h : restoreBackoff b backoff s = (.returned c,t)) : ∃ failTime u period v,
      readNumber b CacheKeys.lastNetworkFailTimeKey s = (.returned failTime,u) ∧
        readNumber b CacheKeys.backoffPeriodKey u = (.returned period,v) := by
  obtain ⟨d,u,hfirst,hsecond⟩ := andThen_returned h
  obtain ⟨failTime,u',hread,hset⟩ := andThen_returned hfirst
  obtain ⟨period,v,hread',-⟩ := andThen_returned hsecond
  obtain rfl : u' = u := by
    cases failTime <;> exact congrArg Prod.snd hset
  exact ⟨failTime,u',period,v,hread,hread'⟩

/-- The constructor never survives. -/
theorem startSurvives_iff (hb : NewIsEmpty b) (backoff : BackoffAdjuster) :
    StartSurvives b backoff s ↔ ¬ StartFindsCorrupt b s := by
  refine ⟨fun h hcorrupt => ?_,fun h hcorrupt => absurd hcorrupt h⟩
  obtain ⟨c,t,hreturned⟩ := h hcorrupt
  obtain ⟨failTime,u,period,v,hfirst,hsecond⟩ := restoreBackoff_returned hreturned
  rcases hcorrupt with hcorrupt | ⟨failTime',u',hfirst',hcorrupt⟩
  · exact readNumber_corrupt hb hcorrupt _ _ hfirst
  · obtain ⟨-,rfl⟩ := Prod.mk.inj (hfirst.symm.trans hfirst')
    exact readNumber_corrupt hb hcorrupt _ _ hsecond

end

/-- The cache holds the entries of the failure cache in the directory, and reads them. -/
def HoldsEntries (b : CacheT World Handle Stats) (d : CacheDir) (s : CacheHelper World Handle) :
    Prop :=
  ∀ key, s.containsKey b key = (.returned (d.find .failure key).isSome,s) ∧
    s.get b key = (.returned (d.find .failure key),s)

section Sound

variable {b : CacheT World Handle Stats} {d : CacheDir} {s : CacheHelper World Handle}

theorem readNumber_sound (h : HoldsEntries b d s) (key : String) :
    readNumber b key s = (match d.find .failure key with
      | none => .returned none
      | some text => .ofFailure (((Startup.stoll text).mapError .exception).map some),s) := by
  obtain ⟨hcontains,hget⟩ := h key
  rw [readNumber,hcontains,andThen]
  cases hfind : d.find .failure key with
  | none => rfl
  | some text =>
    rw [hfind] at hget
    simp only [Option.isSome_some,if_true,hget,andThen]

theorem restoreFailTime_sound (h : HoldsEntries b d s) (backoff : BackoffAdjuster) :
    restoreFailTime b backoff s = (.ofFailure (Startup.restoreFailTime d backoff),s) := by
  rw [restoreFailTime,readNumber_sound h,Startup.restoreFailTime]
  cases d.find .failure CacheKeys.lastNetworkFailTimeKey with
  | none => rfl
  | some text =>
    dsimp only
    cases Startup.stoll text <;> rfl

theorem restorePeriod_sound (h : HoldsEntries b d s) (backoff : BackoffAdjuster) :
    restorePeriod b backoff s = (.ofFailure (Startup.restorePeriod d backoff),s) := by
  rw [restorePeriod,readNumber_sound h,Startup.restorePeriod]
  cases d.find .failure CacheKeys.backoffPeriodKey with
  | none => rfl
  | some text =>
    dsimp only
    cases Startup.stoll text <;> rfl

/-- On a cache that is sound, the constructor restores what the directory holds. -/
theorem restoreBackoff_sound (h : HoldsEntries b d s) (backoff : BackoffAdjuster) :
    restoreBackoff b backoff s =
      (.ofFailure ((Startup.restoreFailTime d backoff).bind (Startup.restorePeriod d)),s) := by
  rw [restoreBackoff,restoreFailTime_sound h]
  cases Startup.restoreFailTime d backoff with
  | ok c => exact restorePeriod_sound h c
  | error e => cases e <;> rfl

end Sound

/-- Of the methods that are meant to recover from a corrupt database, exactly the wrapped
ones do; and the constructor never gets over a corrupt failure cache. -/
theorem recovery_iff (b : CacheT World Handle Stats) (hb : NewIsEmpty b)
    (s : CacheHelper World Handle) (backoff : BackoffAdjuster) :
    (∀ c, PassesThrough b s c ↔ Wrapped c ∨ ¬ FindsCorrupt b s c) ∧
      (StartSurvives b backoff s ↔ ¬ StartFindsCorrupt b s) :=
  ⟨passesThrough_iff,startSurvives_iff hb backoff⟩

/-! ### A damaged failure cache -/

/-- A disk on which the database is new, corrupt everywhere, or only where its values are. -/
inductive Disk
  | new | corrupt | lostValues
  deriving DecidableEq

def corruption (α : Type*) : Except Exn α := .error (.systemError 666 "Corruption")

/-- The failure cache on such a disk: keys are still found without their values. -/
def damaged : CacheT Disk Unit Unit where
  openSized _ _ _ w := (.ok (),w)
  openExisting _ w := (.ok (),w)
  destroy _ w := w
  resize _ _ w := (.ok (),w)
  get _ _ w := (if w = .new then .ok none else corruption _,w)
  put _ _ _ _ w := (if w = .new then .ok true else corruption _,w)
  containsKey _ _ w :=
    (match w with | .new => .ok false | .corrupt => corruption _ | .lostValues => .ok true,w)
  stats _ w := (if w = .new then .ok () else corruption _,w)
  clearStats _ w := (if w = .new then .ok () else corruption _,w)
  invalidate _ w := (if w = .new then .ok () else corruption _,w)
  compact _ w := (if w = .new then .ok () else corruption _,w)
  removeAll _ _ := (.ok (),.new)

def onDisk (w : Disk) : CacheHelper Disk Unit := ⟨"failures",2097152,.lruTtl,some (),w⟩

theorem damaged_newIsEmpty : NewIsEmpty damaged := by
  intro path size policy w h w' as hr key text
  have hnew : w' = .new := by
    cases hr with
    | opened hremove hopen =>
      obtain ⟨-,rfl⟩ := Prod.mk.inj hremove
      exact (congrArg Prod.snd hopen).symm
    | resized hremove hopen hexisting hresize => cases hopen
  simp [damaged,hnew]

/-- Reading and writing recover here, and there is nothing to be said of the keys. -/
theorem recovery_damaged : NewIsEmpty damaged ∧
    ((∀ c, PassesThrough damaged (onDisk .corrupt) c ↔
      Wrapped c ∨ ¬ FindsCorrupt damaged (onDisk .corrupt) c) ∧
    (StartSurvives damaged .new (onDisk .corrupt) ↔
      ¬ StartFindsCorrupt damaged (onDisk .corrupt))) :=
  ⟨damaged_newIsEmpty,recovery_iff damaged damaged_newIsEmpty (onDisk .corrupt) .new⟩

theorem recreated (w : Disk) : Recreation damaged "failures" 2097152 .lruTtl w (.ok ()) (some ())
    .new [.removeAll "failures",.openSized "failures" 2097152 .lruTtl] := .opened rfl rfl

/-- `contains_key()`, `stats()` and `clear_stats()` throw; the constructor throws with them,
or follows the empty result of the `get()` that has recovered. -/
theorem damaged_escapes :
    ¬ PassesThrough damaged (onDisk .corrupt) (.containsKey "foo") ∧
    ¬ PassesThrough damaged (onDisk .corrupt) .stats ∧
    ¬ PassesThrough damaged (onDisk .corrupt) .clearStats ∧
    (StartFindsCorrupt damaged (onDisk .corrupt) ∧
      (restoreBackoff damaged .new (onDisk .corrupt)).1 =
        .threw (.systemError 666 "Corruption")) ∧
    StartFindsCorrupt damaged (onDisk .lostValues) ∧
      (restoreBackoff damaged .new (onDisk .lostValues)).1 = .crashed := by
  have hcorrupt : ∀ key, CorruptOnce damaged (onDisk .corrupt) (damaged.containsKey key) false
      (onDisk .new) :=
    fun key => ⟨(),_,_,(),_,_,_,rfl,rfl,recreated _,rfl,rfl⟩
  have hstats : CorruptOnce damaged (onDisk .corrupt) damaged.stats () (onDisk .new) :=
    ⟨(),_,_,(),_,_,_,rfl,rfl,recreated _,rfl,rfl⟩
  have hclear : CorruptOnce damaged (onDisk .corrupt) damaged.clearStats () (onDisk .new) :=
    ⟨(),_,_,(),_,_,_,rfl,rfl,recreated _,rfl,rfl⟩
  have hlost : ∀ key, CorruptOnce damaged (onDisk .lostValues) (damaged.get key) none
      (onDisk .new) :=
    fun key => ⟨(),_,_,(),_,_,_,rfl,rfl,recreated _,rfl,rfl⟩
  refine ⟨fun h => ?_,fun h => ?_,fun h => ?_,⟨Or.inl (Or.inl ⟨_,_,hcorrupt _⟩),rfl⟩,
    Or.inl (Or.inr ⟨_,rfl,_,_,hlost _⟩),rfl⟩
  · cases h _ _ (hcorrupt "foo")
  · cases h _ _ hstats
  · cases h _ _ hclear

end CacheHelper
end UnityThumbnailer
