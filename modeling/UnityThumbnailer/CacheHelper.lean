import UnityThumbnailer.EventSystem
import Mathlib.Data.Int.Notation

/-! The wrapper of a persistent cache: a call that finds the database corrupt deletes the
cache, re-creates it and is tried once more. -/
namespace UnityThumbnailer

open EventSystem

/-- The exceptions as the handlers tell them apart. -/
inductive Exn
  | systemError (code : ℤ) (what : String)
  | logicError (what : String)
  | other (what : String)
  deriving DecidableEq

/-- The code with which leveldb reports corruption. -/
def corruptCode : ℤ := 666

inductive CacheDiscardPolicy
  | lruOnly | lruTtl
  deriving DecidableEq

/-- The template parameter: a cache class over the world it lives in. Every call may
throw, and may leave any world behind; destruction does not throw. -/
structure CacheT (World Handle Stats : Type*) where
  openSized : String → ℤ → CacheDiscardPolicy → World → Except Exn Handle × World
  openExisting : String → World → Except Exn Handle × World
  destroy : Handle → World → World
  resize : ℤ → Handle → World → Except Exn Unit × World
  get : String → Handle → World → Except Exn (Option String) × World
  put : String → String → ℤ → Handle → World → Except Exn Bool × World
  containsKey : String → Handle → World → Except Exn Bool × World
  stats : Handle → World → Except Exn Stats × World
  clearStats : Handle → World → Except Exn Unit × World
  invalidate : Handle → World → Except Exn Unit × World
  compact : Handle → World → Except Exn Unit × World
  /-- `boost::filesystem::remove_all`. -/
  removeAll : String → World → Except Exn Unit × World

/-- How a call ends; following the empty pointer ends the process. -/
inductive Ending (α : Type*)
  | returned (value : α)
  | threw (e : Exn)
  | crashed

def Ending.ofExcept {α : Type*} : Except Exn α → Ending α
  | .ok value => .returned value
  | .error e => .threw e

/-- The members of the wrapper, and the world around it. -/
structure CacheHelper (World Handle : Type*) where
  path : String
  size : ℤ
  policy : CacheDiscardPolicy
  c : Option Handle
  world : World

namespace CacheHelper

variable {World Handle Stats : Type*}

section Members

variable {α : Type*} (b : CacheT World Handle Stats) (s : CacheHelper World Handle)

/-- `c_->method()`. -/
def deref (method : Handle → World → Except Exn α × World) : Ending α × CacheHelper World Handle :=
  match s.c with
  | none => (.crashed,s)
  | some h => (.ofExcept (method h s.world).1,{ s with world := (method h s.world).2 })

/-- `c_.reset()`. -/
def reset : CacheHelper World Handle :=
  match s.c with
  | none => s
  | some h => { s with c := none, world := b.destroy h s.world }

/-- The move assignment to `c_`, which destroys the cache held before. -/
def assign (h : Handle) : CacheHelper World Handle := { s.reset b with c := some h }

/-- Open the cache, or adjust the size of an existing one of another size. -/
def initCache : Ending Unit × CacheHelper World Handle :=
  match b.openSized s.path s.size s.policy s.world with
  | (.ok h,w) => (.returned (),{ s with world := w }.assign b h)
  | (.error (.logicError _),w) =>
    match b.openExisting s.path w with
    | (.ok h,w) => ({ s with world := w }.assign b h).deref (b.resize s.size)
    | (.error e,w) => (.threw e,{ s with world := w })
  | (.error e,w) => (.threw e,{ s with world := w })

/-- Called with the exception of a failed call: unless the database is corrupt, the
exception escapes. -/
def recover : Exn → Ending Unit × CacheHelper World Handle
  | .systemError code what =>
    if code ≠ corruptCode then (.threw (.systemError code what),s)
    else
      let s := s.reset b
      match b.removeAll s.path s.world with
      | (.error e,w) => (.threw e,{ s with world := w })
      | (.ok (),w) => { s with world := w }.initCache b
  | e => (.threw e,s)

/-- The call wrapper that implements the retry logic. -/
def call (func : CacheHelper World Handle → Ending α × CacheHelper World Handle) :
    Ending α × CacheHelper World Handle :=
  match func s with
  | (.threw e,s) =>
    match s.recover b e with
    | (.returned (),s) => func s
    | (.threw e,s) => (.threw e,s)
    | (.crashed,s) => (.crashed,s)
  | (.returned value,s) => (.returned value,s)
  | (.crashed,s) => (.crashed,s)

/-- The constructor with a size and a policy. -/
def construct (path : String) (size : ℤ) (policy : CacheDiscardPolicy) (w : World) :
    Ending Unit × CacheHelper World Handle :=
  call b ⟨path,size,policy,none,w⟩ (initCache b)

def get (key : String) : Ending (Option String) × CacheHelper World Handle :=
  s.call b (·.deref (b.get key))

def put (key value : String) (expiryTime : ℤ) : Ending Bool × CacheHelper World Handle :=
  s.call b (·.deref (b.put key value expiryTime))

def containsKey (key : String) : Ending Bool × CacheHelper World Handle :=
  s.deref (b.containsKey key)

def stats : Ending Stats × CacheHelper World Handle := s.deref b.stats

def clearStats : Ending Unit × CacheHelper World Handle := s.deref b.clearStats

def invalidate : Ending Unit × CacheHelper World Handle := s.call b (·.deref b.invalidate)

def compact : Ending Unit × CacheHelper World Handle := s.call b (·.deref b.compact)

end Members

/-- The methods of the wrapper. -/
inductive Call
  | get (key : String)
  | put (key value : String) (expiryTime : ℤ)
  | containsKey (key : String)
  | stats
  | clearStats
  | invalidate
  | compact

/-- The ending of a call without its value. -/
def forget {α : Type*} :
    Ending α × CacheHelper World Handle → Ending Unit × CacheHelper World Handle
  | (.returned _,s) => (.returned (),s)
  | (.threw e,s) => (.threw e,s)
  | (.crashed,s) => (.crashed,s)

section Runs

variable (b : CacheT World Handle Stats)

def exec (s : CacheHelper World Handle) : Call → Ending Unit × CacheHelper World Handle
  | .get key => forget (s.get b key)
  | .put key value expiryTime => forget (s.put b key value expiryTime)
  | .containsKey key => forget (s.containsKey b key)
  | .stats => forget (s.stats b)
  | .clearStats => forget (s.clearStats b)
  | .invalidate => forget (s.invalidate b)
  | .compact => forget (s.compact b)

/-- The calls on one wrapper, which go on after an exception but not after a crash. -/
def calls : Machine (CacheHelper World Handle) Call where
  step s c :=
    match s.exec b c with
    | (.crashed,_) => none
    | (_,t) => some t

/-- Whatever is called next, the empty pointer is not followed. -/
def Usable (s : CacheHelper World Handle) : Prop := ∀ c, (s.exec b c).1 ≠ .crashed

/-- `init_cache()` gets a cache to assign, if only one of another size. -/
def Opens (s : CacheHelper World Handle) (w : World) : Prop :=
  match b.openSized s.path s.size s.policy w with
  | (.ok _,_) => True
  | (.error (.logicError _),w) => ∃ h, (b.openExisting s.path w).1 = .ok h
  | (.error _,_) => False

/-- The two steps of a recovery that follow the destruction of the cache. -/
def Recreates (s : CacheHelper World Handle) (w : World) : Prop :=
  ∃ w', b.removeAll s.path w = (.ok (),w') ∧ Opens b s w'

/-- If the method finds the database corrupt, the cache is re-created. -/
def Recovers {α : Type*} (method : Handle → World → Except Exn α × World)
    (s : CacheHelper World Handle) : Prop :=
  ∀ h what w, s.c = some h → method h s.world = (.error (.systemError corruptCode what),w) →
    Recreates b s (b.destroy h w)

/-- No recovery fails during the call. -/
def RecoverySucceeds (s : CacheHelper World Handle) : Call → Prop
  | .get key => Recovers b (b.get key) s
  | .put key value expiryTime => Recovers b (b.put key value expiryTime) s
  | .invalidate => Recovers b b.invalidate s
  | .compact => Recovers b b.compact s
  | .containsKey _ | .stats | .clearStats => True

end Runs

/-! ### What each member leaves in `c_` -/

/-- `c_` holds a cache. -/
def Held (s : CacheHelper World Handle) : Prop := s.c.isSome = true

section Pointer

variable {α : Type*} {b : CacheT World Handle Stats} {s : CacheHelper World Handle} {w : World}
  {method : Handle → World → Except Exn α × World}

theorem ofExcept_ne_crashed (r : Except Exn α) : Ending.ofExcept r ≠ .crashed := by
  cases r <;> simp [Ending.ofExcept]

theorem deref_held (h : Held s) : (s.deref method).1 ≠ .crashed ∧ Held (s.deref method).2 := by
  obtain ⟨c,hc⟩ := Option.isSome_iff_exists.mp h
  simp only [deref,hc]
  exact ⟨ofExcept_ne_crashed _,by simp [Held]⟩

theorem assign_held (h : Handle) : Held (s.assign b h) := rfl

theorem reset_eq {h : Handle} (hc : s.c = some h) :
    s.reset b = { s with c := none, world := b.destroy h s.world } := by
  simp only [reset,hc]

/-- Initialization leaves a cache behind exactly when one of its two ways to open it
succeeds, and fails without a trace otherwise. -/
theorem initCache_opens (ho : Opens b s s.world) :
    (s.initCache b).1 ≠ .crashed ∧ Held (s.initCache b).2 := by
  unfold Opens at ho
  unfold initCache
  rcases hsized : b.openSized s.path s.size s.policy s.world with ⟨r,w⟩
  simp only [hsized] at ho
  cases r with
  | ok h => exact ⟨by simp,rfl⟩
  | error e =>
    cases e with
    | systemError code what | other what => exact False.elim ho
    | logicError what =>
      obtain ⟨h,hh⟩ := ho
      have hex : b.openExisting s.path w = (.ok h,(b.openExisting s.path w).2) := by rw [← hh]
      simp only
      rw [hex]
      exact deref_held (assign_held h)

theorem initCache_fails (ho : ¬ Opens b s s.world) :
    (∃ e, (s.initCache b).1 = .threw e) ∧ (s.initCache b).2.c = s.c := by
  unfold Opens at ho
  unfold initCache
  rcases hsized : b.openSized s.path s.size s.policy s.world with ⟨r,w⟩
  simp only [hsized] at ho
  cases r with
  | ok h => exact absurd trivial ho
  | error e =>
    cases e with
    | systemError code what | other what => exact ⟨⟨_,rfl⟩,rfl⟩
    | logicError what =>
      simp only
      rcases hex : b.openExisting s.path w with ⟨q,w'⟩
      cases q with
      | ok h => exact absurd ⟨h,congrArg Prod.fst hex⟩ ho
      | error e => exact ⟨⟨e,rfl⟩,rfl⟩

theorem initCache_returned (h : (s.initCache b).1 = .returned ()) : Held (s.initCache b).2 := by
  by_cases ho : Opens b s s.world
  · exact (initCache_opens ho).2
  · obtain ⟨⟨e,he⟩,_⟩ := initCache_fails ho
    rw [he] at h
    cases h

/-- After corruption, `recover()` leaves a cache behind exactly when it is re-created. -/
theorem recover_recreates {h : Handle} (what : String) (hc : s.c = some h)
    (hr : Recreates b s (b.destroy h s.world)) :
    (s.recover b (.systemError corruptCode what)).1 ≠ .crashed ∧
      Held (s.recover b (.systemError corruptCode what)).2 := by
  obtain ⟨w',hremove,hopens⟩ := hr
  simp only [recover,ne_eq,not_true_eq_false,if_false,reset_eq hc,hremove]
  exact initCache_opens (s:={ s with c := none, world := w' }) hopens

theorem recover_fails {h : Handle} (what : String) (hc : s.c = some h)
    (hr : ¬ Recreates b s (b.destroy h s.world)) :
    (∃ e, (s.recover b (.systemError corruptCode what)).1 = .threw e) ∧
      (s.recover b (.systemError corruptCode what)).2.c = none := by
  simp only [recover,ne_eq,not_true_eq_false,if_false,reset_eq hc]
  rcases hremove : b.removeAll s.path (b.destroy h s.world) with ⟨r,w'⟩
  cases r with
  | error e => exact ⟨⟨e,rfl⟩,rfl⟩
  | ok u =>
    exact initCache_fails (s:={ s with c := none, world := w' })
      fun hopens => hr ⟨w',hremove,hopens⟩

/-- Any other exception escapes from `recover()`. -/
theorem recover_other {e : Exn} (he : ∀ what, e ≠ .systemError corruptCode what) :
    s.recover b e = (.threw e,s) := by
  cases e with
  | systemError code what =>
    have hcode : code ≠ corruptCode := fun hcode => he what (by rw [hcode])
    simp only [recover,hcode,ne_eq,not_false_eq_true,if_true]
  | logicError what | other what => rfl

/-- A call that recovers where it has to is retried on a cache. -/
theorem call_recovers (hs : Held s) (hr : Recovers b method s) :
    (s.call b (·.deref method)).1 ≠ .crashed ∧ Held (s.call b (·.deref method)).2 := by
  obtain ⟨h,hc⟩ := Option.isSome_iff_exists.mp hs
  have hderef : s.deref method =
      (.ofExcept (method h s.world).1,{ s with world := (method h s.world).2 }) := by
    simp only [deref,hc]
  unfold call
  simp only [hderef]
  rcases hm : method h s.world with ⟨r,w⟩
  cases r with
  | ok value => exact ⟨by simp [Ending.ofExcept],hs⟩
  | error e =>
    simp only [Ending.ofExcept]
    by_cases he : ∃ what, e = .systemError corruptCode what
    · obtain ⟨what,rfl⟩ := he
      have hkept := recover_recreates (s:={ s with world := w }) what hc (hr h what w hc hm)
      rcases hrec : recover b { s with world := w } (.systemError corruptCode what) with ⟨q,t⟩
      rw [hrec] at hkept
      cases q with
      | returned u => exact deref_held hkept.2
      | threw e => exact ⟨by simp,hkept.2⟩
      | crashed => exact absurd rfl hkept.1
    · rw [recover_other (not_exists.mp he)]
      exact ⟨by simp,hs⟩

/-- A call whose recovery fails throws, and leaves `c_` empty. -/
theorem call_fails (hr : ¬ Recovers b method s) :
    (∃ e, (s.call b (·.deref method)).1 = .threw e) ∧ (s.call b (·.deref method)).2.c = none := by
  simp only [Recovers,not_forall] at hr
  obtain ⟨h,what,w,hc,hm,hfail⟩ := hr
  have hderef : s.deref method = (.threw (.systemError corruptCode what),{ s with world := w }) := by
    simp only [deref,hc,hm,Ending.ofExcept]
  obtain ⟨⟨e,he⟩,hnone⟩ := recover_fails (s:={ s with world := w }) what hc hfail
  unfold call
  simp only [hderef]
  rcases hrec : recover b { s with world := w } (.systemError corruptCode what) with ⟨q,t⟩
  rw [hrec] at he hnone
  obtain rfl : q = .threw e := he
  exact ⟨⟨e,rfl⟩,hnone⟩

end Pointer

theorem forget_crashed {α : Type*} {r : Ending α × CacheHelper World Handle} :
    (forget r).1 = .crashed ↔ r.1 = .crashed := by
  rcases r with ⟨_ | _ | _,s⟩ <;> simp [forget]

theorem forget_snd {α : Type*} (r : Ending α × CacheHelper World Handle) :
    (forget r).2 = r.2 := by
  rcases r with ⟨_ | _ | _,s⟩ <;> rfl

section Step

variable {b : CacheT World Handle Stats} {s t : CacheHelper World Handle} {c : Call}

theorem exec_recovers (hs : Held s) (hr : RecoverySucceeds b s c) :
    (s.exec b c).1 ≠ .crashed ∧ Held (s.exec b c).2 := by
  cases c with
  | get key | put key value expiryTime | invalidate | compact =>
    simp only [exec,ne_eq,forget_crashed,forget_snd]
    exact call_recovers hs hr
  | containsKey key | stats | clearStats =>
    simp only [exec,ne_eq,forget_crashed,forget_snd]
    exact deref_held hs

theorem exec_fails (hr : ¬ RecoverySucceeds b s c) :
    (s.exec b c).1 ≠ .crashed ∧ (s.exec b c).2.c = none := by
  cases c with
  | get key | put key value expiryTime | invalidate | compact =>
    simp only [exec,ne_eq,forget_crashed,forget_snd]
    obtain ⟨⟨e,he⟩,hnone⟩ := call_fails hr
    refine ⟨fun hcrash => ?_,hnone⟩
    have hthrew : Ending.threw e = .crashed := he.symm.trans hcrash
    cases hthrew
  | containsKey key | stats | clearStats => exact absurd trivial hr

/-- The wrapper is usable exactly while `c_` holds a cache. -/
theorem usable_iff_held : Usable b s ↔ Held s := by
  constructor
  · intro h
    by_contra hempty
    have hc : s.c = none := Option.not_isSome_iff_eq_none.mp hempty
    refine h .stats ?_
    simp [exec,stats,deref,hc,forget]
  · intro hs c
    by_cases hr : RecoverySucceeds b s c
    · exact (exec_recovers hs hr).1
    · exact (exec_fails hr).1

theorem step_eq (h : (calls b).step s c = some t) : t = (s.exec b c).2 := by
  simp only [calls] at h
  rcases hexec : s.exec b c with ⟨r,u⟩
  rw [hexec] at h
  cases r with
  | returned u | threw e => exact (Option.some.inj h).symm
  | crashed => cases h

end Step

/-- A wrapper that has been constructed holds a cache. -/
theorem construct_held {b : CacheT World Handle Stats} {path : String} {size : ℤ}
    {policy : CacheDiscardPolicy} {w : World} {s : CacheHelper World Handle}
    (h : construct b path size policy w = (.returned (),s)) : Held s := by
  unfold construct call at h
  rcases hinit : initCache b ⟨path,size,policy,none,w⟩ with ⟨r,t⟩
  rw [hinit] at h
  have hreturned : ∀ v u : CacheHelper World Handle, v.initCache b = (.returned (),u) → Held u := by
    intro v u hv
    have hheld := initCache_returned (b:=b) (s:=v) (congrArg Prod.fst hv)
    rwa [hv] at hheld
  cases r with
  | returned u =>
    obtain rfl : t = s := congrArg Prod.snd h
    exact hreturned _ _ hinit
  | crashed => cases h
  | threw e =>
    simp only at h
    rcases hrec : recover b t e with ⟨q,v⟩
    rw [hrec] at h
    cases q with
    | returned u => exact hreturned _ _ h
    | threw e | crashed => cases h

theorem step_kept {b : CacheT World Handle Stats} (s : CacheHelper World Handle) (c : Call)
    (t : CacheHelper World Handle) (hs : Held s) (hr : RecoverySucceeds b s c)
    (hstep : (calls b).step s c = some t) : Held t := by
  rw [step_eq hstep]
  exact (exec_recovers hs hr).2

theorem step_lost {b : CacheT World Handle Stats} (s : CacheHelper World Handle) (c : Call)
    (t : CacheHelper World Handle) (_ : Held s) (hr : ¬ RecoverySucceeds b s c)
    (hstep : (calls b).step s c = some t) : ¬ Usable b t := by
  have hnone := (exec_fails hr).2
  rw [← step_eq hstep] at hnone
  rw [usable_iff_held]
  simp [Held,hnone]

/-- Calls on a wrapper that stays usable all take place. -/
theorem run_of_usable {b : CacheT World Handle Stats} {s : CacheHelper World Handle}
    {cs : List Call} (h : (calls b).Always (Usable b) s cs) : ∃ t, (calls b).run s cs = some t := by
  induction cs generalizing s with
  | nil => exact ⟨s,rfl⟩
  | cons c cs ih =>
    have hsafe := h.1 c
    have hstep : (calls b).step s c = some (s.exec b c).2 := by
      rcases hexec : s.exec b c with ⟨r,t⟩
      rw [hexec] at hsafe
      cases r with
      | returned u | threw e => simp [calls,hexec]
      | crashed => exact absurd rfl hsafe
    obtain ⟨t,ht⟩ := ih (h.2 _ hstep)
    refine ⟨t,?_⟩
    rw [Machine.run_cons,hstep]
    exact ht

/-- A constructed wrapper stays usable along all calls exactly when no recovery in them
fails. -/
theorem usable_iff (b : CacheT World Handle Stats) (path : String) (size : ℤ)
    (policy : CacheDiscardPolicy) (w : World) (s : CacheHelper World Handle) (cs : List Call)
    (hs : construct b path size policy w = (.returned (),s)) :
    (calls b).Always (Usable b) s cs ↔ (calls b).AllSteps (RecoverySucceeds b) s cs := by
  have husable : ∀ u : CacheHelper World Handle, Held u → Usable b u :=
    fun _ h => usable_iff_held.mpr h
  refine ⟨fun h => ?_,Machine.always_of_guarded step_kept husable (construct_held hs)⟩
  obtain ⟨t,hrun⟩ := run_of_usable h
  exact (Machine.always_iff_allSteps step_kept husable step_lost (construct_held hs) hrun).mp h

/-- A cache whose world is its entries, or nothing that can be read once the database is
corrupt. -/
def entriesCache : CacheT (Option (List (String × String))) Unit Unit where
  openSized := fun _ _ _ w => (.ok (),w)
  openExisting := fun _ w => (.ok (),w)
  destroy := fun _ w => w
  resize := fun _ _ w => (.ok (),w)
  get := fun key _ w => match w with
    | none => (.error (.systemError 666 "Corruption"),w)
    | some es => (.ok (es.lookup key),w)
  put := fun key value _ _ w => match w with
    | none => (.error (.systemError 666 "Corruption"),w)
    | some es => (.ok true,some ((key,value) :: es))
  containsKey := fun key _ w => (.ok ((w.getD []).lookup key).isSome,w)
  stats := fun _ w => (.ok (),w)
  clearStats := fun _ w => (.ok (),w)
  invalidate := fun _ w => match w with
    | none => (.error (.systemError 666 "Corruption"),w)
    | some _ => (.ok (),some [])
  compact := fun _ w => match w with
    | none => (.error (.systemError 666 "Corruption"),w)
    | some es => (.ok (),some es)
  removeAll := fun _ _ => (.ok (),some [])

theorem entriesCache_recovers (s : CacheHelper (Option (List (String × String))) Unit) (c : Call) :
    RecoverySucceeds entriesCache s c := by
  cases c with
  | get | put | invalidate | compact => exact fun _ _ _ _ _ => ⟨some [],rfl,trivial⟩
  | containsKey | stats | clearStats => trivial

def corruptOnce : CacheHelper (Option (List (String × String))) Unit :=
  ⟨"images",1024,.lruOnly,some (),none⟩

/-- The first look-up finds the database corrupt; what is stored then stays. -/
def refill : List Call := [.get "foo",.put "foo" "bar" 0,.get "foo",.stats]

theorem usable_corruptOnce :
    construct entriesCache "images" 1024 .lruOnly none = (.returned (),corruptOnce) ∧
      (∃ t, (calls entriesCache).run corruptOnce refill = some t ∧ t.world = some [("foo","bar")]) ∧
      (calls entriesCache).Always (Usable entriesCache) corruptOnce refill :=
  ⟨rfl,⟨_,rfl,rfl⟩,(usable_iff entriesCache "images" 1024 .lruOnly none corruptOnce refill rfl).mpr
    (Machine.allSteps_of_forall entriesCache_recovers corruptOnce refill)⟩

/-- A cache on a disk that has gone bad: the database is corrupt, and the directory cannot
be deleted. -/
def badDisk : CacheT Unit Unit Unit where
  openSized := fun _ _ _ w => (.ok (),w)
  openExisting := fun _ w => (.ok (),w)
  destroy := fun _ w => w
  resize := fun _ _ w => (.ok (),w)
  get := fun _ _ w => (.error (.systemError 666 "Corruption"),w)
  put := fun _ _ _ _ w => (.error (.systemError 666 "Corruption"),w)
  containsKey := fun _ _ w => (.ok false,w)
  stats := fun _ w => (.ok (),w)
  clearStats := fun _ w => (.ok (),w)
  invalidate := fun _ w => (.error (.systemError 666 "Corruption"),w)
  compact := fun _ w => (.error (.systemError 666 "Corruption"),w)
  removeAll := fun _ w => (.error (.other "Input/output error"),w)

/-- The wrapper as its constructor leaves it on that disk. -/
def onBadDisk : CacheHelper Unit Unit := ⟨"images",1024,.lruOnly,some (),()⟩

/-- The failed recovery of `get()` leaves nothing for the next call, which crashes. -/
theorem badDisk_crashes :
    construct badDisk "images" 1024 .lruOnly () = (.returned (),onBadDisk) ∧
      ∃ t, (calls badDisk).run onBadDisk [.get "foo"] = some t ∧
        (t.exec badDisk (.get "foo")).1 = .crashed ∧ ¬ Usable badDisk t :=
  ⟨rfl,_,rfl,rfl,fun h => h (.get "foo") rfl⟩

end CacheHelper
end UnityThumbnailer
