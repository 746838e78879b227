import Mathlib.Data.Int.Order.Basic
import Mathlib.Logic.Function.Basic
import UnityThumbnailer.EventSystem

/-! Service processes of one session, from their start to their end. A lock file keeps a new
process away from the caches until the previous one has closed them. Its descriptor is inherited
by the children that extract images, so the lock can outlive the process that took it. -/
namespace UnityThumbnailer

namespace AdvisoryFileLock

/-- Milliseconds between two attempts. -/
def sleepInterval : ℤ := 100

inductive FlockResult
  | acquired | wouldBlock | failed
  deriving DecidableEq

/-- How one pass through the loop of `lock()` ends. -/
inductive Pass
  | returned (locked : Bool)
  | again (remainingTime : ℤ)
  | threw
  deriving DecidableEq

/-- One pass through the loop of `lock()`, with a time limit. -/
def pass (remainingTime : ℤ) : FlockResult → Pass
  | .acquired => .returned true
  | .wouldBlock =>
    let remainingTime := remainingTime-sleepInterval
    if 0 < remainingTime then .again remainingTime else .returned false
  | .failed => .threw

end AdvisoryFileLock

namespace ServiceInstances

open EventSystem AdvisoryFileLock

/-- How long `main()` waits for the lock, in milliseconds. -/
def lockTimeout : ℤ := 10000

/-- Where a process is in `main()`; the return code is known before the locals are destroyed. -/
inductive Phase
  | notStarted
  | locking (remainingTime : ℤ)
  | locked
  | opened
  | serving
  | quitting
  | closing (rc : ℤ)
  | unlocking (rc : ℤ)
  | exited (rc : ℤ)
  | crashed
  deriving DecidableEq

namespace Phase

/-- The process holds the lock. -/
def holds : Phase → Bool
  | .locked | .opened | .serving | .quitting | .closing _ | .unlocking _ => true
  | _ => false

/-- The `Thumbnailer` exists, and with it the caches are open. -/
def hasCaches : Phase → Bool
  | .opened | .serving | .quitting | .closing _ => true
  | _ => false

/-- The process has registered the name on the bus. -/
def hasName : Phase → Bool
  | .serving | .quitting => true
  | _ => false

/-- The process is no more. -/
def gone : Phase → Bool
  | .exited _ | .crashed => true
  | _ => false

def running : Phase → Bool
  | .notStarted | .exited _ | .crashed => false
  | _ => true

end Phase

structure Process where
  phase : Phase
  /-- Calls of `flock()` that would have blocked. -/
  refusals : ℕ
  /-- Running children; they have the descriptor of the lock file. -/
  children : ℕ
  deriving DecidableEq

/-- What is worth remembering. -/
inductive Entry
  | gaveUp (p : ℕ)
  | cachesBusy (p owner : ℕ)
  | nameTaken (p owner : ℕ)
  /-- `unregisterService()` failed. -/
  | nameKept (p : ℕ)
  deriving DecidableEq

structure Session where
  processes : ℕ → Process
  /-- The process that opened the file that is locked. -/
  holder : Option ℕ
  /-- The process that has the caches open; LevelDB admits one. -/
  caches : Option ℕ
  /-- The owner of the name on the bus. -/
  name : Option ℕ
  log : List Entry

inductive Event
  /-- A process starts; the lock file can be opened or not. -/
  | start (p : ℕ) (opens : Bool)
  /-- It calls `flock()`, which may fail for reasons of its own. -/
  | attempt (p : ℕ) (fails : Bool)
  /-- It creates the `Thumbnailer`. -/
  | construct (p : ℕ) (throws : Bool)
  | registerService (p : ℕ) (fails : Bool)
  /-- The event loop returns, when the service is idle or the administrator wants it to. -/
  | quit (p : ℕ)
  | unregisterService (p : ℕ) (fails : Bool)
  /-- The last owner of the `Thumbnailer` is destroyed. -/
  | closeCaches (p : ℕ)
  /-- The lock is destroyed, as the last of the locals. -/
  | closeLock (p : ℕ)
  | crash (p : ℕ)
  /-- The connection of a process to the bus is lost, or the bus finds that the process is gone. -/
  | disconnected (p : ℕ)
  | startChild (p : ℕ)
  | childExits (p : ℕ)

namespace Session

def new : Session := ⟨fun _ => ⟨.notStarted,0,0⟩,none,none,none,[]⟩

def phase (s : Session) (p : ℕ) : Phase := (s.processes p).phase

def modify (s : Session) (p : ℕ) (f : Process → Process) : Session :=
  { s with processes := Function.update s.processes p (f (s.processes p)) }

def setPhase (s : Session) (p : ℕ) (phase : Phase) : Session :=
  s.modify p fun x => { x with phase := phase }

def refuse (s : Session) (p : ℕ) : Session :=
  s.modify p fun x => { x with refusals := x.refusals+1 }

def setChildren (s : Session) (p n : ℕ) : Session :=
  s.modify p fun x => { x with children := n }

def note (s : Session) (e : Entry) : Session := { s with log := e::s.log }

/-- The lock belongs to the open file; its holder may take it again. -/
def flock (s : Session) (p : ℕ) : FlockResult :=
  if s.holder = none ∨ s.holder = some p then .acquired else .wouldBlock

/-- The last descriptor of an open file takes the lock away. -/
def releaseLock (s : Session) (p : ℕ) : Session :=
  if s.holder = some p ∧ (s.phase p).gone ∧ (s.processes p).children = 0 then
    { s with holder := none }
  else s

def releaseCaches (s : Session) (p : ℕ) : Session :=
  if s.caches = some p then { s with caches := none } else s

def releaseName (s : Session) (p : ℕ) : Session :=
  if s.name = some p then { s with name := none } else s

def step (s : Session) : Event → Option Session
  | .start p opens =>
    match s.phase p with
    | .notStarted => some (s.setPhase p (if opens then .locking lockTimeout else .exited 1))
    | _ => none
  | .attempt p fails =>
    match s.phase p with
    | .locking remainingTime =>
      match AdvisoryFileLock.pass remainingTime (if fails then .failed else s.flock p) with
      | .returned true => some { s.setPhase p .locked with holder := some p }
      | .returned false => some (((s.refuse p).setPhase p (.exited 1)).note (.gaveUp p))
      | .again remainingTime => some ((s.refuse p).setPhase p (.locking remainingTime))
      | .threw => some (s.setPhase p (.exited 1))
    | _ => none
  | .construct p throws =>
    match s.phase p,s.caches with
    | .locked,some owner => some ((s.setPhase p (.unlocking 1)).note (.cachesBusy p owner))
    | .locked,none =>
      if throws then some (s.setPhase p (.unlocking 1))
      else some { s.setPhase p .opened with caches := some p }
    | _,_ => none
  | .registerService p fails =>
    match s.phase p,s.name with
    | .opened,some owner => some ((s.setPhase p (.closing 1)).note (.nameTaken p owner))
    | .opened,none =>
      if fails then some (s.setPhase p (.closing 1))
      else some { s.setPhase p .serving with name := some p }
    | _,_ => none
  | .quit p =>
    match s.phase p with
    | .serving => some (s.setPhase p .quitting)
    | _ => none
  | .unregisterService p fails =>
    match s.phase p with
    | .quitting =>
      -- the exception leaves the return code of the event loop as it is
      if fails then some ((s.setPhase p (.closing 0)).note (.nameKept p))
      else some ((s.setPhase p (.closing 0)).releaseName p)
    | _ => none
  | .closeCaches p =>
    match s.phase p with
    | .closing rc => some ((s.setPhase p (.unlocking rc)).releaseCaches p)
    | _ => none
  | .closeLock p =>
    match s.phase p with
    | .unlocking rc => some ((s.setPhase p (.exited rc)).releaseLock p)
    | _ => none
  | .crash p =>
    if (s.phase p).running then some (((s.setPhase p .crashed).releaseCaches p).releaseLock p)
    else none
  | .disconnected p => if s.phase p ≠ .notStarted then some (s.releaseName p) else none
  | .startChild p =>
    match s.phase p with
    | .serving => some (s.setChildren p ((s.processes p).children+1))
    | _ => none
  | .childExits p =>
    if 0 < (s.processes p).children then
      some ((s.setChildren p ((s.processes p).children-1)).releaseLock p)
    else none

end Session

def machine : Machine Session Event where
  step := Session.step

def Event.process : Event → ℕ
  | .start p _ | .attempt p _ | .construct p _ | .registerService p _ | .quit p
  | .unregisterService p _ | .closeCaches p | .closeLock p | .crash p | .disconnected p
  | .startChild p | .childExits p => p

def Entry.process : Entry → ℕ
  | .gaveUp p | .cachesBusy p _ | .nameTaken p _ | .nameKept p => p

namespace Session

section

variable {s t : Session} {p q : ℕ}

/-! ### What a step of one process does -/

/-- All that a step of a process can do. -/
inductive Transition (s : Session) (p : ℕ) : Session → Prop
  | started (hp : s.phase p = .notStarted) : Transition s p (s.setPhase p (.locking lockTimeout))
  | notOpened (hp : s.phase p = .notStarted) : Transition s p (s.setPhase p (.exited 1))
  | acquired {r : ℤ} (hp : s.phase p = .locking r) (hfree : s.holder = none ∨ s.holder = some p) :
      Transition s p { s.setPhase p .locked with holder := some p }
  | gaveUp {r : ℤ} (hp : s.phase p = .locking r) (hr : r ≤ sleepInterval) :
      Transition s p (((s.refuse p).setPhase p (.exited 1)).note (.gaveUp p))
  | waits {r : ℤ} (hp : s.phase p = .locking r) (hr : sleepInterval < r) :
      Transition s p ((s.refuse p).setPhase p (.locking (r-sleepInterval)))
  | flockFailed {r : ℤ} (hp : s.phase p = .locking r) : Transition s p (s.setPhase p (.exited 1))
  | busy {owner : ℕ} (hp : s.phase p = .locked) (howner : s.caches = some owner) :
      Transition s p ((s.setPhase p (.unlocking 1)).note (.cachesBusy p owner))
  | notConstructed (hp : s.phase p = .locked) : Transition s p (s.setPhase p (.unlocking 1))
  | constructed (hp : s.phase p = .locked) (hfree : s.caches = none) :
      Transition s p { s.setPhase p .opened with caches := some p }
  | taken {owner : ℕ} (hp : s.phase p = .opened) (howner : s.name = some owner) :
      Transition s p ((s.setPhase p (.closing 1)).note (.nameTaken p owner))
  | notRegistered (hp : s.phase p = .opened) : Transition s p (s.setPhase p (.closing 1))
  | registered (hp : s.phase p = .opened) (hfree : s.name = none) :
      Transition s p { s.setPhase p .serving with name := some p }
  | quits (hp : s.phase p = .serving) : Transition s p (s.setPhase p .quitting)
  | notUnregistered (hp : s.phase p = .quitting) :
      Transition s p ((s.setPhase p (.closing 0)).note (.nameKept p))
  | unregistered (hp : s.phase p = .quitting) :
      Transition s p ((s.setPhase p (.closing 0)).releaseName p)
  | cachesClosed {rc : ℤ} (hp : s.phase p = .closing rc) :
      Transition s p ((s.setPhase p (.unlocking rc)).releaseCaches p)
  | lockClosed {rc : ℤ} (hp : s.phase p = .unlocking rc) :
      Transition s p ((s.setPhase p (.exited rc)).releaseLock p)
  | crashes (hp : (s.phase p).running = true) :
      Transition s p (((s.setPhase p .crashed).releaseCaches p).releaseLock p)
  | disconnected : Transition s p (s.releaseName p)
  | childStarted (hp : s.phase p = .serving) :
      Transition s p (s.setChildren p ((s.processes p).children+1))
  | childExited (hp : 0 < (s.processes p).children) :
      Transition s p ((s.setChildren p ((s.processes p).children-1)).releaseLock p)

theorem transition_of_attempt {fails : Bool} (ht : s.step (.attempt p fails) = some t) :
    Transition s p t := by
  simp only [step] at ht
  split at ht
  case h_2 => cases ht
  rename_i r hp
  cases fails with
  | true =>
    obtain rfl := Option.some.inj ht
    exact .flockFailed hp
  | false =>
    simp only [Bool.false_eq_true,if_false,flock] at ht
    by_cases hfree : s.holder = none ∨ s.holder = some p
    · rw [if_pos hfree] at ht
      obtain rfl := Option.some.inj ht
      exact .acquired hp hfree
    · rw [if_neg hfree] at ht
      simp only [AdvisoryFileLock.pass] at ht
      by_cases hr : 0 < r-sleepInterval
      · rw [if_pos hr] at ht
        obtain rfl := Option.some.inj ht
        exact .waits hp (by omega)
      · rw [if_neg hr] at ht
        obtain rfl := Option.some.inj ht
        exact .gaveUp hp (by omega)

theorem transition_of_step {e : Event} (ht : s.step e = some t) : Transition s e.process t := by
  cases e with
  | attempt p fails => exact transition_of_attempt ht
  | start p opens =>
    simp only [step] at ht
    split at ht
    · rename_i hp
      obtain rfl := Option.some.inj ht
      cases opens with
      | true => exact .started hp
      | false => exact .notOpened hp
    · cases ht
  | construct p throws =>
    simp only [step] at ht
    split at ht
    · rename_i hp howner
      obtain rfl := Option.some.inj ht
      exact .busy hp howner
    · rename_i hp hfree
      split_ifs at ht <;> obtain rfl := Option.some.inj ht
      · exact .notConstructed hp
      · exact .constructed hp hfree
    · cases ht
  | registerService p fails =>
    simp only [step] at ht
    split at ht
    · rename_i hp howner
      obtain rfl := Option.some.inj ht
      exact .taken hp howner
    · rename_i hp hfree
      split_ifs at ht <;> obtain rfl := Option.some.inj ht
      · exact .notRegistered hp
      · exact .registered hp hfree
    · cases ht
  | quit p =>
    simp only [step] at ht
    split at ht
    · rename_i hp
      obtain rfl := Option.some.inj ht
      exact .quits hp
    · cases ht
  | unregisterService p fails =>
    simp only [step] at ht
    split at ht
    · rename_i hp
      split_ifs at ht <;> obtain rfl := Option.some.inj ht
      · exact .notUnregistered hp
      · exact .unregistered hp
    · cases ht
  | closeCaches p =>
    simp only [step] at ht
    split at ht
    · rename_i rc hp
      obtain rfl := Option.some.inj ht
      exact .cachesClosed hp
    · cases ht
  | closeLock p =>
    simp only [step] at ht
    split at ht
    · rename_i rc hp
      obtain rfl := Option.some.inj ht
      exact .lockClosed hp
    · cases ht
  | crash p =>
    obtain ⟨hp,ht⟩ := Option.ite_none_right_eq_some.mp ht
    obtain rfl := Option.some.inj ht
    exact .crashes hp
  | disconnected p =>
    obtain ⟨-,ht⟩ := Option.ite_none_right_eq_some.mp ht
    obtain rfl := Option.some.inj ht
    exact .disconnected
  | startChild p =>
    simp only [step] at ht
    split at ht
    · rename_i hp
      obtain rfl := Option.some.inj ht
      exact .childStarted hp
    · cases ht
  | childExits p =>
    obtain ⟨hp,ht⟩ := Option.ite_none_right_eq_some.mp ht
    obtain rfl := Option.some.inj ht
    exact .childExited hp

/-! ### Fields -/

@[simp] theorem modify_self (f : Process → Process) :
    (s.modify p f).processes p = f (s.processes p) :=
  Function.update_self ..

theorem modify_other (f : Process → Process) (hq : q ≠ p) :
    (s.modify p f).processes q = s.processes q :=
  Function.update_of_ne hq ..

@[simp] theorem modify_holder (f : Process → Process) : (s.modify p f).holder = s.holder := rfl

@[simp] theorem modify_caches (f : Process → Process) : (s.modify p f).caches = s.caches := rfl

@[simp] theorem modify_name (f : Process → Process) : (s.modify p f).name = s.name := rfl

@[simp] theorem modify_log (f : Process → Process) : (s.modify p f).log = s.log := rfl

@[simp] theorem releaseLock_processes : (s.releaseLock p).processes = s.processes := by
  unfold releaseLock
  split <;> rfl

@[simp] theorem releaseLock_caches : (s.releaseLock p).caches = s.caches := by
  unfold releaseLock
  split <;> rfl

@[simp] theorem releaseLock_name : (s.releaseLock p).name = s.name := by
  unfold releaseLock
  split <;> rfl

@[simp] theorem releaseLock_log : (s.releaseLock p).log = s.log := by
  unfold releaseLock
  split <;> rfl

@[simp] theorem releaseLock_holder : (s.releaseLock p).holder = some q ↔ s.holder = some q ∧
    ¬ (q = p ∧ (s.processes p).phase.gone = true ∧ (s.processes p).children = 0) := by
  unfold releaseLock phase
  split_ifs with h
  · refine iff_of_false (by simp) fun hq => hq.2 ?_
    exact ⟨Option.some.inj (hq.1.symm.trans h.1),h.2⟩
  · refine ⟨fun hq => ⟨hq,fun hp => h ⟨hp.1 ▸ hq,hp.2⟩⟩,And.left⟩

@[simp] theorem releaseCaches_processes : (s.releaseCaches p).processes = s.processes := by
  unfold releaseCaches
  split <;> rfl

@[simp] theorem releaseCaches_holder : (s.releaseCaches p).holder = s.holder := by
  unfold releaseCaches
  split <;> rfl

@[simp] theorem releaseCaches_name : (s.releaseCaches p).name = s.name := by
  unfold releaseCaches
  split <;> rfl

@[simp] theorem releaseCaches_log : (s.releaseCaches p).log = s.log := by
  unfold releaseCaches
  split <;> rfl

@[simp] theorem releaseCaches_caches :
    (s.releaseCaches p).caches = some q ↔ s.caches = some q ∧ q ≠ p := by
  unfold releaseCaches
  split_ifs with h
  · simp [h,eq_comm]
  · exact ⟨fun hq => ⟨hq,fun hp => h (hp ▸ hq)⟩,And.left⟩

@[simp] theorem releaseName_processes : (s.releaseName p).processes = s.processes := by
  unfold releaseName
  split <;> rfl

@[simp] theorem releaseName_holder : (s.releaseName p).holder = s.holder := by
  unfold releaseName
  split <;> rfl

@[simp] theorem releaseName_caches : (s.releaseName p).caches = s.caches := by
  unfold releaseName
  split <;> rfl

@[simp] theorem releaseName_log : (s.releaseName p).log = s.log := by
  unfold releaseName
  split <;> rfl

@[simp] theorem releaseName_name :
    (s.releaseName p).name = some q ↔ s.name = some q ∧ q ≠ p := by
  unfold releaseName
  split_ifs with h
  · simp [h,eq_comm]
  · exact ⟨fun hq => ⟨hq,fun hp => h (hp ▸ hq)⟩,And.left⟩

/-! ### What it leaves to the others -/

/-- A step of a process takes nothing from the others. -/
structure Apart (p : ℕ) (s t : Session) : Prop where
  processes : ∀ q ≠ p, t.processes q = s.processes q
  holder : ∀ q ≠ p, t.holder = some q ↔ s.holder = some q
  caches : ∀ q ≠ p, t.caches = some q ↔ s.caches = some q
  name : ∀ q ≠ p, t.name = some q ↔ s.name = some q
  log : ∃ es, t.log = es ++ s.log ∧ ∀ a ∈ es, a.process = p

namespace Apart

theorem refl (s : Session) : Apart p s s :=
  ⟨fun _ _ => rfl,fun _ _ => Iff.rfl,fun _ _ => Iff.rfl,fun _ _ => Iff.rfl,
    [],rfl,List.forall_mem_nil _⟩

theorem modify (h : Apart p s t) (f : Process → Process) : Apart p s (t.modify p f) :=
  ⟨fun q hq => (modify_other f hq).trans (h.processes q hq),h.holder,h.caches,h.name,h.log⟩

theorem noted {a : Entry} (h : Apart p s t) (ha : a.process = p) : Apart p s (t.note a) := by
  obtain ⟨es,hlog,hes⟩ := h.log
  refine ⟨h.processes,h.holder,h.caches,h.name,a::es,?_,List.forall_mem_cons.mpr ⟨ha,hes⟩⟩
  exact congrArg (a::·) hlog

theorem lockTaken (h : Apart p s t) (hfree : t.holder = none ∨ t.holder = some p) :
    Apart p s { t with holder := some p } := by
  refine ⟨h.processes,fun q hq => (iff_of_false ?_ ?_).trans (h.holder q hq),h.caches,h.name,h.log⟩
  · simp [hq.symm]
  · rcases hfree with hfree | hfree <;> simp [hfree,hq.symm]

theorem cachesTaken (h : Apart p s t) (hfree : t.caches = none) :
    Apart p s { t with caches := some p } := by
  refine ⟨h.processes,h.holder,fun q hq => (iff_of_false ?_ ?_).trans (h.caches q hq),h.name,h.log⟩
  · simp [hq.symm]
  · simp [hfree]

theorem nameTaken (h : Apart p s t) (hfree : t.name = none) :
    Apart p s { t with name := some p } := by
  refine ⟨h.processes,h.holder,h.caches,fun q hq => (iff_of_false ?_ ?_).trans (h.name q hq),h.log⟩
  · simp [hq.symm]
  · simp [hfree]

theorem releaseLock (h : Apart p s t) : Apart p s (t.releaseLock p) := by
  obtain ⟨es,hlog,hes⟩ := h.log
  exact ⟨by simpa using h.processes,fun q hq => by simp [hq,h.holder q hq],by simpa using h.caches,
    by simpa using h.name,es,by simpa using hlog,hes⟩

theorem releaseCaches (h : Apart p s t) : Apart p s (t.releaseCaches p) := by
  obtain ⟨es,hlog,hes⟩ := h.log
  exact ⟨by simpa using h.processes,by simpa using h.holder,fun q hq => by simp [hq,h.caches q hq],
    by simpa using h.name,es,by simpa using hlog,hes⟩

theorem releaseName (h : Apart p s t) : Apart p s (t.releaseName p) := by
  obtain ⟨es,hlog,hes⟩ := h.log
  exact ⟨by simpa using h.processes,by simpa using h.holder,by simpa using h.caches,
    fun q hq => by simp [hq,h.name q hq],es,by simpa using hlog,hes⟩

end Apart

theorem Transition.apart (ht : Transition s p t) : Apart p s t := by
  have hs : Apart p s s := .refl s
  cases ht with
  | started | notOpened | flockFailed | notConstructed | notRegistered | quits | childStarted =>
    exact hs.modify _
  | acquired hp hfree => exact (hs.modify _).lockTaken hfree
  | gaveUp => exact ((hs.modify _).modify _).noted rfl
  | waits => exact (hs.modify _).modify _
  | constructed hp hfree => exact (hs.modify _).cachesTaken hfree
  | registered hp hfree => exact (hs.modify _).nameTaken hfree
  | busy | taken | notUnregistered => exact (hs.modify _).noted rfl
  | unregistered => exact (hs.modify _).releaseName
  | cachesClosed => exact (hs.modify _).releaseCaches
  | lockClosed | childExited => exact (hs.modify _).releaseLock
  | crashes => exact (hs.modify _).releaseCaches.releaseLock
  | disconnected => exact hs.releaseName

/-! ### What is where -/

/-- What a process is doing shows what belongs to it. -/
structure Placed (s : Session) (p : ℕ) : Prop where
  /-- The lock belongs to a process that has it, or to the children that one left behind. -/
  holder : s.holder = some p ↔ (s.phase p).holds = true ∨
    (s.phase p).gone = true ∧ 0 < (s.processes p).children
  caches : s.caches = some p ↔ (s.phase p).hasCaches = true
  name : s.name = some p → (s.phase p).hasName = true ∨ s.phase p = .crashed ∨ .nameKept p ∈ s.log
  children : 0 < (s.processes p).children → (s.phase p).holds = true ∨ (s.phase p).gone = true
  unstarted : s.phase p = .notStarted → (s.processes p).refusals = 0
  locking : ∀ r, s.phase p = .locking r →
    0 < r ∧ r+sleepInterval*(s.processes p).refusals = lockTimeout
  refusals : sleepInterval*(s.processes p).refusals ≤ lockTimeout
  gaveUp : .gaveUp p ∈ s.log →
    s.phase p = .exited 1 ∧ sleepInterval*(s.processes p).refusals = lockTimeout

theorem Apart.placed (h : Apart p s t) (hq : q ≠ p) (hs : Placed s q) : Placed t q := by
  obtain ⟨es,hlog,hes⟩ := h.log
  have hprocess := h.processes q hq
  have hphase : t.phase q = s.phase q := congrArg Process.phase hprocess
  constructor
  · rw [h.holder q hq,hphase,hprocess]
    exact hs.holder
  · rw [h.caches q hq,hphase]
    exact hs.caches
  · rw [h.name q hq,hphase,hlog]
    exact fun hn => (hs.name hn).imp_right (Or.imp_right (List.mem_append_right es))
  · rw [hprocess,hphase]
    exact hs.children
  · rw [hprocess,hphase]
    exact hs.unstarted
  · rw [hprocess,hphase]
    exact hs.locking
  · rw [hprocess]
    exact hs.refusals
  · rw [hprocess,hphase,hlog]
    exact fun hm => hs.gaveUp ((List.mem_append.mp hm).resolve_left fun he => hq (hes _ he))

theorem Transition.lock (ht : Transition s p t) (hs : Placed s p) :
    (t.holder = some p ↔ (t.phase p).holds = true ∨
      (t.phase p).gone = true ∧ 0 < (t.processes p).children) ∧
    (0 < (t.processes p).children → (t.phase p).holds = true ∨ (t.phase p).gone = true) := by
  have hh := hs.holder
  have hc := hs.children
  clear hs
  cases ht with
  | lockClosed hp =>
    simp_all [phase,setPhase,Phase.holds,Phase.gone,Nat.pos_iff_ne_zero]
  | crashes hp =>
    cases hphase : (s.processes p).phase <;>
      simp_all [phase,setPhase,Phase.holds,Phase.gone,Phase.running,Nat.pos_iff_ne_zero]
  | childExited hp =>
    cases hphase : (s.processes p).phase <;>
      simp_all [phase,setChildren,Phase.holds,Phase.gone] <;> omega
  | _ => simp_all [phase,setPhase,refuse,setChildren,note,Phase.holds,Phase.gone]

theorem Transition.caches (ht : Transition s p t)
    (hs : s.caches = some p ↔ (s.phase p).hasCaches = true) :
    t.caches = some p ↔ (t.phase p).hasCaches = true := by
  cases ht <;> simp_all [phase,setPhase,refuse,setChildren,note,Phase.hasCaches]

theorem Transition.name (ht : Transition s p t) (hs : Placed s p) :
    t.name = some p →
      (t.phase p).hasName = true ∨ t.phase p = .crashed ∨ .nameKept p ∈ t.log := by
  have hm := hs.name
  clear hs
  cases ht <;> simp_all [phase,setPhase,refuse,setChildren,note,Phase.hasName]

/-- The remaining time tells how often the lock was refused. -/
theorem Transition.waited (ht : Transition s p t) (hs : Placed s p) :
    (t.phase p = .notStarted → (t.processes p).refusals = 0) ∧
    (∀ r, t.phase p = .locking r →
      0 < r ∧ r+sleepInterval*(t.processes p).refusals = lockTimeout) ∧
    sleepInterval*(t.processes p).refusals ≤ lockTimeout ∧
    (.gaveUp p ∈ t.log →
      t.phase p = .exited 1 ∧ sleepInterval*(t.processes p).refusals = lockTimeout) := by
  have hr := hs.refusals
  have hg := hs.gaveUp
  cases ht with
  | gaveUp hp hlast =>
    obtain ⟨hpos,hsum⟩ := hs.locking _ hp
    simp only [lockTimeout,sleepInterval] at hsum hlast
    simp [phase,setPhase,refuse,note,lockTimeout,sleepInterval]
    omega
  | waits hp hmore =>
    obtain ⟨hpos,hsum⟩ := hs.locking _ hp
    have hnot : .gaveUp p ∉ s.log := fun hm => by simpa [hp] using (hg hm).1
    simp only [lockTimeout,sleepInterval] at hsum hmore
    simp [phase,setPhase,refuse,lockTimeout,sleepInterval,hnot]
    omega
  | crashes hp =>
    have hnot : .gaveUp p ∉ s.log := fun hm => by simp [(hg hm).1,Phase.running] at hp
    simpa [phase,setPhase,hnot] using hr
  | disconnected | childExited | childStarted =>
    simpa [phase,setChildren] using ⟨hs.unstarted,hs.locking,hr,hg⟩
  | _ =>
    have hu := hs.unstarted
    clear hs
    simp_all [phase,setPhase,note,lockTimeout]

theorem Transition.placed (ht : Transition s p t) (hs : Placed s p) : Placed t p := by
  obtain ⟨hholder,hchildren⟩ := ht.lock hs
  obtain ⟨hunstarted,hlocking,hrefusals,hgaveUp⟩ := ht.waited hs
  exact ⟨hholder,ht.caches hs.caches,ht.name hs,hchildren,hunstarted,hlocking,hrefusals,hgaveUp⟩

/-! ### Every run -/

/-- The caches are never found in use by another process, and the name only after a crash. -/
structure Ordered (s : Session) : Prop where
  placed : ∀ p, Placed s p
  notBusy : ∀ p owner, .cachesBusy p owner ∉ s.log
  taken : ∀ p owner, .nameTaken p owner ∈ s.log →
    s.phase owner = .crashed ∨ .nameKept owner ∈ s.log

/-- The lock shuts the others out. -/
theorem Ordered.alone (hs : Ordered s) (hp : (s.phase p).holds = true)
    (hq : (s.phase q).holds = true) : p = q :=
  Option.some.inj (((hs.placed p).holder.mpr (.inl hp)).symm.trans
    ((hs.placed q).holder.mpr (.inl hq)))

theorem Ordered.cachesFree (hs : Ordered s) (hp : s.phase p = .locked) : s.caches = none := by
  refine Option.eq_none_iff_forall_ne_some.mpr fun q hq => ?_
  have hcaches := (hs.placed q).caches.mp hq
  have hholds : (s.phase q).holds = true := by
    cases hphase : s.phase q <;> simp_all [Phase.hasCaches,Phase.holds]
  obtain rfl := hs.alone (by rw [hp]; rfl) hholds
  rw [hp] at hcaches
  cases hcaches

theorem Ordered.nameLeft {owner : ℕ} (hs : Ordered s) (hp : s.phase p = .opened)
    (howner : s.name = some owner) : s.phase owner = .crashed ∨ .nameKept owner ∈ s.log := by
  refine ((hs.placed owner).name howner).resolve_left fun hname => ?_
  have hholds : (s.phase owner).holds = true := by
    cases hphase : s.phase owner <;> simp_all [Phase.hasName,Phase.holds]
  obtain rfl := hs.alone (by rw [hp]; rfl) hholds
  rw [hp] at hname
  cases hname

theorem Transition.crashed (ht : Transition s p t) (hs : s.phase p = .crashed) :
    t.phase p = .crashed := by
  cases ht with
  | crashes | disconnected | childStarted | childExited =>
    simp_all [phase,setPhase,setChildren]
  | _ => simp_all

theorem Ordered.move (hs : Ordered s) (ht : Transition s p t) : Ordered t := by
  have hapart := ht.apart
  have hcrashed : ∀ q, s.phase q = .crashed → t.phase q = .crashed := by
    intro q hq
    by_cases hqp : q = p
    · subst hqp
      exact ht.crashed hq
    · exact (congrArg Process.phase (hapart.processes q hqp)).trans hq
  have hlater : ∀ {q}, s.phase q = .crashed ∨ .nameKept q ∈ s.log →
      t.phase q = .crashed ∨ .nameKept q ∈ t.log := by
    obtain ⟨es,hlog,-⟩ := hapart.log
    rw [hlog]
    exact Or.imp (hcrashed _) (List.mem_append_right es)
  refine ⟨fun q => ?_,fun x owner hm => ?_,fun x owner hm => ?_⟩
  · by_cases hq : q = p
    · subst hq
      exact ht.placed (hs.placed q)
    · exact hapart.placed hq (hs.placed q)
  · have hold := hs.notBusy x owner
    cases ht with
    | busy hp howner =>
      rw [hs.cachesFree hp] at howner
      cases howner
    | _ => simp_all [setPhase,refuse,setChildren,note]
  · have hold := hs.taken x owner
    cases ht with
    | taken hp howner =>
      rcases List.mem_cons.mp hm with heq | hm
      · obtain ⟨-,rfl⟩ := Entry.nameTaken.inj heq
        exact hlater (hs.nameLeft hp howner)
      · exact hlater (hold hm)
    | _ => exact hlater (hold (by simpa [setPhase,refuse,setChildren,note] using hm))

theorem Ordered.new : Ordered new := by
  refine ⟨fun p => ⟨?_,?_,nofun,nofun,fun _ => rfl,nofun,?_,nofun⟩,nofun,nofun⟩
  · simp [Session.new,phase,Phase.holds,Phase.gone]
  · simp [Session.new,phase,Phase.hasCaches]
  · simp [Session.new,lockTimeout]

/-- What the lock file is for. -/
structure OneInstance (s : Session) : Prop where
  /-- Two processes never have the caches open. -/
  caches : ∀ p q, (s.phase p).hasCaches = true → (s.phase q).hasCaches = true → p = q
  /-- Nobody finds the caches in use who has got the lock. -/
  notBusy : ∀ p owner, .cachesBusy p owner ∉ s.log
  /-- The name is taken only if its owner crashed, or could not give it back. -/
  taken : ∀ p owner, .nameTaken p owner ∈ s.log →
    s.phase owner = .crashed ∨ .nameKept owner ∈ s.log
  /-- Else it belongs to a process that has the caches open and has not left its event loop, or
  gives it back next. -/
  name : ∀ p, s.name = some p →
    s.phase p = .serving ∨ s.phase p = .quitting ∨ s.phase p = .crashed ∨ .nameKept p ∈ s.log
  /-- A process is refused the lock a hundred times at most, and gives up only then. -/
  patience : ∀ p, (s.processes p).refusals ≤ 100
  gaveUp : ∀ p, .gaveUp p ∈ s.log → (s.processes p).refusals = 100
  /-- As soon as no process holds the lock and the children of those that did are gone, whoever
  waits gets it at the next attempt. -/
  free : (∀ q, (s.phase q).holds = false ∧
      ((s.phase q).gone = true → (s.processes q).children = 0)) → ∀ p r, s.phase p = .locking r →
    ∃ t, s.step (.attempt p false) = some t ∧ t.phase p = .locked

theorem Ordered.oneInstance (hs : Ordered s) : OneInstance s where
  caches p q hp hq :=
    Option.some.inj (((hs.placed p).caches.mpr hp).symm.trans ((hs.placed q).caches.mpr hq))
  notBusy := hs.notBusy
  taken := hs.taken
  name p hp := by
    refine ((hs.placed p).name hp).elim (fun hname => ?_) fun h => .inr (.inr h)
    cases hphase : s.phase p <;> simp_all [Phase.hasName]
  patience p := by
    have := (hs.placed p).refusals
    simp only [sleepInterval,lockTimeout] at this
    omega
  gaveUp p hp := by
    have := ((hs.placed p).gaveUp hp).2
    simp only [sleepInterval,lockTimeout] at this
    omega
  free hfree p r hp := by
    have hholder : s.holder = none := by
      refine Option.eq_none_iff_forall_ne_some.mpr fun q hq => ?_
      obtain ⟨hholds,hchildren⟩ := hfree q
      rcases (hs.placed q).holder.mp hq with h | ⟨hgone,hpos⟩
      · rw [hholds] at h
        cases h
      · exact absurd (hchildren hgone) (Nat.ne_of_gt hpos)
    refine ⟨{ s.setPhase p .locked with holder := some p },?_,?_⟩
    · simp [step,hp,flock,hholder,AdvisoryFileLock.pass]
    · simp [phase,setPhase]

end

end Session

/-- In every run of any number of processes of the service, however they start, stop and crash,
the lock file keeps them apart. -/
theorem lockFile_oneInstance (es : List Event) : machine.Always Session.OneInstance .new es :=
  have hstep : ∀ s e t, Session.Ordered s → machine.step s e = some t → Session.Ordered t :=
    fun _ _ _ hs ht => hs.move (Session.transition_of_step ht)
  Machine.always_of_invariant hstep (fun _ hs => hs.oneInstance) es .new

/-- A process that starts while another one shuts down waits for the lock, and gets it when the
caches are closed. -/
example : (machine.run .new [.start 0 true,.attempt 0 false,.construct 0 false,
    .registerService 0 false,.quit 0,.unregisterService 0 false,.start 1 true,.attempt 1 false,
    .closeCaches 0,.closeLock 0,.attempt 1 false,.construct 1 false]).map
      (fun s => (s.phase 0,s.phase 1,s.caches)) = some (.exited 0,.opened,some 1) := by
  decide

end ServiceInstances
end UnityThumbnailer
