import UnityThumbnailer.CacheHelper

/-! What a call with retry amounts to, as a list of accesses to the underlying cache. The
world keeps the list: a cache that notes its accesses behaves like one that does not. -/
namespace UnityThumbnailer
namespace CacheHelper

inductive Access
  | openSized (path : String) (size : ℤ) (policy : CacheDiscardPolicy)
  | openExisting (path : String)
  | destroy
  | resize (size : ℤ)
  | removeAll (path : String)
  | method (c : Call)

variable {World Handle Stats α : Type*}

def note (a : Access) (f : World → Except Exn α × World) (w : World × List Access) :
    Except Exn α × (World × List Access) :=
  ((f w.1).1,((f w.1).2,w.2 ++ [a]))

/-- The same cache in a world that keeps the list of accesses. -/
def noting (b : CacheT World Handle Stats) : CacheT (World × List Access) Handle Stats where
  openSized path size policy := note (.openSized path size policy) (b.openSized path size policy)
  openExisting path := note (.openExisting path) (b.openExisting path)
  destroy h w := (b.destroy h w.1,w.2 ++ [.destroy])
  resize size h := note (.resize size) (b.resize size h)
  get key h := note (.method (.get key)) (b.get key h)
  put key value expiryTime h :=
    note (.method (.put key value expiryTime)) (b.put key value expiryTime h)
  containsKey key h := note (.method (.containsKey key)) (b.containsKey key h)
  stats h := note (.method .stats) (b.stats h)
  clearStats h := note (.method .clearStats) (b.clearStats h)
  invalidate h := note (.method .invalidate) (b.invalidate h)
  compact h := note (.method .compact) (b.compact h)
  removeAll path := note (.removeAll path) (b.removeAll path)

/-- The wrapper in a world with this list. -/
def withLog (s : CacheHelper World Handle) (log : List Access) :
    CacheHelper (World × List Access) Handle :=
  ⟨s.path,s.size,s.policy,s.c,(s.world,log)⟩

/-- An outcome with these accesses added to the list. -/
def outcome (log : List Access) (r : Ending α × CacheHelper World Handle) (as : List Access) :
    Ending α × CacheHelper (World × List Access) Handle :=
  (r.1,r.2.withLog (log ++ as))

/-! ### The recovery -/

/-- The ways to re-create the cache: how it ends, the cache that is there then, and the
accesses on the way. -/
inductive Recreation (b : CacheT World Handle Stats) (path : String) (size : ℤ)
    (policy : CacheDiscardPolicy) (w : World) :
    Except Exn Unit → Option Handle → World → List Access → Prop
  | notRemoved {e : Exn} {w₁ : World} (hremove : b.removeAll path w = (.error e,w₁)) :
    Recreation b path size policy w (.error e) none w₁ [.removeAll path]
  | opened {h : Handle} {w₁ w₂ : World} (hremove : b.removeAll path w = (.ok (),w₁))
    (hopen : b.openSized path size policy w₁ = (.ok h,w₂)) :
    Recreation b path size policy w (.ok ()) (some h) w₂
      [.removeAll path,.openSized path size policy]
  | notOpened {e : Exn} {w₁ w₂ : World} (hremove : b.removeAll path w = (.ok (),w₁))
    (hopen : b.openSized path size policy w₁ = (.error e,w₂))
    (he : ∀ what, e ≠ .logicError what) :
    Recreation b path size policy w (.error e) none w₂
      [.removeAll path,.openSized path size policy]
  | notFound {what : String} {e : Exn} {w₁ w₂ w₃ : World}
    (hremove : b.removeAll path w = (.ok (),w₁))
    (hopen : b.openSized path size policy w₁ = (.error (.logicError what),w₂))
    (hexisting : b.openExisting path w₂ = (.error e,w₃)) :
    Recreation b path size policy w (.error e) none w₃
      [.removeAll path,.openSized path size policy,.openExisting path]
  | resized {what : String} {h : Handle} {r : Except Exn Unit} {w₁ w₂ w₃ w₄ : World}
    (hremove : b.removeAll path w = (.ok (),w₁))
    (hopen : b.openSized path size policy w₁ = (.error (.logicError what),w₂))
    (hexisting : b.openExisting path w₂ = (.ok h,w₃))
    (hresize : b.resize size h w₃ = (r,w₄)) :
    Recreation b path size policy w r (some h) w₄
      [.removeAll path,.openSized path size policy,.openExisting path,.resize size]

section Recovery

variable {b : CacheT World Handle Stats} {s : CacheHelper World Handle} {h : Handle} {w : World}
  {log : List Access}

theorem Recreation.total (b : CacheT World Handle Stats) (path : String) (size : ℤ)
    (policy : CacheDiscardPolicy) (w : World) :
    ∃ r c w' as, Recreation b path size policy w r c w' as := by
  rcases hremove : b.removeAll path w with ⟨_ | _,w₁⟩
  · exact ⟨_,_,_,_,.notRemoved hremove⟩
  rcases hopen : b.openSized path size policy w₁ with ⟨e | h,w₂⟩
  · cases e with
    | systemError code what | other what =>
      exact ⟨_,_,_,_,.notOpened hremove hopen (by simp)⟩
    | logicError what =>
      rcases hexisting : b.openExisting path w₂ with ⟨e | h,w₃⟩
      · exact ⟨_,_,_,_,.notFound hremove hopen hexisting⟩
      · exact ⟨_,_,_,_,.resized hremove hopen hexisting rfl⟩
  · exact ⟨_,_,_,_,.opened hremove hopen⟩

/-- On corruption, `recover()` destroys the cache and re-creates it. -/
theorem Recreation.recover {r : Except Exn Unit} {c : Option Handle} {w' : World}
    {as : List Access} (what : String) (hc : s.c = some h)
    (hr : Recreation b s.path s.size s.policy (b.destroy h w) r c w' as) :
    ({ s with world := w }.withLog log).recover (noting b) (.systemError corruptCode what) =
      outcome log (.ofExcept r,{ s with c := c, world := w' }) (.destroy::as) := by
  have hreset : ({ s with world := w }.withLog log).reset (noting b) =
      { s with c := none, world := b.destroy h w }.withLog (log ++ [Access.destroy]) := by
    simp only [reset,withLog,hc,noting]
  have hcode : ¬ corruptCode ≠ corruptCode := not_not.mpr rfl
  unfold CacheHelper.recover
  simp only [if_neg hcode,hreset]
  cases hr with
  | notRemoved hremove =>
    simp [withLog,noting,note,hremove,outcome,Ending.ofExcept]
  | opened hremove hopen =>
    simp [withLog,noting,note,hremove,outcome,Ending.ofExcept,initCache,hopen,assign,reset]
  | @notOpened e _ _ hremove hopen he =>
    cases e with
    | systemError code what | other what =>
      simp [withLog,noting,note,hremove,outcome,Ending.ofExcept,initCache,hopen]
    | logicError what => exact absurd rfl (he what)
  | notFound hremove hopen hexisting =>
    simp [withLog,noting,note,hremove,outcome,Ending.ofExcept,initCache,hopen,hexisting]
  | resized hremove hopen hexisting hresize =>
    simp [withLog,noting,note,hremove,outcome,initCache,hopen,hexisting,hresize,assign,reset,
      deref]

end Recovery

/-! ### The call -/

/-- What `call()` makes of a method: how the call ends, the wrapper after it, and the
accesses on the way. -/
inductive Retried (b : CacheT World Handle Stats) (s : CacheHelper World Handle) (c : Call)
    (method : Handle → World → Except Exn α × World) :
    Ending α → CacheHelper World Handle → List Access → Prop
  /-- Nothing is left from an earlier recovery that has failed. -/
  | empty (hc : s.c = none) : Retried b s c method .crashed s []
  | returned {h : Handle} {value : α} {w : World} (hc : s.c = some h)
    (hm : method h s.world = (.ok value,w)) :
    Retried b s c method (.returned value) { s with world := w } [.method c]
  | escaped {h : Handle} {e : Exn} {w : World} (hc : s.c = some h)
    (hm : method h s.world = (.error e,w)) (he : ∀ what, e ≠ .systemError corruptCode what) :
    Retried b s c method (.threw e) { s with world := w } [.method c]
  | lost {h : Handle} {what : String} {w w' : World} {e : Exn} {c' : Option Handle}
    {as : List Access} (hc : s.c = some h)
    (hm : method h s.world = (.error (.systemError corruptCode what),w))
    (hr : Recreation b s.path s.size s.policy (b.destroy h w) (.error e) c' w' as) :
    Retried b s c method (.threw e) { s with c := c', world := w' } (.method c::.destroy::as)
  | retried {h h' : Handle} {what : String} {w w' w'' : World} {as : List Access}
    {r : Except Exn α} (hc : s.c = some h)
    (hm : method h s.world = (.error (.systemError corruptCode what),w))
    (hr : Recreation b s.path s.size s.policy (b.destroy h w) (.ok ()) (some h') w' as)
    (hagain : method h' w' = (r,w'')) :
    Retried b s c method (.ofExcept r) { s with c := some h', world := w'' }
      (.method c::.destroy::(as ++ [.method c]))

section Retry

variable {b : CacheT World Handle Stats} {s t : CacheHelper World Handle} {c : Call}
  {method : Handle → World → Except Exn α × World} {r : Ending α} {log as : List Access}

theorem Recreation.held {w w' : World} {c' : Option Handle}
    (hr : Recreation b s.path s.size s.policy w (.ok ()) c' w' as) : ∃ h, c' = some h := by
  cases hr with
  | opened hremove hopen => exact ⟨_,rfl⟩
  | resized hremove hopen hexisting hresize => exact ⟨_,rfl⟩

theorem Retried.total (b : CacheT World Handle Stats) (s : CacheHelper World Handle) (c : Call)
    (method : Handle → World → Except Exn α × World) : ∃ r t as, Retried b s c method r t as := by
  rcases hc : s.c with _ | h
  · exact ⟨_,_,_,.empty hc⟩
  rcases hm : method h s.world with ⟨e | value,w⟩
  · by_cases he : ∃ what, e = .systemError corruptCode what
    · obtain ⟨what,rfl⟩ := he
      obtain ⟨r,c',w',as,hr⟩ := Recreation.total b s.path s.size s.policy (b.destroy h w)
      cases r with
      | error e => exact ⟨_,_,_,.lost hc hm hr⟩
      | ok u =>
        obtain ⟨h',rfl⟩ := hr.held
        exact ⟨_,_,_,.retried hc hm hr rfl⟩
    · exact ⟨_,_,_,.escaped hc hm (not_exists.mp he)⟩
  · exact ⟨_,_,_,.returned hc hm⟩

section Call

variable {func : CacheHelper World Handle → Ending α × CacheHelper World Handle}
  {u : CacheHelper World Handle} {e : Exn}

theorem call_of_returned {value : α} (h : func s = (.returned value,t)) :
    s.call b func = (.returned value,t) := by
  simp only [CacheHelper.call,h]

theorem call_of_crashed (h : func s = (.crashed,t)) : s.call b func = (.crashed,t) := by
  simp only [CacheHelper.call,h]

theorem call_of_recovered (h : func s = (.threw e,t)) (hr : t.recover b e = (.returned (),u)) :
    s.call b func = func u := by
  simp only [CacheHelper.call,h,hr]

theorem call_of_lost {e' : Exn} (h : func s = (.threw e,t))
    (hr : t.recover b e = (.threw e',u)) : s.call b func = (.threw e',u) := by
  simp only [CacheHelper.call,h,hr]

theorem call_of_stopped (h : func s = (.threw e,t)) (hr : t.recover b e = (.crashed,u)) :
    s.call b func = (.crashed,u) := by
  simp only [CacheHelper.call,h,hr]

end Call

theorem Retried.call (hr : Retried b s c method r t as) :
    (s.withLog log).call (noting b) (·.deref fun h => note (.method c) (method h)) =
      outcome log (r,t) as := by
  have hderef : ∀ {v : CacheHelper World Handle} {h : Handle} {q : Except Exn α} {w : World}
      {l : List Access}, v.c = some h → method h v.world = (q,w) →
      (v.withLog l).deref (fun h => note (.method c) (method h)) =
        outcome l (.ofExcept q,{ v with world := w }) [.method c] := by
    intro v h q w l hc hm
    simp only [deref,withLog,hc,note,hm,outcome]
  cases hr with
  | empty hc =>
    have hcrash : (s.withLog log).deref (fun h => note (.method c) (method h)) =
        (.crashed,s.withLog log) := by
      simp only [deref,withLog,hc]
    rw [call_of_crashed hcrash,outcome,List.append_nil]
  | returned hc hm => exact call_of_returned (hderef hc hm)
  | escaped hc hm he => exact call_of_lost (hderef hc hm) (recover_other he)
  | lost hc hm hre =>
    rw [call_of_lost (hderef hc hm) (hre.recover _ hc)]
    simp [outcome]
  | retried hc hm hre hagain =>
    rw [call_of_recovered (hderef hc hm) (hre.recover _ hc),hderef rfl hagain]
    simp [outcome]

/-- The call ends this way, and with these accesses, exactly if it is one of the ways. -/
theorem retried_iff : Retried b s c method r t as ↔
    (s.withLog log).call (noting b) (·.deref fun h => note (.method c) (method h)) =
      outcome log (r,t) as := by
  refine ⟨Retried.call,fun h => ?_⟩
  obtain ⟨r',t',as',hr⟩ := Retried.total b s c method
  obtain ⟨hending,hafter⟩ := Prod.mk.inj (hr.call.symm.trans h)
  obtain ⟨hpath,hsize,hpolicy,hc,hworld⟩ := CacheHelper.mk.inj hafter
  obtain ⟨hworld,hlog⟩ := Prod.mk.inj hworld
  obtain rfl : r' = r := hending
  obtain rfl : as' = as := List.append_cancel_left hlog
  obtain rfl : t' = t := by
    cases t'
    cases t
    simp_all
  exact hr

end Retry

/-! ### Noting changes nothing -/

def dropLog (s : CacheHelper (World × List Access) Handle) : CacheHelper World Handle :=
  ⟨s.path,s.size,s.policy,s.c,s.world.1⟩

section Drop

variable {b : CacheT World Handle Stats} {s : CacheHelper (World × List Access) Handle}

theorem deref_dropLog (a : Access) (method : Handle → World → Except Exn α × World) :
    Prod.map id dropLog (s.deref fun h => note a (method h)) = s.dropLog.deref method := by
  rcases s with ⟨path,size,policy,_ | h,w⟩ <;> rfl

theorem reset_dropLog : (s.reset (noting b)).dropLog = s.dropLog.reset b := by
  rcases s with ⟨path,size,policy,_ | h,w⟩ <;> rfl

theorem initCache_dropLog :
    Prod.map id dropLog (s.initCache (noting b)) = s.dropLog.initCache b := by
  rcases s with ⟨path,size,policy,c,w,log⟩
  rcases hsized : b.openSized path size policy w with ⟨e | h,w₁⟩
  · cases e with
    | systemError code what | other what => simp [initCache,dropLog,noting,note,hsized]
    | logicError what =>
      rcases hexisting : b.openExisting path w₁ with ⟨e | h,w₂⟩
      · simp [initCache,dropLog,noting,note,hsized,hexisting]
      · cases c <;> simp [initCache,dropLog,noting,note,hsized,hexisting,assign,reset,deref]
  · cases c <;> simp [initCache,dropLog,noting,note,hsized,assign,reset]

theorem recover_dropLog (e : Exn) :
    Prod.map id dropLog (s.recover (noting b) e) = s.dropLog.recover b e := by
  by_cases he : ∃ what, e = .systemError corruptCode what
  · obtain ⟨what,rfl⟩ := he
    have hcode : ¬ corruptCode ≠ corruptCode := not_not.mpr rfl
    unfold recover
    simp only [if_neg hcode,← reset_dropLog]
    generalize s.reset (noting b) = t
    rcases hremove : b.removeAll t.path t.world.1 with ⟨e | u,w⟩
    · simp [dropLog,noting,note,hremove]
    · have hnoted : (noting b).removeAll t.path t.world = (.ok (),(w,t.world.2 ++ [.removeAll t.path])) := by
        simp only [noting,note,hremove]
      have hplain : b.removeAll t.dropLog.path t.dropLog.world = (.ok (),w) := hremove
      simp only [hnoted,hplain]
      exact initCache_dropLog
  · rw [recover_other (not_exists.mp he),recover_other (not_exists.mp he)]
    rfl

theorem call_dropLog (a : Access) (method : Handle → World → Except Exn α × World) :
    Prod.map id dropLog (s.call (noting b) (·.deref fun h => note a (method h))) =
      s.dropLog.call b (·.deref method) := by
  have hfirst := @deref_dropLog _ _ _ s a method
  rcases hderef : s.deref (fun h => note a (method h)) with ⟨r,t⟩
  rw [hderef] at hfirst
  cases r with
  | returned value =>
    rw [call_of_returned hderef,call_of_returned hfirst.symm]
    rfl
  | crashed =>
    rw [call_of_crashed hderef,call_of_crashed hfirst.symm]
    rfl
  | threw e =>
    have hrecover := @recover_dropLog _ _ _ b t e
    rcases hrec : t.recover (noting b) e with ⟨q,u⟩
    rw [hrec] at hrecover
    cases q with
    | returned =>
      rw [call_of_recovered hderef hrec,call_of_recovered hfirst.symm hrecover.symm]
      exact deref_dropLog a method
    | threw e' =>
      rw [call_of_lost hderef hrec,call_of_lost hfirst.symm hrecover.symm]
      rfl
    | crashed =>
      rw [call_of_stopped hderef hrec,call_of_stopped hfirst.symm hrecover.symm]
      rfl

theorem forget_dropLog (r : Ending α × CacheHelper (World × List Access) Handle) :
    Prod.map id dropLog (forget r) = forget (Prod.map id dropLog r) := by
  rcases r with ⟨_ | _ | _,s⟩ <;> rfl

/-- Every method does in the world with the list what it does in the world without. -/
theorem exec_dropLog (c : Call) :
    Prod.map id dropLog (s.exec (noting b) c) = s.dropLog.exec b c := by
  cases c with
  | get | put | invalidate | compact =>
    exact (forget_dropLog _).trans (congrArg forget (call_dropLog _ _))
  | containsKey | stats | clearStats =>
    exact (forget_dropLog _).trans (congrArg forget (deref_dropLog _ _))

end Drop

theorem Retried.call_eq {b : CacheT World Handle Stats} {s t : CacheHelper World Handle} {c : Call}
    {method : Handle → World → Except Exn α × World} {r : Ending α} {as : List Access}
    (hr : Retried b s c method r t as) : s.call b (·.deref method) = (r,t) :=
  (@call_dropLog _ _ _ _ b (s.withLog []) (.method c) method).symm.trans
    (congrArg (Prod.map id dropLog) hr.call)

/-- The retry semantics of all methods that go through `call()`: with every cache, in every
state, and for every argument, the ways that a call can take are those listed, with their
accesses to the cache, and no others. -/
theorem retrySemantics (b : CacheT World Handle Stats) (s : CacheHelper World Handle)
    (log : List Access) :
    (∀ key r t as, Retried b s (.get key) (b.get key) r t as ↔
      (s.withLog log).get (noting b) key = outcome log (r,t) as) ∧
    (∀ key value expiryTime r t as,
      Retried b s (.put key value expiryTime) (b.put key value expiryTime) r t as ↔
        (s.withLog log).put (noting b) key value expiryTime = outcome log (r,t) as) ∧
    (∀ r t as, Retried b s .invalidate b.invalidate r t as ↔
      (s.withLog log).invalidate (noting b) = outcome log (r,t) as) ∧
    ∀ r t as, Retried b s .compact b.compact r t as ↔
      (s.withLog log).compact (noting b) = outcome log (r,t) as :=
  ⟨fun _ _ _ _ => retried_iff,fun _ _ _ _ _ _ => retried_iff,fun _ _ _ => retried_iff,
    fun _ _ _ => retried_iff⟩

end CacheHelper
end UnityThumbnailer
