import Mathlib
import UnityThumbnailer.EventSystem

/-! Systems that come to rest. Some events carry the system on and use up a measure that
nothing else refills; as long as the goal is not reached one of them can happen. Then every
run has a bounded number of them, and a state in which none can happen has reached the goal. -/
namespace EventSystem
namespace Machine

variable {State Event : Type*} {m : Machine State Event}

/-- None of these events can happen. -/
def AtRest (m : Machine State Event) (Carries : Event → Prop) (s : State) : Prop :=
  ∀ e, Carries e → m.step s e = none

/-- The measure pays for every event that carries the system on; some events fill it up. -/
theorem countP_le_of_measure {Carries : Event → Prop} [DecidablePred Carries] {gain : Event → ℕ}
    {G : State → Event → Prop} {Inv : State → Prop} {μ : State → ℕ}
    (hstep : ∀ s e t, Inv s → G s e → m.step s e = some t → Inv t)
    (hpaid : ∀ s e t, Inv s → G s e → m.step s e = some t →
      μ t+(if Carries e then 1 else 0) ≤ μ s+gain e)
    {s t : State} {es : List Event} (hs : Inv s) (hg : m.AllSteps G s es)
    (hrun : m.run s es = some t) : es.countP (fun e => Carries e)+μ t ≤ μ s+(es.map gain).sum := by
  induction es generalizing s with
  | nil =>
    obtain rfl : s = t := by simpa using hrun
    simp
  | cons e es ih =>
    obtain ⟨u,hu,hrest⟩ := run_cons_some hrun
    have hpay := hpaid s e u hs hg.1 hu
    have hlater := ih (hstep s e u hs hg.1 hu) (hg.2 u hu) hrest
    rw [List.countP_cons,List.map_cons,List.sum_cons]
    simp only [decide_eq_true_eq]
    omega

/-- A condition on events alone holds of every event of a run. -/
theorem forall_of_allSteps {G : State → Event → Prop} {P : Event → Prop}
    (hG : ∀ s e, G s e → P e) {s t : State} {es : List Event} (hg : m.AllSteps G s es)
    (hrun : m.run s es = some t) : ∀ e ∈ es, P e := by
  induction es generalizing s with
  | nil => exact nofun
  | cons e es ih =>
    obtain ⟨u,hu,hrest⟩ := run_cons_some hrun
    exact List.forall_mem_cons.mpr ⟨hG s e hg.1,ih (hg.2 u hu) hrest⟩

/-- From every state the goal can be reached by events that carry the system on alone. -/
theorem exists_completion {G : State → Event → Prop} {Inv Goal : State → Prop} {μ : State → ℕ}
    (hstep : ∀ s e t, Inv s → G s e → m.step s e = some t → Inv t ∧ μ t < μ s)
    (hnext : ∀ s, Inv s → ¬ Goal s → ∃ e t, G s e ∧ m.step s e = some t)
    {s : State} (hs : Inv s) :
    ∃ es t, m.AllSteps G s es ∧ m.run s es = some t ∧ Goal t ∧ es.length ≤ μ s := by
  by_cases hgoal : Goal s
  · exact ⟨[],s,trivial,rfl,hgoal,Nat.zero_le _⟩
  · obtain ⟨e,u,hg,hu⟩ := hnext s hs hgoal
    obtain ⟨hinv,hless⟩ := hstep s e u hs hg hu
    obtain ⟨es,t,hes,hrun,ht,hlength⟩ := exists_completion hstep hnext hinv
    refine ⟨e::es,t,⟨hg,fun v hv => ?_⟩,?_,ht,?_⟩
    · obtain rfl : u = v := Option.some.inj (hu.symm.trans hv)
      exact hes
    · rw [run_cons,hu]
      exact hrun
    · rw [List.length_cons]
      omega
termination_by μ s

end Machine
end EventSystem
