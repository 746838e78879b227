import Mathlib.Data.Option.Basic
import Mathlib.Data.List.Basic
import Mathlib.Data.List.Induction

/-! Systems driven by events, and their histories.
A machine is a partial transition function; a run replays a list of events from
one state. Invariants are proved once per step and lifted to runs here, also when
they survive only the steps that meet a guard. -/
namespace EventSystem

/-- `step s e = none` says that `e` cannot happen in `s`. -/
structure Machine (State Event : Type*) where
  step : State → Event → Option State

namespace Machine

variable {State Event : Type*} (m : Machine State Event)

/-- Replay the events in order; an event that cannot happen ends the replay with `none`. -/
def run : State → List Event → Option State
  | s, [] => some s
  | s, e::es => (m.step s e).bind fun t => run t es

/-- Every event of the replay meets the guard in the state it arrives in. -/
def AllSteps (G : State → Event → Prop) : State → List Event → Prop
  | _, [] => True
  | s, e::es => G s e ∧ ∀ t ∈ m.step s e, AllSteps G t es

/-- Every state of the replay has the property, the first and the last included. -/
def Always (P : State → Prop) : State → List Event → Prop
  | s, [] => P s
  | s, e::es => P s ∧ ∀ t ∈ m.step s e, Always P t es

instance decidableAllSteps (G : State → Event → Prop) [∀ s e, Decidable (G s e)] :
    ∀ (s : State) (es : List Event), Decidable (m.AllSteps G s es)
  | _, [] => .isTrue trivial
  | s, e::es =>
    haveI : ∀ t, Decidable (m.AllSteps G t es) := fun t => decidableAllSteps G t es
    inferInstanceAs (Decidable (G s e ∧ ∀ t ∈ m.step s e, m.AllSteps G t es))

instance decidableAlways (P : State → Prop) [DecidablePred P] :
    ∀ (s : State) (es : List Event), Decidable (m.Always P s es)
  | s, [] => inferInstanceAs (Decidable (P s))
  | s, e::es =>
    haveI : ∀ t, Decidable (m.Always P t es) := fun t => decidableAlways P t es
    inferInstanceAs (Decidable (P s ∧ ∀ t ∈ m.step s e, m.Always P t es))

variable {m}

@[simp] theorem run_nil (s : State) : m.run s [] = some s := rfl

@[simp] theorem run_cons (s : State) (e : Event) (es : List Event) :
    m.run s (e::es) = (m.step s e).bind fun t => m.run t es := rfl

theorem run_append (s : State) (es fs : List Event) :
    m.run s (es ++ fs) = (m.run s es).bind fun t => m.run t fs := by
  induction es generalizing s with
  | nil => simp
  | cons e es ih =>
    cases h : m.step s e with
    | none => simp [h]
    | some t => simp [h,ih]

theorem run_cons_some {s u : State} {e : Event} {es : List Event}
    (h : m.run s (e::es) = some u) : ∃ t, m.step s e = some t ∧ m.run t es = some u := by
  simpa [Option.bind_eq_some_iff] using h

/-- An invariant that survives guarded steps survives guarded runs. -/
theorem guarded_run {G : State → Event → Prop} {Inv : State → Prop}
    (hstep : ∀ s e t, Inv s → G s e → m.step s e = some t → Inv t)
    {s t : State} {es : List Event} (hs : Inv s) (hg : m.AllSteps G s es)
    (hrun : m.run s es = some t) : Inv t := by
  induction es generalizing s with
  | nil =>
    obtain rfl : s = t := by simpa using hrun
    exact hs
  | cons e es ih =>
    obtain ⟨u,hu,hrest⟩ := run_cons_some hrun
    exact ih (hstep s e u hs hg.1 hu) (hg.2 u hu) hrest

/-- The unguarded case: an invariant of every step holds at the end of every run. -/
theorem invariant_run {Inv : State → Prop}
    (hstep : ∀ s e t, Inv s → m.step s e = some t → Inv t)
    {s t : State} {es : List Event} (hs : Inv s) (hrun : m.run s es = some t) : Inv t := by
  induction es generalizing s with
  | nil =>
    obtain rfl : s = t := by simpa using hrun
    exact hs
  | cons e es ih =>
    obtain ⟨u,hu,hrest⟩ := run_cons_some hrun
    exact ih (hstep s e u hs hu) hrest

/-- An invariant of the states together with the events that have led to them. -/
theorem history_run {Inv : List Event → State → Prop}
    (hstep : ∀ es s e t, Inv es s → m.step s e = some t → Inv (es ++ [e]) t)
    {s t : State} {es : List Event} (hs : Inv [] s) (hrun : m.run s es = some t) : Inv es t := by
  induction es using List.reverseRecOn generalizing t with
  | nil =>
    obtain rfl : s = t := by simpa using hrun
    exact hs
  | append_singleton es e ih =>
    rw [run_append,Option.bind_eq_some_iff] at hrun
    obtain ⟨u,hu,hrest⟩ := hrun
    obtain ⟨v,hv,hlast⟩ := run_cons_some hrest
    obtain rfl := Option.some.inj hlast
    exact hstep es u e v (ih hu) hv

/-- What guarded runs preserve holds in every state of such a run. -/
theorem always_of_guarded {G : State → Event → Prop} {Inv P : State → Prop}
    (hstep : ∀ s e t, Inv s → G s e → m.step s e = some t → Inv t)
    (hP : ∀ s, Inv s → P s) {s : State} {es : List Event} (hs : Inv s)
    (hg : m.AllSteps G s es) : m.Always P s es := by
  induction es generalizing s with
  | nil => exact hP s hs
  | cons e es ih => exact ⟨hP s hs,fun t ht => ih (hstep s e t hs hg.1 ht) (hg.2 t ht)⟩

/-- The unguarded case: what every step preserves holds in every state of every run. -/
theorem always_of_invariant {Inv P : State → Prop}
    (hstep : ∀ s e t, Inv s → m.step s e = some t → Inv t)
    (hP : ∀ s, Inv s → P s) {s : State} (es : List Event) (hs : Inv s) : m.Always P s es := by
  induction es generalizing s with
  | nil => exact hP s hs
  | cons e es ih => exact ⟨hP s hs,fun t ht => ih (hstep s e t hs ht)⟩

/-- When every enabled unguarded step leaves the property, the guard is exact. -/
theorem always_iff_allSteps {G : State → Event → Prop} {Inv P : State → Prop}
    (hstep : ∀ s e t, Inv s → G s e → m.step s e = some t → Inv t)
    (hP : ∀ s, Inv s → P s)
    (hbad : ∀ s e t, Inv s → ¬ G s e → m.step s e = some t → ¬ P t)
    {s u : State} {es : List Event} (hs : Inv s) (hrun : m.run s es = some u) :
    m.Always P s es ↔ m.AllSteps G s es := by
  refine ⟨fun h => ?_,always_of_guarded hstep hP hs⟩
  induction es generalizing s with
  | nil => trivial
  | cons e es ih =>
    obtain ⟨t,ht,hrest⟩ := run_cons_some hrun
    have hPt : P t := by
      have := h.2 t ht
      cases es with
      | nil => exact this
      | cons f fs => exact this.1
    have hg : G s e := by
      by_contra hng
      exact hbad s e t hs hng ht hPt
    refine ⟨hg,fun t' ht' => ?_⟩
    obtain rfl : t = t' := Option.some.inj (ht.symm.trans ht')
    exact ih (hstep s e t hs hg ht) hrest (h.2 t ht)

/-- Two conditions on steps that agree under an invariant of guarded runs. -/
theorem allSteps_iff_of_guarded {G H K : State → Event → Prop} {Inv : State → Prop}
    (hstep : ∀ s e t, Inv s → G s e → m.step s e = some t → Inv t)
    (hHK : ∀ s e, Inv s → G s e → (H s e ↔ K s e)) {s : State} {es : List Event} (hs : Inv s)
    (hg : m.AllSteps G s es) : m.AllSteps H s es ↔ m.AllSteps K s es := by
  induction es generalizing s with
  | nil => exact Iff.rfl
  | cons e es ih =>
    have hrest : ∀ t, m.step s e = some t → (m.AllSteps H t es ↔ m.AllSteps K t es) :=
      fun t ht => ih (hstep s e t hs hg.1 ht) (hg.2 t ht)
    refine and_congr (hHK s e hs hg.1) ⟨fun h t ht => ?_,fun h t ht => ?_⟩
    · exact (hrest t ht).mp (h t ht)
    · exact (hrest t ht).mpr (h t ht)

theorem AllSteps.mono {G H : State → Event → Prop} {s : State} {es : List Event}
    (hg : m.AllSteps G s es) (h : ∀ s e, G s e → H s e) : m.AllSteps H s es := by
  induction es generalizing s with
  | nil => trivial
  | cons e es ih => exact ⟨h s e hg.1,fun t ht => ih (hg.2 t ht)⟩

theorem AllSteps.and {G H : State → Event → Prop} {s : State} {es : List Event}
    (hg : m.AllSteps G s es) (hh : m.AllSteps H s es) :
    m.AllSteps (fun s e => G s e ∧ H s e) s es := by
  induction es generalizing s with
  | nil => trivial
  | cons e es ih => exact ⟨⟨hg.1,hh.1⟩,fun t ht => ih (hg.2 t ht) (hh.2 t ht)⟩

/-- A condition that every step meets, in whatever state. -/
theorem allSteps_of_forall {G : State → Event → Prop} (h : ∀ s e, G s e) (s : State)
    (es : List Event) : m.AllSteps G s es := by
  induction es generalizing s with
  | nil => trivial
  | cons e es ih => exact ⟨h s e,fun t _ => ih t⟩

/-- A condition on the events alone. -/
theorem allSteps_of_mem {G : Event → Prop} (s : State) {es : List Event} (h : ∀ e ∈ es, G e) :
    m.AllSteps (fun _ => G) s es := by
  induction es generalizing s with
  | nil => trivial
  | cons e es ih =>
    exact ⟨h e List.mem_cons_self,fun t _ => ih t fun f hf => h f (List.mem_cons_of_mem _ hf)⟩

/-- A guard implies every condition that it implies under an invariant of guarded runs. -/
theorem allSteps_of_guarded {G H : State → Event → Prop} {Inv : State → Prop}
    (hstep : ∀ s e t, Inv s → G s e → m.step s e = some t → Inv t)
    (hH : ∀ s e, Inv s → G s e → H s e) {s : State} {es : List Event} (hs : Inv s)
    (hg : m.AllSteps G s es) : m.AllSteps H s es := by
  induction es generalizing s with
  | nil => trivial
  | cons e es ih => exact ⟨hH s e hs hg.1,fun t ht => ih (hstep s e t hs hg.1 ht) (hg.2 t ht)⟩

/-- Two conditions on steps that agree under an invariant of every run. -/
theorem allSteps_iff_of_invariant {H K : State → Event → Prop} {Inv : State → Prop}
    (hstep : ∀ s e t, Inv s → m.step s e = some t → Inv t)
    (hHK : ∀ s e, Inv s → (H s e ↔ K s e)) {s : State} (es : List Event) (hs : Inv s) :
    m.AllSteps H s es ↔ m.AllSteps K s es :=
  allSteps_iff_of_guarded (fun s e t hs _ ht => hstep s e t hs ht) (fun s e hs _ => hHK s e hs) hs
    (allSteps_of_forall (fun _ _ => trivial) s es)

/-- A condition on every step of a run holds of each step that follows a prefix. -/
theorem allSteps_prefix {G : State → Event → Prop} {s t : State} {es fs : List Event} {e : Event}
    (h : m.AllSteps G s (es ++ e::fs)) (hrun : m.run s es = some t) : G t e := by
  induction es generalizing s with
  | nil =>
    obtain rfl : s = t := by simpa using hrun
    exact h.1
  | cons f es ih =>
    obtain ⟨u,hu,hrest⟩ := run_cons_some hrun
    exact ih (h.2 u hu) hrest

/-- A property of every state of a run holds at the end of each of its prefixes. -/
theorem always_prefix {P : State → Prop} {s t : State} {es : List Event} (fs : List Event)
    (h : m.Always P s (es ++ fs)) (hrun : m.run s es = some t) : P t := by
  induction es generalizing s with
  | nil =>
    obtain rfl : s = t := by simpa using hrun
    cases fs with
    | nil => exact h
    | cons f fs => exact h.1
  | cons e es ih =>
    obtain ⟨u,hu,hrest⟩ := run_cons_some hrun
    exact ih (h.2 u hu) hrest

end Machine

/-! Histories are kept newest entry first. -/

/-- Every entry is justified by the entries before it. -/
def Justified {Entry : Type*} (J : List Entry → Entry → Prop) : List Entry → Prop
  | [] => True
  | e::past => J past e ∧ Justified J past

theorem Justified.split {Entry : Type*} {J : List Entry → Entry → Prop} {future past : List Entry}
    {e : Entry} (h : Justified J (future ++ e::past)) : J past e := by
  induction future with
  | nil => exact h.1
  | cons f future ih => exact ih h.2

/-- New entries are justified one after the other, each by those before it. -/
theorem Justified.append {Entry : Type*} {J : List Entry → Entry → Prop} {past es : List Entry}
    (h : Justified J past)
    (hes : ∀ e ∈ es, ∀ new, new <:+ es → J (new ++ past) e) : Justified J (es ++ past) := by
  induction es with
  | nil => exact h
  | cons e es ih =>
    refine ⟨hes e List.mem_cons_self es (List.suffix_cons e es),ih fun f hf new hnew => ?_⟩
    exact hes f (List.mem_cons_of_mem _ hf) new (hnew.trans (List.suffix_cons e es))

end EventSystem
