import Mathlib.Data.List.Basic

/-! Scans of a list that stop at the first choice and remember the first that would do. -/
namespace FirstChoice

variable {α : Type*} (best good : α → Bool)

/-- Whether the scan stopped, and what it has then. -/
def scan : List α → Option α → Bool × Option α
  | [], kept => (false,kept)
  | a::as, kept =>
    if best a then (true,some a)
    else scan as (kept.or (if good a then some a else none))

/-- The first choice of a list, otherwise the first that would do. -/
def choose (as : List α) : Option α := (as.find? best).or (as.find? good)

variable {best good}

theorem scan_cons_best {a : α} (h : best a = true) (as : List α) (kept : Option α) :
    scan best good (a::as) kept = (true,some a) := if_pos h

theorem scan_cons_good {a : α} (hb : best a = false) (hg : good a = true) (as : List α) :
    scan best good (a::as) none = scan best good as (some a) := by
  simp [scan,hb,hg]

/-- What is kept stays, and what would not do is passed over. -/
theorem scan_cons_skip {a : α} {kept : Option α} (hb : best a = false)
    (h : kept.isSome ∨ good a = false) (as : List α) :
    scan best good (a::as) kept = scan best good as kept := by
  rcases h with hkept | hg
  · obtain ⟨b,rfl⟩ := Option.isSome_iff_exists.mp hkept
    simp [scan,hb]
  · simp [scan,hb,hg]

theorem scan_stopped (as : List α) (kept : Option α) :
    (scan best good as kept).1 = (as.find? best).isSome := by
  induction as generalizing kept with
  | nil => rfl
  | cons a as ih =>
    cases hb : best a with
    | true => rw [scan_cons_best hb,List.find?_cons_of_pos hb]; rfl
    | false => rw [scan,if_neg (by simp [hb]),ih,List.find?_cons_of_neg (by simp [hb])]

theorem scan_kept (as : List α) (kept : Option α) :
    (scan best good as kept).2 = (as.find? best).or (kept.or (as.find? good)) := by
  induction as generalizing kept with
  | nil => simp [scan]
  | cons a as ih =>
    cases hb : best a with
    | true => rw [scan_cons_best hb,List.find?_cons_of_pos hb]; rfl
    | false =>
      rw [scan,if_neg (by simp [hb]),ih,List.find?_cons_of_neg (by simp [hb]),Option.or_assoc]
      cases hg : good a with
      | true => rw [List.find?_cons_of_pos hg]; rfl
      | false => rw [List.find?_cons_of_neg (by simp [hg])]; rfl

/-- A scan that starts with nothing makes the choice. -/
theorem scan_choose (as : List α) : (scan best good as none).2 = choose best good as := by
  rw [scan_kept]
  rfl

theorem choose_of_best {as : List α} {a : α} (h : as.find? best = some a) :
    choose best good as = some a := by
  rw [choose,h]
  rfl

theorem choose_of_good {as : List α} (h : as.find? best = none) :
    choose best good as = as.find? good := by
  rw [choose,h]
  rfl

end FirstChoice
