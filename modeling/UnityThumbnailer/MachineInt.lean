import Mathlib.Algebra.Order.Ring.Int
import Mathlib.Tactic.Ring

/-! Signed integers of a fixed width. An operation whose result does not fit has none; a
conversion to fewer bits keeps the low ones. -/
namespace MachineInt

/-- The integers of `w` bits. -/
def Fits (w : ℕ) (n : ℤ) : Prop := -2^(w-1) ≤ n ∧ n < 2^(w-1)

instance (w : ℕ) (n : ℤ) : Decidable (Fits w n) :=
  inferInstanceAs (Decidable (-2^(w-1) ≤ n ∧ n < 2^(w-1)))

/-- The result of an operation on `w` bits. -/
def checked (w : ℕ) (n : ℤ) : Option ℤ := if Fits w n then some n else none

/-- The conversion to `w` bits. -/
def narrow (w : ℕ) (n : ℤ) : ℤ := n.bmod (2^w)

section

variable {w : ℕ} {n k : ℤ}

theorem checked_of_fits (h : Fits w n) : checked w n = some n := if_pos h

theorem checked_eq_some_iff : checked w n = some k ↔ Fits w n ∧ n = k := by
  unfold checked
  split_ifs with h <;> simp [h]

/-- Smaller in absolute value than a number that fits. -/
theorem Fits.of_le (h : Fits w k) (hn : 0 ≤ n) (hle : n ≤ k) : Fits w n :=
  ⟨by have := pow_pos (show (0 : ℤ) < 2 by decide) (w-1); omega,lt_of_le_of_lt hle h.2⟩

/-- A conversion keeps the numbers that fit, and no others. -/
theorem narrow_eq_self_iff (hw : 0 < w) : narrow w n = n ↔ Fits w n := by
  obtain ⟨v,rfl⟩ : ∃ v, w = v+1 := ⟨w-1,by omega⟩
  have hsplit : ((2^(v+1) : ℕ) : ℤ) = 2*2^v := by push_cast; ring
  have hpos : 0 < 2^(v+1) := pow_pos (by decide) _
  have hle := @Int.le_bmod n _ hpos
  have hlt := @Int.bmod_lt n _ hpos
  simp only [Fits,narrow,Nat.add_sub_cancel]
  rw [hsplit] at hle hlt
  constructor
  · intro h
    rw [h] at hle hlt
    omega
  · rintro ⟨hlow,hhigh⟩
    exact Int.bmod_eq_of_le (by rw [hsplit]; omega) (by rw [hsplit]; omega)

/-- Two factors one after the other: the product in between is the smaller one. -/
theorem checked_mul_mul (hn : 0 ≤ n) (hk : 0 < k) {l : ℤ} (hl : 0 < l) :
    (checked w (n*k)).bind (fun m => checked w (m*l)) = checked w (n*k*l) := by
  have hfirst : 0 ≤ n*k := Int.mul_nonneg hn (le_of_lt hk)
  have hlast : n*k ≤ n*k*l := le_mul_of_one_le_right hfirst hl
  by_cases h : Fits w (n*k*l)
  · rw [checked_of_fits (h.of_le hfirst hlast),Option.bind_some]
  · by_cases hmid : Fits w (n*k)
    · rw [checked_of_fits hmid,Option.bind_some]
    · simp only [checked,hmid,h,if_false,Option.bind_none]

end

end MachineInt
