import Mathlib.Data.Finset.Card
import Mathlib.Order.Interval.Finset.Nat
import Mathlib.Tactic.Common

/-! Counting the numbers below a bound that have a property. -/
namespace Tally

/-- How many numbers below `n` have the property. -/
def tally (p : ℕ → Prop) [DecidablePred p] (n : ℕ) : ℕ := ((Finset.range n).filter p).card

variable {p q : ℕ → Prop} [DecidablePred p] [DecidablePred q] {n i : ℕ}

theorem tally_congr (h : ∀ j < n, p j ↔ q j) : tally p n = tally q n := by
  unfold tally
  congr 1
  apply Finset.filter_congr
  intro j hj
  exact h j (Finset.mem_range.mp hj)

/-- One more number has the property. -/
theorem tally_gain (hi : i < n) (hp : ¬ p i) (hq : q i) (h : ∀ j, j ≠ i → (p j ↔ q j)) :
    tally q n = tally p n + 1 := by
  unfold tally
  have hset : (Finset.range n).filter q = insert i ((Finset.range n).filter p) := by
    ext j
    by_cases hj : j = i
    · subst hj
      simp [hi,hq]
    · simp [hj,h j hj]
  rw [hset,Finset.card_insert_of_notMem (by simp [hp])]

/-- One number fewer has the property. -/
theorem tally_lose (hi : i < n) (hp : p i) (hq : ¬ q i) (h : ∀ j, j ≠ i → (p j ↔ q j)) :
    tally q n + 1 = tally p n :=
  (tally_gain hi hq hp fun j hj => (h j hj).symm).symm

theorem tally_succ : tally p (n+1) = tally p n + if p n then 1 else 0 := by
  unfold tally
  rw [Finset.range_add_one,Finset.filter_insert]
  split
  · rw [Finset.card_insert_of_notMem (by simp)]
  · rfl

theorem tally_pos_iff : 0 < tally p n ↔ ∃ j < n, p j := by
  simp [tally,Finset.card_pos,Finset.filter_nonempty_iff]

@[simp] theorem tally_zero : tally p 0 = 0 := rfl

end Tally
