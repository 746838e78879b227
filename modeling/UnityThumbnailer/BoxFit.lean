import Mathlib.Algebra.Order.Field.Basic
import Mathlib.Data.Int.Cast.Lemmas
import Mathlib.Tactic.Linarith

/-! Fitting a rectangle into a box at its own aspect ratio, with truncated lengths.
The candidate that fills the height is taken when its width fits, and the one that
fills the width otherwise. -/
namespace BoxFit

/-- The length proportional to `W` at the ratio `h : w`, rounded down. -/
def proportional (W h w : ℤ) : ℤ := W*h/w

def fit (w h W H : ℤ) : ℤ × ℤ :=
  if proportional H w h ≤ W then (proportional H w h,H) else (W,proportional W h w)

theorem proportional_nonneg {W h w : ℤ} (hW : 0 ≤ W) (hh : 0 ≤ h) (hw : 0 < w) :
    0 ≤ proportional W h w :=
  Int.ediv_nonneg (mul_nonneg hW hh) hw.le

theorem proportional_pos_iff {W h w : ℤ} (hw : 0 < w) : 0 < proportional W h w ↔ w ≤ W*h := by
  have h1 : 0 < proportional W h w ↔ 1 ≤ W*h/w := Iff.rfl
  rw [h1,Int.le_ediv_iff_mul_le hw,one_mul]

theorem proportional_le_iff {W h w b : ℤ} (hw : 0 < w) :
    proportional W h w ≤ b ↔ W*h < (b+1)*w := by
  rw [← Int.lt_add_one_iff]
  exact Int.ediv_lt_iff_lt_mul hw

theorem fit_of_le {w h W H : ℤ} (hfit : proportional H w h ≤ W) :
    fit w h W H = (proportional H w h,H) := if_pos hfit

theorem fit_of_lt {w h W H : ℤ} (hfit : W < proportional H w h) :
    fit w h W H = (W,proportional W h w) := if_neg (not_le.mpr hfit)

/-- When filling the height is too wide, filling the width is not too high. -/
theorem proportional_le_of_lt {w h W H : ℤ} (hw : 0 < w) (hh : 0 < h)
    (hfit : W < proportional H w h) : proportional W h w ≤ H := by
  have hlt : (W+1)*h ≤ H*w := by
    by_contra hcon
    exact absurd ((proportional_le_iff hh).mpr (not_le.mp hcon)) (not_le.mpr hfit)
  rw [proportional_le_iff hw]
  nlinarith

theorem proportional_le_of_le {W h w : ℤ} (hw : 0 < w) (hh : 0 < h) (hW : W ≤ w) :
    proportional W h w ≤ h := by
  rw [proportional_le_iff hw]
  nlinarith

/-- Filling the height reduces it, unless the rectangle fits the box. -/
theorem height_lt_of_fill {w h W H : ℤ} (hh : 0 < h) (hw : 0 < w) (hbox : ¬ (w ≤ W ∧ h ≤ H))
    (hfit : proportional H w h ≤ W) : H < h := by
  by_contra hcon
  have hwide : w ≤ proportional H w h := by
    apply (Int.le_ediv_iff_mul_le hh).mpr
    nlinarith
  exact hbox ⟨hwide.trans hfit,not_lt.mp hcon⟩

/-- Filling the width reduces it, unless the rectangle fits the box. -/
theorem width_lt_of_fill {w h W H : ℤ} (hh : 0 < h) (hw : 0 < w) (hbox : ¬ (w ≤ W ∧ h ≤ H))
    (hfit : W < proportional H w h) : W < w := by
  by_contra hcon
  have hhigh : H < h := by
    by_contra hH
    exact hbox ⟨not_lt.mp hcon,not_lt.mp hH⟩
  have hle : proportional H w h ≤ w := proportional_le_of_le hh hw hhigh.le
  exact hcon (hfit.trans_le hle)

/-- The fitted rectangle lies in the box. -/
theorem fit_le {w h W H : ℤ} (hw : 0 < w) (hh : 0 < h) :
    (fit w h W H).1 ≤ W ∧ (fit w h W H).2 ≤ H := by
  by_cases hfit : proportional H w h ≤ W
  · rw [fit_of_le hfit]
    exact ⟨hfit,le_rfl⟩
  · rw [fit_of_lt (not_le.mp hfit)]
    exact ⟨le_rfl,proportional_le_of_lt hw hh (not_le.mp hfit)⟩

theorem fit_nonneg {w h W H : ℤ} (hw : 0 < w) (hh : 0 < h) (hW : 0 ≤ W) (hH : 0 ≤ H) :
    0 ≤ (fit w h W H).1 ∧ 0 ≤ (fit w h W H).2 := by
  unfold fit
  split_ifs
  · exact ⟨proportional_nonneg hH hw.le hh,hH⟩
  · exact ⟨hW,proportional_nonneg hW hh.le hw⟩

/-- Neither side is rounded down to nothing. -/
def Legible (w h W H : ℤ) : Prop := h ≤ H*w ∧ (H*w < (W+1)*h ∨ w ≤ W*h)

instance (w h W H : ℤ) : Decidable (Legible w h W H) := inferInstanceAs (Decidable (_ ∧ _))

theorem fit_pos_iff {w h W H : ℤ} (hw : 0 < w) (hh : 0 < h) (hW : 0 < W) (hH : 0 < H) :
    0 < (fit w h W H).1 ∧ 0 < (fit w h W H).2 ↔ Legible w h W H := by
  have hfill := proportional_le_iff (W:=H) (h:=w) (b:=W) hh
  by_cases hfit : proportional H w h ≤ W
  · rw [fit_of_le hfit]
    simp only [proportional_pos_iff hh,hH,and_true,Legible,hfill.mp hfit,true_or]
  · have hwide : (W+1)*h ≤ H*w := not_lt.mp (mt hfill.mpr hfit)
    have hhigh : h ≤ H*w := by nlinarith
    rw [fit_of_lt (not_le.mp hfit)]
    simp only [proportional_pos_iff hw,hW,true_and,Legible,hhigh,not_lt.mpr hwide,false_or]

/-! ### The exact lengths -/

section Exact

variable {K : Type*} [Field K] [LinearOrder K] [IsStrictOrderedRing K] {w h W H : ℤ}

/-- The scale at which the rectangle just fits the box. -/
def ratio (K : Type*) [Field K] [LinearOrder K] (w h W H : ℤ) : K := min ((W : K)/w) ((H : K)/h)

/-- Filling the height or filling the width is right to less than a unit: it is not when
the truncated width only just fits the box. -/
def Close (w h W H : ℤ) : Prop := (W+1)*h ≤ H*w ∨ H*w < W*h+w

instance (w h W H : ℤ) : Decidable (Close w h W H) := inferInstanceAs (Decidable (_ ∨ _))

/-- Truncation loses less than a unit. -/
theorem abs_proportional_sub_lt (hw : 0 < w) :
    |(proportional W h w : K)-(W : K)*h/w| < 1 := by
  have hwK : (0 : K) < w := Int.cast_pos.mpr hw
  have hle : (proportional W h w : K) ≤ (W : K)*h/w := by
    rw [le_div_iff₀ hwK]
    exact_mod_cast Int.ediv_mul_le (W*h) hw.ne'
  have hlt : (W : K)*h/w < proportional W h w+1 := by
    rw [div_lt_iff₀ hwK]
    exact_mod_cast Int.lt_ediv_add_one_mul_self (W*h) hw
  rw [abs_lt]
  constructor <;> linarith

theorem ratio_of_le (hw : 0 < w) (hh : 0 < h) (hle : H*w ≤ W*h) :
    ratio K w h W H = (H : K)/h := by
  have hwK : (0 : K) < w := Int.cast_pos.mpr hw
  have hhK : (0 : K) < h := Int.cast_pos.mpr hh
  refine min_eq_right ?_
  rw [div_le_div_iff₀ hhK hwK]
  exact_mod_cast hle

theorem ratio_of_ge (hw : 0 < w) (hh : 0 < h) (hle : W*h ≤ H*w) :
    ratio K w h W H = (W : K)/w := by
  have hwK : (0 : K) < w := Int.cast_pos.mpr hw
  have hhK : (0 : K) < h := Int.cast_pos.mpr hh
  refine min_eq_left ?_
  rw [div_le_div_iff₀ hwK hhK]
  exact_mod_cast hle

/-- A box that is too wide is filled in height, and the width is the truncated one. -/
theorem fit_close_of_le (hw : 0 < w) (hh : 0 < h) (hle : H*w ≤ W*h) :
    |((fit w h W H).1 : K)-ratio K w h W H*w| < 1 ∧
      |((fit w h W H).2 : K)-ratio K w h W H*h| < 1 := by
  have hhK : (h : K) ≠ 0 := Int.cast_ne_zero.mpr hh.ne'
  have hfill : proportional H w h ≤ W := by
    rw [proportional_le_iff hh]
    linarith
  rw [fit_of_le hfill,ratio_of_le hw hh hle]
  refine ⟨?_,?_⟩
  · rw [div_mul_eq_mul_div]
    exact abs_proportional_sub_lt hh
  · rw [div_mul_cancel₀ _ hhK,sub_self,abs_zero]
    exact one_pos

/-- A box that is too high by a unit is filled in width. -/
theorem fit_close_of_ge (hw : 0 < w) (hh : 0 < h) (hge : (W+1)*h ≤ H*w) :
    |((fit w h W H).1 : K)-ratio K w h W H*w| < 1 ∧
      |((fit w h W H).2 : K)-ratio K w h W H*h| < 1 := by
  have hwK : (w : K) ≠ 0 := Int.cast_ne_zero.mpr hw.ne'
  have hfill : W < proportional H w h := by
    rw [← not_le,proportional_le_iff hh]
    exact not_lt.mpr hge
  rw [fit_of_lt hfill,ratio_of_ge hw hh (by linarith)]
  refine ⟨?_,?_⟩
  · rw [div_mul_cancel₀ _ hwK,sub_self,abs_zero]
    exact one_pos
  · rw [div_mul_eq_mul_div]
    exact abs_proportional_sub_lt hw

/-- In between the box itself is the result, though its height is not proportional. -/
theorem fit_between (hh : 0 < h) (hlt : W*h ≤ H*w) (hge : H*w < (W+1)*h) :
    fit w h W H = (W,H) := by
  have hfill : proportional H w h = W :=
    le_antisymm ((proportional_le_iff hh).mpr hge) ((Int.le_ediv_iff_mul_le hh).mpr hlt)
  rw [fit_of_le hfill.le,hfill]

theorem fit_of_not_close (hw : 0 < w) (hh : 0 < h) (hgap : ¬ Close w h W H) :
    fit w h W H = (W,H) := by
  obtain ⟨hge,hle⟩ := not_or.mp hgap
  exact fit_between hh (by linarith) (not_le.mp hge)

theorem between_close_iff (hw : 0 < w) (hh : 0 < h) (hlt : W*h ≤ H*w) :
    |(W : K)-ratio K w h W H*w| < 1 ∧ |(H : K)-ratio K w h W H*h| < 1 ↔ H*w < W*h+w := by
  have hwK : (0 : K) < w := Int.cast_pos.mpr hw
  have hle : (W : K)*h/w ≤ H := by
    rw [div_le_iff₀ hwK]
    exact_mod_cast hlt
  have hone : (H : K)-(W : K)*h/w < 1 ↔ H*w < W*h+w := by
    rw [sub_lt_comm,lt_div_iff₀ hwK,sub_mul,one_mul,sub_lt_iff_lt_add]
    exact_mod_cast Iff.rfl
  rw [ratio_of_ge hw hh hlt,div_mul_cancel₀ _ hwK.ne',sub_self,abs_zero,div_mul_eq_mul_div,
    abs_of_nonneg (sub_nonneg.mpr hle),hone]
  exact and_iff_right one_pos

/-- Both sides of the fitted rectangle are within a unit of the exact ones exactly when
the box is not in the gap. -/
theorem fit_close_iff (hw : 0 < w) (hh : 0 < h) :
    |((fit w h W H).1 : K)-ratio K w h W H*w| < 1 ∧
      |((fit w h W H).2 : K)-ratio K w h W H*h| < 1 ↔ Close w h W H := by
  rcases le_or_gt (H*w) (W*h) with hle | hlt
  · exact iff_of_true (fit_close_of_le hw hh hle) (Or.inr (by linarith))
  · rcases le_or_gt ((W+1)*h) (H*w) with hge | hgap
    · exact iff_of_true (fit_close_of_ge hw hh hge) (Or.inl hge)
    · rw [fit_between hh hlt.le hgap,between_close_iff hw hh hlt.le,Close,
        or_iff_right (not_le.mpr hgap)]

end Exact

/-! ### Rectangles of one shape, and the rectangle on its side -/

section Shape

variable {w h W H : ℤ}

theorem proportional_self (hw : 0 < w) : proportional w h w = h :=
  Int.mul_ediv_cancel_left h hw.ne'

/-- Rectangles of the same ratio have the same proportional lengths. -/
theorem proportional_congr {w' h' : ℤ} (hh : 0 < h) (hh' : 0 < h') (hratio : w'*h = w*h')
    (X : ℤ) : proportional X w h = proportional X w' h' := by
  have hcross : X*w*h' = X*w'*h := by
    rw [mul_assoc,mul_assoc,hratio]
  unfold proportional
  rw [← Int.mul_ediv_mul_of_pos_left (X*w) h hh',hcross,mul_comm h h',
    Int.mul_ediv_mul_of_pos_left (X*w') h' hh]

theorem fit_congr {w' h' : ℤ} (hw : 0 < w) (hh : 0 < h) (hw' : 0 < w') (hh' : 0 < h')
    (hratio : w'*h = w*h') : fit w h W H = fit w' h' W H := by
  have hturned : h'*w = h*w' := by
    rw [mul_comm h' w,mul_comm h w',hratio]
  unfold fit
  rw [proportional_congr hh hh' hratio,proportional_congr hw hw' hturned]

/-- A narrower box of the same height is filled in width. -/
theorem fit_narrower (hw : 0 < w) (hh : 0 < h) (hW : W ≤ w) :
    fit w h W h = (W,proportional W h w) := by
  have hself : proportional h w h = w := proportional_self hh
  rcases hW.lt_or_eq with hlt | rfl
  · exact fit_of_lt (hlt.trans_eq hself.symm)
  · rw [fit_of_le hself.le,hself,proportional_self hw]

/-- A lower box that is as wide is filled in height. -/
theorem fit_lower (hw : 0 < w) (hh : 0 < h) (hW : w ≤ W) (hH : H ≤ h) :
    fit w h W H = (proportional H w h,H) :=
  fit_of_le ((proportional_le_of_le hh hw hH).trans hW)

/-- A box of the same width that is higher by less than the truncation of the width hides. -/
def Overfills (w h W H : ℤ) : Prop := W = w ∧ h < H ∧ H*w < (w+1)*h

instance (w h W H : ℤ) : Decidable (Overfills w h W H) := inferInstanceAs (Decidable (_ ∧ _ ∧ _))

/-- A rectangle that is not smaller than the box on one side is not enlarged, but for the
boxes that it overfills. -/
theorem fit_le_self_iff (hw : 0 < w) (hh : 0 < h) (hside : W ≤ w ∨ H ≤ h) :
    (fit w h W H).1 ≤ w ∧ (fit w h W H).2 ≤ h ↔ ¬ Overfills w h W H := by
  by_cases hfit : proportional H w h ≤ W
  · rw [fit_of_le hfit]
    have hroom : H*w < (W+1)*h := (proportional_le_iff hh).mp hfit
    constructor
    · rintro ⟨-,hle⟩ ⟨-,hlt,-⟩
      exact absurd hle (not_le.mpr hlt)
    · intro hno
      have hH : H ≤ h := by
        rcases hside with hW | hH
        · by_contra hlt
          rcases hW.lt_or_eq with hnarrow | rfl
          · nlinarith
          · exact hno ⟨rfl,not_le.mp hlt,hroom⟩
        · exact hH
      exact ⟨proportional_le_of_le hh hw hH,hH⟩
  · have hlt : W < proportional H w h := not_le.mp hfit
    rw [fit_of_lt hlt]
    have hwide : (W+1)*h ≤ H*w := not_lt.mp (mt (proportional_le_iff hh).mpr hfit)
    have hW : W ≤ w := by
      rcases hside with hW | hH
      · exact hW
      · exact hlt.le.trans (proportional_le_of_le hh hw hH)
    refine iff_of_true ⟨hW,proportional_le_of_le hw hh hW⟩ ?_
    rintro ⟨rfl,-,hroom⟩
    exact absurd hwide (not_le.mpr hroom)

/-- Which side is filled does not depend on the one that is tried first: the box has the ratio
of the rectangle, or is a unit off it on one side. -/
def Turns (w h W H : ℤ) : Prop := W*h = H*w ∨ (W+1)*h ≤ H*w ∨ (H+1)*w ≤ W*h

instance (w h W H : ℤ) : Decidable (Turns w h W H) := inferInstanceAs (Decidable (_ ∨ _ ∨ _))

theorem fit_of_exact (hh : 0 < h) (heq : W*h = H*w) : fit w h W H = (W,H) :=
  fit_between hh heq.le (by linarith)

/-- Between those boxes each way to try fills another side. -/
theorem fit_of_not_turns (hw : 0 < w) (hh : 0 < h) (hno : ¬ Turns w h W H) :
    fit w h W H = (proportional H w h,H) ∧ fit h w H W = (proportional W h w,W) ∧
      (proportional H w h < W ∨ proportional W h w < H) := by
  obtain ⟨hne,hno⟩ := not_or.mp hno
  obtain ⟨hwide,hhigh⟩ := not_or.mp hno
  have hfirst : proportional H w h ≤ W := (proportional_le_iff hh).mpr (not_le.mp hwide)
  have hsecond : proportional W h w ≤ H := (proportional_le_iff hw).mpr (not_le.mp hhigh)
  refine ⟨fit_of_le hfirst,fit_of_le hsecond,?_⟩
  rcases lt_or_gt_of_ne hne with hlt | hgt
  · exact Or.inr (Int.ediv_lt_of_lt_mul hw hlt)
  · exact Or.inl (Int.ediv_lt_of_lt_mul hh hgt)

/-- One of the two proportional lengths of a box is not rounded down to nothing. -/
theorem proportional_pos_or (hw : 0 < w) (hh : 0 < h) (hW : 0 < W) (hH : 0 < H) :
    0 < proportional H w h ∨ 0 < proportional W h w := by
  rw [proportional_pos_iff hh,proportional_pos_iff hw]
  rcases le_total h w with hle | hle
  · exact Or.inl (by nlinarith)
  · exact Or.inr (by nlinarith)

theorem fit_turned_iff (hw : 0 < w) (hh : 0 < h) :
    fit h w H W = ((fit w h W H).2,(fit w h W H).1) ↔ Turns w h W H := by
  refine ⟨fun hturn => ?_,?_⟩
  · by_contra hno
    obtain ⟨hfirst,hsecond,hlt⟩ := fit_of_not_turns hw hh hno
    rw [hfirst,hsecond,Prod.mk.injEq] at hturn
    exact hlt.elim (fun h => h.ne hturn.2.symm) (fun h => h.ne hturn.1)
  · rintro (heq | hwide | hhigh)
    · rw [fit_of_exact hh heq,fit_of_exact hw heq.symm]
    · have hlt : W < proportional H w h := by
        rw [← not_le,proportional_le_iff hh]
        exact not_lt.mpr hwide
      rw [fit_of_lt hlt,fit_of_le (proportional_le_of_lt hw hh hlt)]
    · have hlt : H < proportional W h w := by
        rw [← not_le,proportional_le_iff hw]
        exact not_lt.mpr hhigh
      rw [fit_of_lt hlt,fit_of_le (proportional_le_of_lt hh hw hlt)]

end Shape

end BoxFit
