import UnityThumbnailer.MachineInt
import UnityThumbnailer.NumberPrefix
import UnityThumbnailer.QSize

/-! The sizes that thumbnailer-admin accepts on the command line, and the syntax that its manual
page documents. -/
namespace UnityThumbnailer

namespace ParseSize

open NumberPrefix

/-- `std::stoi`, with none for what it throws: there is no digit, or an `int` cannot hold the
value. -/
def stoi (s : List Char) : Option ℤ := (parse s).bind (MachineInt.checked 32)

/-- Two parts are something of the form 240x480; of any other number the first one counts. -/
def parseSize (s : String) : QSize :=
  let size : Option QSize :=
    match s.toList.splitOn 'x' with
    | [first,last] => do
      let width ← stoi first
      let height ← stoi last
      return ⟨width,height⟩
    | first::_ => do
      let size ← stoi first
      return ⟨size,size⟩
    | [] => none
  size.getD .invalid

/-- What the commands make of the option. -/
def sizeOption (command value : String) : Except String QSize :=
  let size := parseSize value
  if !size.isValid then .error (command ++ "(): invalid size: " ++ value) else .ok size

/-! ### The documented syntax -/

/-- The largest value of an `int`. -/
def intMax : ℕ := 2147483647

/-- The digits of a number in the range of an `int`. -/
def IntNumeral (l : List Char) (n : ℕ) : Prop := Numeral l n ∧ n ≤ intMax

/-- A single dimension stands for both; otherwise they are given with an x between them. -/
def Documented (s : String) (size : QSize) : Prop :=
  (∃ n : ℕ, IntNumeral s.toList n ∧ size = ⟨n,n⟩) ∨
    ∃ (w h : List Char) (width height : ℕ), s.toList = w ++ 'x'::h ∧ IntNumeral w width ∧
      IntNumeral h height ∧ size = ⟨width,height⟩

/-- The parts that count. -/
def usedParts (s : String) : List (List Char) :=
  match s.toList.splitOn 'x' with
  | [first,last] => [first,last]
  | first::_ => [first]
  | [] => []

/-- Every part that counts begins with a number in the range of an `int` that is not negative,
whatever comes after it. -/
def Tolerated (s : String) : Prop :=
  ∀ part ∈ usedParts s, ∃ n : ℕ, Begins part n ∧ n ≤ intMax

/-- The string is accepted exactly when it is documented, with the documented meaning, and the
commands reject what is not accepted. -/
def AcceptsDocumented (s : String) : Prop :=
  ((parseSize s).isValid = true ↔ ∃ size, Documented s size) ∧
    (∀ size, Documented s size → parseSize s = size) ∧
      ∀ command, ((parseSize s).isValid = true → sizeOption command s = .ok (parseSize s)) ∧
        ((parseSize s).isValid = false →
          sizeOption command s = .error (command ++ "(): invalid size: " ++ s))

section Parts

variable {s : String} {l w h : List Char} {n : ℕ}

theorem fits_natCast : MachineInt.Fits 32 (n : ℤ) ↔ n ≤ intMax := by
  have hbound : (intMax : ℤ) = 2^31-1 := rfl
  constructor
  · rintro ⟨-,hhigh⟩
    have hlt : (n : ℤ) < 2^31 := hhigh
    omega
  · intro hle
    have hlow : -(2^31 : ℤ) ≤ n := by omega
    have hhigh : (n : ℤ) < 2^31 := by omega
    exact ⟨hlow,hhigh⟩

theorem stoi_natCast : stoi l = some (n : ℤ) ↔ Begins l n ∧ n ≤ intMax := by
  rw [stoi,Option.bind_eq_some_iff]
  constructor
  · rintro ⟨k,hparse,hchecked⟩
    obtain ⟨hfits,rfl⟩ := MachineInt.checked_eq_some_iff.mp hchecked
    exact ⟨parse_eq_some.mp hparse,fits_natCast.mp hfits⟩
  · rintro ⟨hbegins,hle⟩
    exact ⟨n,parse_eq_some.mpr hbegins,MachineInt.checked_of_fits (fits_natCast.mpr hle)⟩

/-- The values that are not negative. -/
theorem stoi_nonneg : (∃ k, stoi l = some k ∧ 0 ≤ k) ↔ ∃ n : ℕ, Begins l n ∧ n ≤ intMax := by
  constructor
  · rintro ⟨k,hk,hnonneg⟩
    obtain ⟨n,rfl⟩ := Int.eq_ofNat_of_zero_le hnonneg
    exact ⟨n,stoi_natCast.mp hk⟩
  · rintro ⟨n,hn⟩
    exact ⟨n,stoi_natCast.mpr hn,Int.natCast_nonneg n⟩

theorem IntNumeral.stoi (hl : IntNumeral l n) : stoi l = some (n : ℤ) :=
  stoi_natCast.mpr ⟨hl.1.begins,hl.2⟩

theorem IntNumeral.not_mem (hl : IntNumeral l n) : 'x' ∉ l := fun hx => by
  cases hl.1.digits 'x' hx

end Parts

section Strings

variable {s : String} {size : QSize}

theorem pair_isValid (width height : Option ℤ) :
    ((do let w ← width; let h ← height; return (QSize.mk w h)).getD .invalid).isValid = true ↔
      (∃ k, width = some k ∧ 0 ≤ k) ∧ ∃ k, height = some k ∧ 0 ≤ k := by
  cases width with
  | none => simp
  | some w =>
    cases height with
    | none => simp
    | some h => simp [QSize.isValid_iff]

/-- A string is accepted when the parts that count begin with numbers. -/
theorem valid_iff_tolerated : (parseSize s).isValid = true ↔ Tolerated s := by
  unfold parseSize Tolerated usedParts
  simp only [← stoi_nonneg]
  split
  · rw [pair_isValid,List.forall_mem_cons,List.forall_mem_singleton]
  · rename_i first rest _ _
    have hboth := pair_isValid (stoi first) (stoi first)
    rw [and_self] at hboth
    rw [List.forall_mem_singleton,← hboth]
    cases stoi first <;> rfl
  · rename_i hnone
    exact absurd hnone (List.splitOn_ne_nil _ _)

theorem parseSize_documented (hdoc : Documented s size) : parseSize s = size := by
  rcases hdoc with ⟨n,hn,rfl⟩ | ⟨w,h,width,height,hs,hw,hh,rfl⟩
  · have hsplit : s.toList.splitOn 'x' = [s.toList] := List.splitOn_eq_singleton hn.not_mem
    simp only [parseSize,hsplit,hn.stoi]
    rfl
  · have hsplit : s.toList.splitOn 'x' = [w,h] := by
      rw [hs,List.splitOn_append_cons_self_of_not_mem hw.not_mem,
        List.splitOn_eq_singleton hh.not_mem]
    simp only [parseSize,hsplit,hw.stoi,hh.stoi]
    rfl

theorem documented_isValid (hdoc : Documented s size) : size.isValid = true := by
  rw [QSize.isValid_iff]
  rcases hdoc with ⟨n,-,rfl⟩ | ⟨w,h,width,height,-,-,-,rfl⟩
  · exact ⟨Int.natCast_nonneg n,Int.natCast_nonneg n⟩
  · exact ⟨Int.natCast_nonneg width,Int.natCast_nonneg height⟩

theorem sizeOption_eq (command s : String) :
    ((parseSize s).isValid = true → sizeOption command s = .ok (parseSize s)) ∧
      ((parseSize s).isValid = false →
        sizeOption command s = .error (command ++ "(): invalid size: " ++ s)) := by
  constructor <;> intro h <;> simp [sizeOption,h]

end Strings

/-- `parse_size()` accepts a string exactly as the manual page documents, unless every part that
counts begins with a number and the string is still not of the documented form. -/
theorem acceptsDocumented_iff (s : String) :
    AcceptsDocumented s ↔ (Tolerated s → ∃ size, Documented s size) := by
  rw [AcceptsDocumented,valid_iff_tolerated]
  constructor
  · exact fun h => h.1.mp
  · intro h
    refine ⟨⟨h,fun hdoc => ?_⟩,fun _ => parseSize_documented,fun command => ?_⟩
    · obtain ⟨size,hsize⟩ := hdoc
      rw [← valid_iff_tolerated,parseSize_documented hsize]
      exact documented_isValid hsize
    · rw [← valid_iff_tolerated]
      exact sizeOption_eq command s

/-- Garbage after a number is accepted. -/
theorem garbage_accepted : parseSize "12abc" = ⟨12,12⟩ ∧ ¬ AcceptsDocumented "12abc" := by
  have hparse : parseSize "12abc" = ⟨12,12⟩ := by decide
  refine ⟨hparse,fun h => ?_⟩
  obtain ⟨size,hdoc⟩ := h.1.mp (by rw [hparse]; rfl)
  rcases hdoc with ⟨n,hn,-⟩ | ⟨w,h,width,height,hs,-⟩
  · cases hn.1.digits 'a' (by decide)
  · have hx : 'x' ∈ "12abc".toList := by
      rw [hs]
      simp
    exact absurd hx (by decide)

end ParseSize
end UnityThumbnailer
