import Mathlib

/-! Text made of fields with a separator between them: fields that do not hold the
separator can be read back. -/
namespace DelimitedText

/-- The fields in order, with the separator between them. -/
def join (sep : Char) (fields : List String) : String :=
  (String.singleton sep).intercalate fields

/-- No field holds the separator. -/
def Separable (sep : Char) (fields : List String) : Prop := ∀ f ∈ fields, sep ∉ f.toList

section

variable {sep : Char} {f : String} {l m : List String}

@[simp] theorem join_singleton : join sep [f] = f := String.intercalate_singleton

@[simp] theorem separable_nil : Separable sep [] := by simp [Separable]

@[simp] theorem separable_cons :
    Separable sep (f::l) ↔ sep ∉ f.toList ∧ Separable sep l := List.forall_mem_cons

@[simp] theorem separable_append :
    Separable sep (l ++ m) ↔ Separable sep l ∧ Separable sep m := List.forall_mem_append

/-- Splitting at the separator gives the fields back. -/
theorem splitOn_join (hl : Separable sep l) (hne : l ≠ []) :
    (join sep l).toList.splitOn sep = l.map String.toList := by
  unfold join
  rw [String.toList_intercalate,String.toList_singleton]
  refine List.splitOn_intercalate sep ?_ (by simpa using hne)
  intro s hs
  obtain ⟨f,hf,rfl⟩ := List.mem_map.mp hs
  exact hl f hf

theorem join_injective (hl : Separable sep l) (hm : Separable sep m) (hlne : l ≠ [])
    (hmne : m ≠ []) (h : join sep l = join sep m) : l = m := by
  have hsplit := congrArg (fun s : String => s.toList.splitOn sep) h
  simp only [splitOn_join hl hlne,splitOn_join hm hmne] at hsplit
  exact List.map_injective_iff.mpr (fun _ _ => String.toList_injective) hsplit

end

/-! ### Numbers as fields -/

theorem mem_natRepr {n : ℕ} {c : Char} (hc : c ∈ (toString n).toList) : c.isDigit = true := by
  rw [Nat.toString_eq_repr,Nat.toList_repr] at hc
  exact Nat.isDigit_of_mem_toDigits (by decide) (by decide) hc

theorem mem_intRepr {n : ℤ} {c : Char} (hc : c ∈ (toString n).toList) :
    c = '-' ∨ c.isDigit = true := by
  rw [Int.toString_eq_repr,Int.repr_eq_if] at hc
  split_ifs at hc
  · exact Or.inr (mem_natRepr hc)
  · rw [String.toList_append,List.mem_append] at hc
    rcases hc with hsign | hdigit
    · exact Or.inl (by simpa using hsign)
    · exact Or.inr (mem_natRepr hdigit)

/-- A separator that is neither a digit nor a sign is in no number. -/
theorem not_mem_int {sep : Char} (hsign : sep ≠ '-') (hdigit : sep.isDigit = false) (n : ℤ) :
    sep ∉ (toString n).toList := by
  intro hmem
  rcases mem_intRepr hmem with hs | hd
  · exact hsign hs
  · simp [hdigit] at hd

theorem not_mem_nat {sep : Char} (hdigit : sep.isDigit = false) (n : ℕ) :
    sep ∉ (toString n).toList := by
  intro hmem
  have hd := mem_natRepr hmem
  simp [hdigit] at hd

end DelimitedText
