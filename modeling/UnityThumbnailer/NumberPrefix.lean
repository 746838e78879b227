import Mathlib.Data.Int.Notation
import Mathlib.Data.List.TakeWhile

/-! Numbers at the beginning of a text. White space before the number is skipped, it may have a
sign, and what follows its digits is not looked at. -/
namespace NumberPrefix

/-- The white space of the C locale. -/
def isSpace (c : Char) : Bool := c ∈ [' ','\t','\n','\x0b','\x0c','\r']

inductive Sign
  | none | plus | minus

def Sign.text : Sign → List Char
  | .none => []
  | .plus => ['+']
  | .minus => ['-']

def Sign.apply (n : ℕ) : Sign → ℤ
  | .minus => -n
  | _ => n

def value (digits : List Char) : ℕ := Nat.ofDigitChars 10 digits 0

def splitSign : List Char → Sign × List Char
  | '+'::l => (.plus,l)
  | '-'::l => (.minus,l)
  | l => (.none,l)

/-- The number that a text begins with, none if there are no digits. -/
def parse (l : List Char) : Option ℤ :=
  let r := splitSign (l.dropWhile isSpace)
  let digits := r.2.takeWhile Char.isDigit
  if digits = [] then none else some (r.1.apply (value digits))

/-- The text consists of the digits of a number. -/
structure Numeral (l : List Char) (n : ℕ) : Prop where
  nonempty : l ≠ []
  digits : ∀ c ∈ l, c.isDigit = true
  value_eq : value l = n

/-- The text begins with a number: white space, a sign, and digits up to something else. -/
def Begins (l : List Char) (n : ℤ) : Prop :=
  ∃ (spaces : List Char) (sign : Sign) (digits rest : List Char) (k : ℕ),
    l = spaces ++ (sign.text ++ (digits ++ rest)) ∧ (∀ c ∈ spaces, isSpace c = true) ∧
      Numeral digits k ∧ (∀ c ∈ rest.head?, c.isDigit = false) ∧ n = sign.apply k

section Runs

variable {p : Char → Bool} {l m : List Char}

/-- A run of characters of one kind ends at the first of another. -/
theorem takeWhile_run (hl : ∀ c ∈ l, p c = true) (hm : ∀ c ∈ m.head?, p c = false) :
    (l ++ m).takeWhile p = l := by
  rw [List.takeWhile_append_of_pos hl]
  cases m with
  | nil => simp
  | cons c m => simp [hm c rfl]

theorem dropWhile_run (hl : ∀ c ∈ l, p c = true) (hm : ∀ c ∈ m.head?, p c = false) :
    (l ++ m).dropWhile p = m := by
  rw [List.dropWhile_append_of_pos hl]
  cases m with
  | nil => rfl
  | cons c m => simp [hm c rfl]

theorem head?_dropWhile (l : List Char) : ∀ c ∈ (l.dropWhile p).head?, p c = false := by
  intro c hc
  have hhead := List.head?_dropWhile_not p l
  rw [Option.mem_def.mp hc] at hhead
  simpa using hhead

end Runs

section Sign

theorem isSpace_of_isDigit {c : Char} (h : c.isDigit = true) : isSpace c = false := by
  by_contra hspace
  simp only [isSpace,List.mem_cons,List.not_mem_nil,or_false,decide_eq_true_eq,
    Bool.not_eq_false] at hspace
  rcases hspace with rfl | rfl | rfl | rfl | rfl | rfl <;> cases h

theorem splitSign_text (l : List Char) : (splitSign l).1.text ++ (splitSign l).2 = l := by
  unfold splitSign
  split <;> rfl

/-- Digits are not taken for a sign. -/
theorem splitSign_append {sign : Sign} {l : List Char}
    (h : ∀ c ∈ l.head?, c.isDigit = true) : splitSign (sign.text ++ l) = (sign,l) := by
  cases sign with
  | plus => rfl
  | minus => rfl
  | none =>
    change splitSign l = (.none,l)
    unfold splitSign
    split
    · cases h '+' rfl
    · cases h '-' rfl
    · rfl

/-- Neither a sign nor a digit is white space. -/
theorem head?_sign {sign : Sign} {l : List Char} (h : ∀ c ∈ l.head?, c.isDigit = true) :
    ∀ c ∈ (sign.text ++ l).head?, isSpace c = false := by
  cases sign with
  | none => exact fun c hc => isSpace_of_isDigit (h c hc)
  | plus => rintro c ⟨⟩; rfl
  | minus => rintro c ⟨⟩; rfl

end Sign

variable {l : List Char} {n : ℤ} {k : ℕ}

theorem Numeral.head? (h : Numeral l k) (rest : List Char) :
    ∀ c ∈ (l ++ rest).head?, c.isDigit = true := by
  obtain ⟨c,m,rfl⟩ := List.exists_cons_of_ne_nil h.nonempty
  rintro d ⟨⟩
  exact h.digits c List.mem_cons_self

/-- The parser reads exactly the texts that begin with a number. -/
theorem parse_eq_some : parse l = some n ↔ Begins l n := by
  constructor
  · intro h
    obtain ⟨hne,hn⟩ := Option.ite_none_left_eq_some.mp h
    refine ⟨l.takeWhile isSpace,(splitSign (l.dropWhile isSpace)).1,
      (splitSign (l.dropWhile isSpace)).2.takeWhile Char.isDigit,
      (splitSign (l.dropWhile isSpace)).2.dropWhile Char.isDigit,_,?_,?_,⟨hne,?_,rfl⟩,?_,?_⟩
    · rw [List.takeWhile_append_dropWhile,splitSign_text,List.takeWhile_append_dropWhile]
    · exact fun c hc => List.mem_takeWhile_imp hc
    · exact fun c hc => List.mem_takeWhile_imp hc
    · exact head?_dropWhile _
    · exact (Option.some.inj hn).symm
  · rintro ⟨spaces,sign,digits,rest,k,rfl,hspaces,hdigits,hrest,rfl⟩
    have hstart := hdigits.head? rest
    unfold parse
    rw [dropWhile_run hspaces (head?_sign hstart),splitSign_append hstart]
    simp only
    rw [takeWhile_run hdigits.digits hrest,if_neg hdigits.nonempty,hdigits.value_eq]

theorem Numeral.begins (h : Numeral l k) : Begins l k :=
  ⟨[],.none,l,[],k,by simp [Sign.text],by simp,h,by simp,rfl⟩

end NumberPrefix
