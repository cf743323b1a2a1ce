import Keymap.Json.Numeral

/-! The digits of a number that fits 64 bits are read as that number, whatever follows them that does
not carry the numeral on. -/
namespace Keymap.Json

def EndsNumeral (rest : List Char) : Prop :=
  ∀ c ∈ rest.head?, c.isDigit = false ∧ c ≠ '.' ∧ c ≠ 'e' ∧ c ≠ 'E'

theorem le_ofDigitChars (digits : List Char) (n : Nat) : n ≤ Nat.ofDigitChars 10 digits n := by
  induction digits generalizing n with
  | nil => exact Nat.le_refl n
  | cons d digits ih =>
    have more := ih (10 * n + (d.toNat - '0'.toNat))
    rw [Nat.ofDigitChars_cons]
    omega

/-- Digits of a number within the limit are all gathered. -/
theorem gather_within {limit n : Nat} {digits : List Char}
    (within : Nat.ofDigitChars 10 digits n ≤ limit) :
    gather limit n digits = (Nat.ofDigitChars 10 digits n, []) := by
  induction digits generalizing n with
  | nil => rfl
  | cons d digits ih =>
    rw [Nat.ofDigitChars_cons] at within ⊢
    have step := Nat.le_trans (le_ofDigitChars digits _) within
    rw [gather]
    simp only [digitValue, Nat.not_lt.mpr step, if_false]
    exact ih within

theorem toDigits_head {n : Nat} (positive : 0 < n) : (Nat.toDigits 10 n).head? ≠ some '0' := by
  induction n using Nat.strongRecOn with
  | ind n ih =>
    by_cases small : n < 10
    · have nonzero : ∀ d ∈ List.range 10, 0 < d → Nat.digitChar d ≠ '0' := by decide
      rw [Nat.toDigits_of_lt_base small]
      simpa using nonzero n (List.mem_range.mpr small) positive
    · rw [Nat.toDigits_of_base_le (by decide) (Nat.not_lt.mp small),
        List.head?_append, List.head?_eq_some_head Nat.toDigits_ne_nil, Option.some_or,
        ← List.head?_eq_some_head]
      exact ih (n / 10) (by omega) (by omega)

/-- Only zero itself begins with a zero. -/
theorem toDigits_ne_padded (n : Nat) (next : Char) (more : List Char) :
    Nat.toDigits 10 n ≠ '0' :: next :: more := by
  intro padded
  rcases Nat.eq_zero_or_pos n with rfl | positive
  · simp at padded
  · exact toDigits_head positive (by rw [padded]; rfl)

theorem digitsOf_written (n : Nat) {rest : List Char} (ends : EndsNumeral rest) :
    digitsOf (Nat.toDigits 10 n ++ rest) = (Nat.toDigits 10 n, rest) := by
  have digits : ∀ c ∈ Nat.toDigits 10 n, c.isDigit = true := fun c member =>
    Nat.isDigit_of_mem_toDigits (by decide) (by decide) member
  have stop : rest.takeWhile Char.isDigit = [] ∧ rest.dropWhile Char.isDigit = rest := by
    cases rest with
    | nil => exact ⟨rfl, rfl⟩
    | cons c rest => simp [(ends c rfl).1]
  rw [digitsOf, List.takeWhile_append_of_pos digits, List.dropWhile_append_of_pos digits, stop.1,
    stop.2, List.append_nil]

theorem startsExponent_false {rest : List Char} (ends : EndsNumeral rest) :
    startsExponent rest = false := by
  cases rest with
  | nil => rfl
  | cons c rest =>
    obtain ⟨_, _, lower, upper⟩ := ends c rfl
    simp [startsExponent, lower, upper]

theorem numeral_written (n : UInt64) {rest : List Char} (ends : EndsNumeral rest) :
    numeral false (Nat.toDigits 10 n.toNat ++ rest) = .ok (.natural n, rest) := by
  have value : Nat.ofDigitChars 10 (Nat.toDigits 10 n.toNat) 0 = n.toNat :=
    Nat.ofDigitChars_toDigits (by decide) (by decide)
  have fits : n.toNat ≤ greatestSignificand := Nat.le_pred_of_lt n.toNat_lt
  have gathered : gather greatestSignificand 0 (Nat.toDigits 10 n.toNat) = (n.toNat, []) := by
    rw [gather_within (Nat.le_trans (Nat.le_of_eq value) fits), value]
  have whole : afterWhole false (Nat.toDigits 10 n.toNat) rest = .ok (.natural n, rest) := by
    simp only [afterWhole, gathered]
    split
    next places => exact absurd rfl (ends '.' rfl).2.1
    next => simp [startsExponent_false ends, ofInteger]
  have read := digitsOf_written n.toNat ends
  rw [numeral]
  split
  next none =>
    exact absurd (congrArg Prod.fst (read.symm.trans none)) Nat.toDigits_ne_nil
  next none =>
    exact absurd (congrArg Prod.fst (read.symm.trans none)) Nat.toDigits_ne_nil
  next padded =>
    exact absurd (congrArg Prod.fst (read.symm.trans padded)) (toDigits_ne_padded _ _ _)
  next same =>
    obtain ⟨rfl, rfl⟩ := Prod.mk.inj (read.symm.trans same)
    exact whole

theorem toDigits_printable (n : Nat) : ∀ c ∈ Nat.toDigits 10 n, 0x20 ≤ c.toNat := by
  intro c member
  have digit := Nat.isDigit_of_mem_toDigits (by decide) (by decide) member
  have zero : '0'.toNat = 48 := rfl
  have bounds := Char.isDigit_iff_toNat.mp digit
  omega

end Keymap.Json
