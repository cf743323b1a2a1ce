import Keymap.Json.Literal

/-! Quoted text can be read back: what is written for a text is read as that text, whatever follows
its closing quote, and no control character is written as it is. -/
namespace Keymap.Json

theorem hexDigit?_digitChar {d : Nat} (hexadecimal : d < 16) :
    hexDigit? (Nat.digitChar d) = some d := by
  have all : ∀ d ∈ List.range 16, hexDigit? (Nat.digitChar d) = some d := by decide
  exact all d (List.mem_range.mpr hexadecimal)

theorem digitChar_utf8Size {d : Nat} (hexadecimal : d < 16) : (Nat.digitChar d).utf8Size = 1 := by
  have all : ∀ d ∈ List.range 16, (Nat.digitChar d).utf8Size = 1 := by decide
  exact all d (List.mem_range.mpr hexadecimal)

theorem digitChar_printable {d : Nat} (hexadecimal : d < 16) : 0x20 ≤ (Nat.digitChar d).toNat := by
  have all : ∀ d ∈ List.range 16, 0x20 ≤ (Nat.digitChar d).toNat := by decide
  exact all d (List.mem_range.mpr hexadecimal)

theorem fourHex_digits {a b c d : Nat} (first : a < 16) (second : b < 16) (third : c < 16)
    (fourth : d < 16) (rest : List Char) :
    fourHex (Nat.digitChar a :: Nat.digitChar b :: Nat.digitChar c :: Nat.digitChar d :: rest) =
      .ok (((a * 16 + b) * 16 + c) * 16 + d, rest) := by
  have bytes : byteCount [Nat.digitChar a, Nat.digitChar b, Nat.digitChar c, Nat.digitChar d] = 4 := by
    simp [byteCount, digitChar_utf8Size, *]
  simp only [fourHex, List.take_succ_cons, List.take_zero, bytes, Nat.lt_irrefl, if_false,
    hexDigit?_digitChar, first, second, third, fourth]

/-- A control character has an escape by its number. -/
theorem escape_control {c : Char} (control : c.toNat < 0x20) (rest : List Char) :
    escape ('u' :: '0' :: '0' :: Nat.digitChar (c.toNat / 16) :: Nat.digitChar (c.toNat % 16) ::
      rest) = .ok (c, 5) := by
  have number : c.toNat / 16 * 16 + c.toNat % 16 = c.toNat := Nat.div_add_mod' ..
  have hex : fourHex ('0' :: '0' :: Nat.digitChar (c.toNat / 16) ::
      Nat.digitChar (c.toNat % 16) :: rest) = .ok (c.toNat, rest) := by
    rw [← show Nat.digitChar 0 = '0' from rfl,
      fourHex_digits (by omega) (by omega) (by omega) (by omega), Nat.zero_mul, Nat.zero_add, number]
  have low : isLowSurrogate c.toNat = false := by simp [isLowSurrogate]; omega
  have high : isHighSurrogate c.toNat = false := by simp [isHighSurrogate]; omega
  simp [escape, unicodeEscape, hex, low, high]

theorem literalFrom_writeChar (c : Char) (rest : List Char) :
    literalFrom 0 (writeChar c ++ rest) =
      (literalFrom 0 rest).map fun (cs, rest) => (c :: cs, rest) := by
  unfold writeChar
  split
  case h_8 quote backslash _ _ _ _ _ =>
    split
    next control => simp [literalFrom, escape_control control]
    next printable =>
      rw [List.singleton_append, literalFrom, if_neg quote, if_neg backslash, if_neg printable]
  all_goals simp [literalFrom, escape, unescaped?]

theorem literalFrom_written (text rest : List Char) :
    literalFrom 0 (text.flatMap writeChar ++ '"' :: rest) = .ok (text, rest) := by
  induction text with
  | nil => simp [literalFrom]
  | cons c text ih =>
    rw [List.flatMap_cons, List.append_assoc, literalFrom_writeChar, ih]
    rfl

/-- A text is read back from behind its opening quote. -/
theorem literal_written (s : String) (rest : List Char) :
    literal (s.toList.flatMap writeChar ++ '"' :: rest) = .ok (s, rest) := by
  simp [literal, literalFrom_written, Except.map]

theorem writeChar_printable (c : Char) : ∀ d ∈ writeChar c, 0x20 ≤ d.toNat := by
  unfold writeChar
  split
  case h_8 =>
    split
    next control =>
      have high := digitChar_printable (d := c.toNat / 16) (by omega)
      have low := digitChar_printable (d := c.toNat % 16) (by omega)
      simp [high, low]
    next printable => simpa using printable
  all_goals simp

theorem writeText_printable (s : String) : ∀ c ∈ writeText s, 0x20 ≤ c.toNat := by
  intro c member
  simp only [writeText, List.cons_append, List.mem_cons, List.mem_append, List.mem_flatMap,
    List.not_mem_nil, or_false] at member
  rcases member with rfl | ⟨d, _, written⟩ | rfl
  · decide
  · exact writeChar_printable d c written
  · decide

end Keymap.Json
