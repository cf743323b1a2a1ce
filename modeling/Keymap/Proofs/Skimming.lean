import Keymap.Json.Skim
import Keymap.Proofs.Lockstep
import Keymap.Proofs.Reading

/-! What can be read as a value can be skimmed, and both leave the same text behind. The converse
does not hold: skimming knows no limits. -/
namespace Keymap.Json

variable {cs rest : List Char}

theorem fourHex_ok {unit : Nat} (read : fourHex cs = .ok (unit, rest)) :
    ∃ a b c d, cs = a :: b :: c :: d :: rest := by
  unfold fourHex at read
  split at read
  · contradiction
  · dsimp only at read
    split at read
    · split at read
      · obtain ⟨-, rfl⟩ := Prod.mk.inj (Except.ok.inj read)
        exact ⟨_, _, _, _, rfl⟩
      · contradiction
    · contradiction

theorem lowSurrogate_ok {high taken : Nat} {low : Char}
    (read : lowSurrogate high cs = .ok (low, taken)) :
    taken = 6 ∧ ∃ digits result, cs = '\\' :: 'u' :: digits ∧ fourHex digits = .ok result := by
  unfold lowSurrogate at read
  split at read
  · contradiction
  · next digits =>
    split at read
    · contradiction
    · next unit after found =>
      split at read
      · obtain ⟨-, rfl⟩ := Prod.mk.inj (Except.ok.inj read)
        exact ⟨rfl, digits, _, rfl, found⟩
      · contradiction
  · contradiction
  · contradiction
  · contradiction

/-- An escape is skimmed over the characters that it takes; a surrogate pair is two escapes. -/
theorem skimText_escape {plain : Char} {taken : Nat} (read : escape cs = .ok (plain, taken)) :
    skimText 0 ('\\' :: cs) = skimText taken cs := by
  unfold escape at read
  split at read
  · contradiction
  · next digits =>
    unfold unicodeEscape at read
    split at read
    · contradiction
    · next unit after found =>
      have step : skimText 0 ('\\' :: 'u' :: digits) = skimText 5 ('u' :: digits) := by
        simp [skimText, found]
      rw [step]
      split at read
      · contradiction
      · split at read
        · obtain ⟨⟨low, more⟩, paired, made⟩ := exists_of_map read
          obtain ⟨rfl, behind, result, rfl, second⟩ := lowSurrogate_ok paired
          obtain ⟨-, rfl⟩ := Prod.mk.inj made
          obtain ⟨a, b, c, d, rfl⟩ := fourHex_ok found
          simp [skimText, second]
        · obtain ⟨-, rfl⟩ := Prod.mk.inj (Except.ok.inj read)
          rfl
  · next c after other =>
    split at read
    · next found =>
      obtain ⟨-, rfl⟩ := Prod.mk.inj (Except.ok.inj read)
      simp [skimText, found]
    · contradiction

theorem skimText_literalFrom {skip : Nat} {text : List Char}
    (read : literalFrom skip cs = .ok (text, rest)) :
    skimText skip cs = .ok rest ∧ rest.length < cs.length := by
  induction cs generalizing skip text with
  | nil => cases skip <;> contradiction
  | cons c cs ih =>
    have pass {skip : Nat} {text : List Char} (read : literalFrom skip cs = .ok (text, rest)) :
        skimText skip cs = .ok rest ∧ rest.length < (c :: cs).length :=
      ⟨(ih read).1, Nat.lt_succ_of_lt (ih read).2⟩
    cases skip with
    | succ skip => exact pass read
    | zero =>
      rw [literalFrom] at read
      split at read
      · next quote =>
        obtain ⟨-, rfl⟩ := Prod.mk.inj (Except.ok.inj read)
        exact ⟨by simp [skimText, quote], Nat.lt_succ_self _⟩
      split at read
      · next backslash =>
        subst backslash
        split at read
        · contradiction
        · next found =>
          obtain ⟨_, more, made⟩ := exists_of_map read
          obtain ⟨-, rfl⟩ := Prod.mk.inj made
          rw [skimText_escape found]
          exact pass more
      split at read
      · contradiction
      · next quote backslash printable =>
        obtain ⟨_, more, made⟩ := exists_of_map read
        obtain ⟨-, rfl⟩ := Prod.mk.inj made
        have step : skimText 0 (c :: cs) = skimText 0 cs := by
          simp [skimText, quote, backslash, printable]
        rw [step]
        exact pass more

theorem skimText_literal {s : String} (read : literal cs = .ok (s, rest)) :
    skimText 0 cs = .ok rest ∧ rest.length < cs.length := by
  obtain ⟨_, more, made⟩ := exists_of_map read
  obtain ⟨-, rfl⟩ := Prod.mk.inj made
  exact skimText_literalFrom more

section Numerals

variable {isNegative : Bool} {n : Number}

theorem ofDecimal_rest {significand : Nat} {power : Int}
    (read : ofDecimal isNegative significand power cs = .ok (n, rest)) : rest = cs := by
  unfold ofDecimal at read
  split at read
  · exact (Prod.mk.inj (Except.ok.inj read)).2.symm
  · contradiction

theorem ofInteger_rest {m : Nat} (read : ofInteger isNegative m cs = .ok (n, rest)) :
    rest = cs := by
  unfold ofInteger at read
  split at read
  · exact (Prod.mk.inj (Except.ok.inj read)).2.symm
  · split at read
    · exact (Prod.mk.inj (Except.ok.inj read)).2.symm
    · exact ofDecimal_rest read

/-- Digits are skimmed where there is one. -/
theorem digits_some {digits : List Char} (split : digitsOf cs = (digits, rest))
    (some : digits ≠ []) : ∃ c more, cs = c :: more ∧ c.isDigit = true ∧
      rest = more.dropWhile Char.isDigit := by
  obtain ⟨rfl, rfl⟩ := Prod.mk.inj split
  cases cs with
  | nil => contradiction
  | cons c more =>
    cases digit : c.isDigit with
    | false => simp [digit] at some
    | true => exact ⟨c, more, rfl, digit, by simp [digit]⟩

theorem skimExponent_exponentRest {significand : Nat} {power : Int}
    (read : exponentRest isNegative significand power cs = .ok (n, rest)) :
    skimExponent cs = .ok rest := by
  unfold exponentRest at read
  dsimp only at read
  split at read
  all_goals
    dsimp only at read
    split at read
    · split at read <;> contradiction
    next some =>
      obtain ⟨c, more, rfl, digit, skimmed⟩ := digits_some rfl some
      have behind : rest = more.dropWhile Char.isDigit := by
        split at read
        · exact (ofDecimal_rest read).trans skimmed
        · split at read
          · exact (Prod.mk.inj (Except.ok.inj read)).2.symm.trans skimmed
          · contradiction
      simp [skimExponent, digit, behind]

theorem no_letter (starts : startsExponent cs = false) :
    ∀ more, cs ≠ 'e' :: more ∧ cs ≠ 'E' :: more := by
  intro more
  constructor <;> (rintro rfl; contradiction)

/-- A letter begins an exponent, and where there is none nothing more is taken. -/
theorem exponentOrEnd_cases {significand : Nat} {power : Int}
    (read : exponentOrEnd isNegative significand power cs = .ok (n, rest)) :
    (∃ more, (cs = 'e' :: more ∨ cs = 'E' :: more) ∧ skimExponent more = .ok rest) ∨
      (∀ more, cs ≠ 'e' :: more ∧ cs ≠ 'E' :: more) ∧ rest = cs := by
  unfold exponentOrEnd at read
  cases starts : startsExponent cs with
  | true =>
    rw [starts, if_pos rfl] at read
    cases cs with
    | nil => contradiction
    | cons c more =>
      refine .inl ⟨more, ?_, skimExponent_exponentRest read⟩
      simpa [startsExponent] using starts
  | false =>
    rw [starts, if_neg Bool.false_ne_true] at read
    exact .inr ⟨no_letter starts, ofDecimal_rest read⟩

theorem skimFraction_end (noPoint : ∀ more, cs ≠ '.' :: more)
    (noLetter : ∀ more, cs ≠ 'e' :: more ∧ cs ≠ 'E' :: more) : skimFraction cs = .ok cs := by
  unfold skimFraction
  split
  next more => exact absurd rfl (noPoint more)
  next more => exact absurd rfl (noLetter more).1
  next more => exact absurd rfl (noLetter more).2
  next => rfl

theorem skimPlaces_placesRest {significand : Nat} {power : Int}
    (read : placesRest isNegative significand power cs = .ok (n, rest)) :
    skimPlaces cs = .ok rest := by
  unfold placesRest at read
  dsimp only at read
  split at read
  · split at read <;> contradiction
  next some =>
    obtain ⟨c, more, rfl, digit, skimmed⟩ := digits_some rfl some
    have behind : (digitsOf (c :: more)).2 = more.dropWhile Char.isDigit := skimmed
    rw [behind] at read
    simp only [skimPlaces, digit, if_true]
    rcases exponentOrEnd_cases read with ⟨after, letter | letter, skimmed⟩ | ⟨noLetter, rfl⟩
    · rw [letter]
      exact skimmed
    · rw [letter]
      exact skimmed
    · split
      next more same => exact absurd same (noLetter more).1
      next more same => exact absurd same (noLetter more).2
      next => rfl

theorem skimFraction_afterWhole {whole : List Char}
    (read : afterWhole isNegative whole cs = .ok (n, rest)) : skimFraction cs = .ok rest := by
  unfold afterWhole at read
  dsimp only at read
  split at read
  · exact skimPlaces_placesRest read
  next noPoint =>
    split at read
    next integer =>
      rw [Bool.and_eq_true, Bool.not_eq_true'] at integer
      obtain rfl := ofInteger_rest read
      exact skimFraction_end noPoint (no_letter integer.2)
    next =>
      rcases exponentOrEnd_cases read with ⟨more, rfl | rfl, skimmed⟩ | ⟨noLetter, rfl⟩
      · exact skimmed
      · exact skimmed
      · exact skimFraction_end noPoint noLetter

theorem skimExponent_length (skimmed : skimExponent cs = .ok rest) : rest.length ≤ cs.length := by
  unfold skimExponent at skimmed
  dsimp only at skimmed
  split at skimmed
  · contradiction
  next c more digits =>
    split at skimmed
    · obtain rfl := Except.ok.inj skimmed
      have taken := List.length_dropWhile_le Char.isDigit more
      have signed : (c :: more).length ≤ cs.length := by
        rw [← digits]
        split <;> simp
      simp only [List.length_cons] at signed
      omega
    · contradiction

theorem skimPlaces_length (skimmed : skimPlaces cs = .ok rest) : rest.length ≤ cs.length := by
  unfold skimPlaces at skimmed
  split at skimmed
  · contradiction
  next c more =>
    have taken := List.length_dropWhile_le Char.isDigit more
    rw [List.length_cons]
    split at skimmed
    · split at skimmed
      · next exponent letter =>
        have shorter := skimExponent_length skimmed
        simp only [letter, List.length_cons] at taken
        omega
      · next exponent letter =>
        have shorter := skimExponent_length skimmed
        simp only [letter, List.length_cons] at taken
        omega
      · obtain rfl := Except.ok.inj skimmed
        omega
    · contradiction

theorem skimFraction_length (skimmed : skimFraction cs = .ok rest) : rest.length ≤ cs.length := by
  unfold skimFraction at skimmed
  split at skimmed
  · exact Nat.le_succ_of_le (skimPlaces_length skimmed)
  · exact Nat.le_succ_of_le (skimExponent_length skimmed)
  · exact Nat.le_succ_of_le (skimExponent_length skimmed)
  · rw [Except.ok.inj skimmed]

/-- After a digit the others are passed over, but after a zero there must be none. -/
theorem skimNumeral_digit {c : Char} {more : List Char} (digit : c.isDigit = true)
    (zero : c = '0' → ∀ d ∈ more.head?, d.isDigit = false) :
    skimNumeral (c :: more) = skimFraction (more.dropWhile Char.isDigit) := by
  unfold skimNumeral
  split
  · contradiction
  next same =>
    obtain ⟨rfl, rfl⟩ := List.cons.inj same
    rfl
  next d after same =>
    obtain ⟨rfl, rfl⟩ := List.cons.inj same
    have other := zero rfl d rfl
    simp [other]
  next same =>
    obtain ⟨rfl, rfl⟩ := List.cons.inj same
    simp [digit]

theorem skimNumeral_numeral (read : numeral isNegative cs = .ok (n, rest)) :
    skimNumeral cs = .ok rest ∧ rest.length < cs.length := by
  unfold numeral at read
  split at read
  · contradiction
  · contradiction
  · contradiction
  next whole behind _ noDigits noZero split =>
    obtain ⟨c, more, rfl, digit, rfl⟩ := digits_some split noDigits
    have skimmed := skimFraction_afterWhole read
    have shorter := skimFraction_length skimmed
    have taken := List.length_dropWhile_le Char.isDigit more
    refine ⟨?_, by simp only [List.length_cons]; omega⟩
    rw [skimNumeral_digit digit, skimmed]
    rintro rfl d next
    obtain ⟨after, rfl⟩ := List.head?_eq_some_iff.mp next
    by_contra another
    rw [Bool.not_eq_false] at another
    have digits := (Prod.mk.inj split).1
    exact noZero d (after.takeWhile Char.isDigit) (by simp [← digits, another])

end Numerals

theorem length_dropSpace (cs : List Char) : (dropSpace cs).length ≤ cs.length :=
  List.length_dropWhile_le isSpace cs

theorem dropSpace_length {c : Char} (front : dropSpace cs = c :: rest) :
    rest.length < cs.length := by
  have shorter := length_dropSpace cs
  rw [front] at shorter
  exact shorter

theorem wordRest_length {word : List Char} (read : wordRest word cs = .ok rest) :
    rest.length ≤ cs.length := by
  induction word generalizing cs with
  | nil => rw [Except.ok.inj read]
  | cons letter word ih =>
    cases cs with
    | nil => contradiction
    | cons c cs =>
      rw [wordRest] at read
      split at read
      · exact Nat.le_succ_of_le (ih read)
      · contradiction

theorem colon_length (read : colon cs = .ok rest) : rest.length < cs.length := by
  unfold colon at read
  split at read
  · contradiction
  next front =>
    obtain rfl := Except.ok.inj read
    exact dropSpace_length front
  · contradiction

/-- What is skimmed is what was read, and it is not nothing. The bound has to allow for every
bracket, comma and value in between. -/
def Skims (skimmed : Nat → List Char → Except Failure (List Char)) (room : Nat)
    (cs rest : List Char) : Prop :=
  rest.length < cs.length ∧ ∀ bound, 2 * cs.length + room < bound → skimmed bound cs = .ok rest

theorem Skims.of_succ {skimmed : Nat → List Char → Except Failure (List Char)} {room : Nat}
    (less : rest.length < cs.length)
    (skims : ∀ bound, 2 * cs.length + room ≤ bound → skimmed (bound + 1) cs = .ok rest) :
    Skims skimmed room cs rest := by
  refine ⟨less, fun bound enough => ?_⟩
  obtain ⟨bound, rfl⟩ := Nat.exists_eq_add_one_of_ne_zero (Nat.ne_of_gt (Nat.zero_lt_of_lt enough))
  exact skims bound (Nat.le_of_lt_succ enough)

theorem Skims.of_dropSpace (skims : Skims skimValue 0 (dropSpace cs) rest) :
    Skims skimValue 0 cs rest := by
  obtain ⟨less, skimmed⟩ := skims
  have shorter := length_dropSpace cs
  refine .of_succ (Nat.lt_of_lt_of_le less shorter) fun bound enough => ?_
  have same := skimmed (bound + 1) (by omega)
  simpa only [skimValue, dropSpace_dropSpace] using same

/-- A scalar is skimmed as what it is. -/
theorem skims_scalar {v : Value} (read : scalar cs = .ok (v, rest)) :
    Skims skimValue 0 cs rest := by
  have skims {c : Char} {more : List Char} (front : dropSpace cs = c :: more)
      (less : rest.length ≤ more.length)
      (skimmed : ∀ bound, skimValue (bound + 1) cs = .ok rest) : Skims skimValue 0 cs rest :=
    .of_succ (Nat.lt_of_le_of_lt less (dropSpace_length front)) fun bound _ => skimmed bound
  unfold scalar at read
  split at read
  case h_1 => contradiction
  case h_2 more front | h_3 more front | h_4 more front =>
    obtain ⟨_, word, made⟩ := exists_of_map read
    obtain ⟨-, rfl⟩ := Prod.mk.inj made
    exact skims front (wordRest_length word) fun bound => by simp [skimValue, front, word]
  case h_5 more front =>
    obtain ⟨⟨s, _⟩, quoted, made⟩ := exists_of_map read
    obtain ⟨-, rfl⟩ := Prod.mk.inj made
    obtain ⟨skimmed, less⟩ := skimText_literal quoted
    exact skims front (Nat.le_of_lt less) fun bound => by simp [skimValue, front, skimmed]
  case h_6 more front =>
    obtain ⟨⟨n, _⟩, number, made⟩ := exists_of_map read
    obtain ⟨-, rfl⟩ := Prod.mk.inj made
    obtain ⟨skimmed, less⟩ := skimNumeral_numeral number
    exact skims front (Nat.le_of_lt less) fun bound => by simp [skimValue, front, skimmed]
  case h_7 c more _ _ _ _ _ front =>
    split at read
    next digit =>
      obtain ⟨⟨n, _⟩, number, made⟩ := exists_of_map read
      obtain ⟨-, rfl⟩ := Prod.mk.inj made
      obtain ⟨skimmed, less⟩ := skimNumeral_numeral number
      refine skims front (Nat.le_of_lt_succ less) fun bound => ?_
      simp [skimValue, front, digit, skimmed, digit_ne digit (d := '[') rfl,
        digit_ne digit (d := '\x7b') rfl]
    next => contradiction

theorem nextItem_ok {first more : Bool} (read : nextItem first cs = .ok (more, rest)) :
    more = false ∧ dropSpace cs = ']' :: rest ∨
      more = true ∧ ∃ c tail, dropSpace cs = c :: tail ∧ c ≠ ']' ∧
        (first = true ∧ rest = c :: tail ∨ first = false ∧ c = ',' ∧ rest = dropSpace tail) := by
  unfold nextItem at read
  split at read
  · contradiction
  next tail front =>
    obtain ⟨rfl, rfl⟩ := Prod.mk.inj (Except.ok.inj read)
    exact .inl ⟨rfl, front⟩
  next c tail dark front =>
    cases first with
    | true =>
      obtain ⟨rfl, rfl⟩ := Prod.mk.inj (Except.ok.inj read)
      exact .inr ⟨rfl, c, tail, front, dark, .inl ⟨rfl, rfl⟩⟩
    | false =>
      rw [if_neg Bool.false_ne_true] at read
      split at read
      next comma =>
        split at read
        · contradiction
        · contradiction
        · obtain ⟨rfl, rfl⟩ := Prod.mk.inj (Except.ok.inj read)
          exact .inr ⟨rfl, c, tail, front, dark, .inr ⟨rfl, comma, rfl⟩⟩
      · contradiction

theorem nameStart_ok {more : Bool} (read : nameStart cs = .ok (more, rest)) :
    more = true ∧ cs = '"' :: rest := by
  unfold nameStart at read
  split at read
  · contradiction
  · obtain ⟨rfl, rfl⟩ := Prod.mk.inj (Except.ok.inj read)
    exact ⟨rfl, rfl⟩
  · contradiction
  · contradiction

theorem nextMember_ok {first more : Bool} (read : nextMember first cs = .ok (more, rest)) :
    more = false ∧ dropSpace cs = '\x7d' :: rest ∨
      more = true ∧ ∃ c tail, dropSpace cs = c :: tail ∧ c ≠ '\x7d' ∧
        (first = true ∧ c = '"' ∧ rest = tail ∨
          first = false ∧ c = ',' ∧ dropSpace tail = '"' :: rest) := by
  unfold nextMember at read
  split at read
  · contradiction
  next tail front =>
    obtain ⟨rfl, rfl⟩ := Prod.mk.inj (Except.ok.inj read)
    exact .inl ⟨rfl, front⟩
  next c tail dark front =>
    cases first with
    | true =>
      obtain ⟨rfl, named⟩ := nameStart_ok read
      obtain ⟨rfl, rfl⟩ := List.cons.inj named
      exact .inr ⟨rfl, _, _, front, dark, .inl ⟨rfl, rfl, rfl⟩⟩
    | false =>
      rw [if_neg Bool.false_ne_true] at read
      split at read
      next comma =>
        obtain ⟨rfl, named⟩ := nameStart_ok read
        exact .inr ⟨rfl, c, tail, front, dark, .inr ⟨rfl, comma, named⟩⟩
      · contradiction

section Folds

variable {σ : Type} {fuel : Nat} {first : Bool} {s s' : σ}

theorem foldItems_ok {onItem : σ → Scan σ}
    (read : foldItems onItem (fuel + 1) first s cs = .ok (s', rest)) :
    nextItem first cs = .ok (false, rest) ∧ s' = s ∨
      ∃ start more behind, nextItem first cs = .ok (true, start) ∧
        onItem s start = .ok (more, behind) ∧
        foldItems onItem fuel false more behind = .ok (s', rest) := by
  rw [foldItems] at read
  split at read
  · contradiction
  next next =>
    obtain ⟨rfl, rfl⟩ := Prod.mk.inj (Except.ok.inj read)
    exact .inl ⟨next, rfl⟩
  next start next =>
    split at read
    · contradiction
    next more behind taken => exact .inr ⟨start, more, behind, next, taken, read⟩

theorem foldMembers_ok {onMember : σ → String → Scan σ}
    (read : foldMembers onMember (fuel + 1) first s cs = .ok (s', rest)) :
    nextMember first cs = .ok (false, rest) ∧ s' = s ∨
      ∃ start name text more behind, nextMember first cs = .ok (true, start) ∧
        literal start = .ok (name, text) ∧ onMember s name text = .ok (more, behind) ∧
        foldMembers onMember fuel false more behind = .ok (s', rest) := by
  rw [foldMembers] at read
  split at read
  · contradiction
  next next =>
    obtain ⟨rfl, rfl⟩ := Prod.mk.inj (Except.ok.inj read)
    exact .inl ⟨next, rfl⟩
  next start next =>
    split at read
    · contradiction
    next name text named =>
      split at read
      · contradiction
      next more behind taken =>
        exact .inr ⟨start, name, text, more, behind, next, named, taken, read⟩

end Folds

section Brackets

variable {scan : Scan Value} {fuel : Nat} {first : Bool}

theorem pushItem_ok {done vs : List Value} (read : pushItem scan done cs = .ok (vs, rest)) :
    ∃ v, scan cs = .ok (v, rest) ∧ vs = v :: done := by
  obtain ⟨⟨v, behind⟩, found, made⟩ := exists_of_map read
  obtain ⟨rfl, rfl⟩ := Prod.mk.inj made
  exact ⟨v, found, rfl⟩

theorem pushMember_ok {name : String} {done ms : List (String × Value)}
    (read : pushMember scan done name cs = .ok (ms, rest)) :
    ∃ behind v, colon cs = .ok behind ∧ scan behind = .ok (v, rest) ∧ ms = (name, v) :: done := by
  obtain ⟨⟨v, behind⟩, found, made⟩ := exists_of_map read
  obtain ⟨rfl, rfl⟩ := Prod.mk.inj made
  unfold afterColon at found
  split at found
  · contradiction
  next after separated => exact ⟨after, v, separated, found, rfl⟩

theorem skims_foldItems
    (skims : ∀ {cs v rest}, scan cs = .ok (v, rest) → Skims skimValue 0 cs rest)
    {done vs : List Value}
    (read : foldItems (pushItem scan) fuel first done cs = .ok (vs, rest)) :
    Skims (skimItems · first) 1 cs rest := by
  induction fuel generalizing first done cs with
  | zero => contradiction
  | succ fuel ih =>
    rcases foldItems_ok read with ⟨next, -⟩ | ⟨start, more, behind, next, taken, later⟩
    · have front : dropSpace cs = ']' :: rest := by simpa using nextItem_ok next
      exact .of_succ (dropSpace_length front) fun bound _ => by simp [skimItems, front]
    · rcases nextItem_ok next with ⟨closed, -⟩ | ⟨-, c, tail, front, dark, item⟩
      · contradiction
      obtain ⟨v, found, rfl⟩ := pushItem_ok taken
      obtain ⟨lessLater, skimmedLater⟩ := ih later
      have inside := dropSpace_length front
      have item : Skims skimValue 0 (if first then c :: tail else tail) behind ∧
          (if first then c :: tail else tail).length ≤ cs.length ∧ (first || c = ',') = true := by
        rcases item with ⟨rfl, rfl⟩ | ⟨rfl, rfl, rfl⟩
        · exact ⟨skims found, inside, rfl⟩
        · exact ⟨(skims found).of_dropSpace, Nat.le_of_lt inside, rfl⟩
      obtain ⟨⟨less, skimmed⟩, within, separated⟩ := item
      refine .of_succ (by omega) fun bound enough => ?_
      simp only [skimItems, front]
      rw [if_pos separated, skimmed bound (by omega)]
      exact skimmedLater bound (by omega)

theorem skims_foldMembers
    (skims : ∀ {cs v rest}, scan cs = .ok (v, rest) → Skims skimValue 0 cs rest)
    {done ms : List (String × Value)}
    (read : foldMembers (pushMember scan) fuel first done cs = .ok (ms, rest)) :
    Skims (skimMembers · first) 1 cs rest := by
  induction fuel generalizing first done cs with
  | zero => contradiction
  | succ fuel ih =>
    rcases foldMembers_ok read with
      ⟨next, -⟩ | ⟨start, name, text, more, behind, next, named, taken, later⟩
    · have front : dropSpace cs = '\x7d' :: rest := by simpa using nextMember_ok next
      exact .of_succ (dropSpace_length front) fun bound _ => by simp [skimMembers, front]
    · rcases nextMember_ok next with ⟨closed, -⟩ | ⟨-, c, tail, front, dark, quoted⟩
      · contradiction
      obtain ⟨after, v, separated, found, rfl⟩ := pushMember_ok taken
      obtain ⟨skimmedName, lessName⟩ := skimText_literal named
      have lessColon := colon_length separated
      obtain ⟨less, skimmed⟩ := skims found
      obtain ⟨lessLater, skimmedLater⟩ := ih later
      have inside := dropSpace_length front
      have quoted : dropSpace (if first then c :: tail else tail) = '"' :: start ∧
          start.length < cs.length ∧ (first || c = ',') = true := by
        rcases quoted with ⟨rfl, rfl, rfl⟩ | ⟨rfl, rfl, quote⟩
        · exact ⟨rfl, inside, rfl⟩
        · exact ⟨quote, (dropSpace_length quote).trans inside, rfl⟩
      obtain ⟨quote, within, between⟩ := quoted
      refine .of_succ (by omega) fun bound enough => ?_
      simp only [skimMembers, front]
      rw [if_pos between, quote]
      simp only [skimmedName, separated]
      rw [skimmed bound (by omega)]
      exact skimmedLater bound (by omega)

end Brackets

/-- Behind an opening bracket there is room for one more. -/
theorem Skims.opened {c : Char} {tail : List Char} (front : dropSpace cs = c :: tail)
    {skimmed : Nat → List Char → Except Failure (List Char)} (skims : Skims skimmed 1 tail rest)
    (step : ∀ bound, skimValue (bound + 1) cs = skimmed bound tail) :
    Skims skimValue 0 cs rest := by
  have inside := dropSpace_length front
  refine .of_succ (skims.1.trans inside) fun bound enough => ?_
  rw [step, skims.2 bound (by omega)]

theorem skims_value {depth : Nat} {v : Value} (read : value depth cs = .ok (v, rest)) :
    Skims skimValue 0 cs rest := by
  induction depth generalizing cs v rest with
  | zero =>
    rw [value] at read
    split at read
    · contradiction
    · contradiction
    · exact (skims_scalar read).of_dropSpace
  | succ depth ih =>
    rw [value] at read
    split at read
    next tail front =>
      obtain ⟨⟨vs, behind⟩, found, made⟩ := exists_of_map read
      obtain ⟨-, rfl⟩ := Prod.mk.inj made
      exact (skims_foldItems ih found).opened front fun bound => by simp [skimValue, front]
    next tail front =>
      obtain ⟨⟨ms, behind⟩, found, made⟩ := exists_of_map read
      obtain ⟨-, rfl⟩ := Prod.mk.inj made
      exact (skims_foldMembers ih found).opened front fun bound => by simp [skimValue, front]
    · exact (skims_scalar read).of_dropSpace

/-- A value is skimmed up to where it is read. -/
theorem skim_value {depth : Nat} {v : Value} (read : value depth cs = .ok (v, rest)) :
    skim cs = .ok rest := (skims_value read).2 _ (by omega)

end Keymap.Json
