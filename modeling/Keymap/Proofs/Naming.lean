import Keymap.Key.Name
import Keymap.Proofs.Lowering

/-! Canonical key names stand for themselves: making a name canonical once more changes nothing, and
neither does its case, nor do blanks around a name that is not blank. -/
namespace Keymap.Key

structure Bare (name : String) : Prop where
  some : name ≠ ""
  tight : Text.Tight name.toList
  settled : ∀ c ∈ name.toList, Text.Settled c

variable {name raw : String}

theorem trim_of_tight (tight : Text.Tight name.toList) : Text.trim name = name := by
  rw [Text.trim, Text.trimChars_of_tight tight, String.ofList_toList]

theorem Bare.canonical (bare : Bare name) : canonical name = ofLower name := by
  rw [Key.canonical, trim_of_tight bare.tight, if_neg bare.some,
    Text.lower_of_settled bare.settled]

/-- What is looked up for a name that is not blank. -/
theorem bare_lower_trim (dark : Text.trim raw ≠ "") : Bare (Text.lower (Text.trim raw)) := by
  have some : Text.trimChars raw.toList ≠ [] := by
    intro none
    rw [Text.trim, none] at dark
    exact dark rfl
  have chars :
      (Text.lower (Text.trim raw)).toList = Text.lowerChars (Text.trimChars raw.toList) := by
    rw [Text.lower, String.toList_ofList, Text.trim, String.toList_ofList]
  refine ⟨?_, ?_, Text.settled_lower _⟩
  · intro empty
    rw [empty] at chars
    exact Text.lowerFrom_ne_nil [] some chars.symm
  · rw [chars]
    exact (Text.trimChars_tight raw.toList).lowerChars

theorem aliases_canonical : ∀ key ∈ aliases.map Prod.snd, canonical key = key := by
  decide +kernel

theorem aliases_long : ∀ entry ∈ aliases, 2 ≤ entry.1.toList.length := by decide

theorem functionKeys_canonical : ∀ n ∈ List.range' 1 24,
    canonical (String.ofList ('F' :: Nat.toDigits 10 n)) =
      String.ofList ('F' :: Nat.toDigits 10 n) := by decide +kernel

theorem functionNumber?_mem {code : List Char} {n : Nat} (known : functionNumber? code = some n) :
    n ∈ List.range' 1 24 := by
  unfold functionNumber? at known
  simp only [Option.ite_none_right_eq_some, Bool.and_eq_true, decide_eq_true_eq,
    Option.some.injEq] at known
  obtain ⟨⟨⟨-, low⟩, high⟩, rfl⟩ := known
  rw [List.mem_range'_1]
  exact ⟨low, Nat.lt_succ_of_le high⟩

/-- A physical code stands for one of its characters or for a function key. -/
theorem ofCode_cases (name : List Char) :
    ofCode name = name ∨ (∃ c ∈ name.getLast?, ofCode name = [c]) ∨
      ∃ n ∈ List.range' 1 24, ofCode name = 'F' :: Nat.toDigits 10 n := by
  unfold ofCode
  split
  · split
    · exact .inr (.inl ⟨_, rfl, rfl⟩)
    · exact .inl rfl
  · split
    · exact .inr (.inl ⟨_, rfl, rfl⟩)
    · exact .inl rfl
  · split
    · exact .inr (.inl ⟨_, rfl, rfl⟩)
    · exact .inl rfl
  · split
    next n known => exact .inr (.inr ⟨n, functionNumber?_mem known, rfl⟩)
    next => exact .inl rfl
  · exact .inl rfl

theorem ofCode_single (c : Char) : ofCode [c] = [c] := by
  unfold ofCode
  split
  case h_4 code same =>
    obtain ⟨-, rfl⟩ := List.cons.inj same
    rfl
  case h_5 => rfl
  all_goals
    next same => simp at same

theorem ofLower_alias {key : String} (found : aliases.lookup name = some key) :
    ofLower name = key := by
  rw [ofLower, found]

theorem ofLower_code (found : aliases.lookup name = none) :
    ofLower name = String.ofList (ofCode name.toList) := by
  rw [ofLower, found]

/-- No alias is a single character, so one stands for itself. -/
theorem ofLower_single (c : Char) : ofLower (String.ofList [c]) = String.ofList [c] := by
  have unknown : aliases.lookup (String.ofList [c]) = none := by
    rw [List.lookup_eq_none_iff]
    intro entry member
    have long := aliases_long entry member
    rw [bne_iff_ne]
    rintro same
    rw [← same, String.toList_ofList] at long
    contradiction
  rw [ofLower_code unknown, String.toList_ofList, ofCode_single]

/-- A name stands for a fixed name, for itself, for its last character or for a function key. -/
theorem ofLower_cases (name : String) :
    ofLower name ∈ aliases.map Prod.snd ∨ ofLower name = name ∨
      (∃ c ∈ name.toList.getLast?, ofLower name = String.ofList [c]) ∨
      ∃ n ∈ List.range' 1 24, ofLower name = String.ofList ('F' :: Nat.toDigits 10 n) := by
  cases found : aliases.lookup name with
  | some key =>
    obtain ⟨before, behind, split, -⟩ := List.lookup_eq_some_iff.mp found
    rw [ofLower_alias found]
    left
    rw [split, List.map_append]
    exact List.mem_append_right _ List.mem_cons_self
  | none =>
    rw [ofLower_code found]
    rcases ofCode_cases name.toList with same | ⟨c, last, single⟩ | ⟨n, known, function⟩
    · rw [same, String.ofList_toList]
      exact .inr (.inl rfl)
    · rw [single]
      exact .inr (.inr (.inl ⟨c, last, rfl⟩))
    · rw [function]
      exact .inr (.inr (.inr ⟨n, known, rfl⟩))

/-- A character of a bare name that ends it is a bare name. -/
theorem Bare.last (bare : Bare name) {c : Char} (last : c ∈ name.toList.getLast?) :
    Bare (String.ofList [c]) := by
  refine ⟨?_, ?_, ?_⟩
  · intro empty
    have none := congrArg String.toList empty
    simp at none
  · rw [String.toList_ofList]
    have dark := bare.tight.last c last
    exact ⟨by simpa using dark, by simpa using dark⟩
  · rw [String.toList_ofList]
    simpa using bare.settled c (List.mem_of_getLast? last)

/-- What a name stands for stands for itself. -/
theorem canonical_ofLower (bare : Bare name) : canonical (ofLower name) = ofLower name := by
  rcases ofLower_cases name with named | same | ⟨c, last, single⟩ | ⟨n, known, function⟩
  · exact aliases_canonical _ named
  · rw [same, bare.canonical, same]
  · rw [single, (bare.last last).canonical, ofLower_single]
  · rw [function]
    exact functionKeys_canonical n known

theorem canonical_blank (blank : Text.trim raw = "") :
    canonical raw = if raw = "" then "" else "Space" := by
  rw [canonical]
  exact if_pos blank

theorem canonical_dark (dark : Text.trim raw ≠ "") :
    canonical raw = ofLower (Text.lower (Text.trim raw)) := by
  rw [canonical]
  exact if_neg dark

/-- Only the empty text has the empty name. -/
theorem canonical_ne_empty (some : raw ≠ "") : canonical raw ≠ "" := by
  by_cases blank : Text.trim raw = ""
  · rw [canonical_blank blank, if_neg some]
    decide
  · have bare := bare_lower_trim blank
    rw [canonical_dark blank]
    rcases ofLower_cases (Text.lower (Text.trim raw)) with
      named | same | ⟨c, last, single⟩ | ⟨n, known, function⟩
    · intro none
      rw [none] at named
      exact absurd named (by decide)
    · rw [same]
      exact bare.some
    · rw [single]
      exact (bare.last last).some
    · rw [function]
      exact fun none => List.cons_ne_nil _ _ (String.ofList_eq_empty_iff.mp none)

/-- A canonical name is the canonical name of itself. -/
theorem canonical_canonical (raw : String) : canonical (canonical raw) = canonical raw := by
  by_cases blank : Text.trim raw = ""
  · rw [canonical_blank blank]
    split <;> decide
  · rw [canonical_dark blank]
    exact canonical_ofLower (bare_lower_trim blank)

/-- Blanks around a name do not count, unless there is nothing else. -/
theorem canonical_of_trim_eq (same : Text.trim name = Text.trim raw) (dark : Text.trim raw ≠ "") :
    canonical name = canonical raw := by
  rw [canonical_dark dark, canonical_dark (same ▸ dark), same]

/-- Nor does the case of a name. -/
theorem canonical_lower (raw : String) : canonical (Text.lower raw) = canonical raw := by
  by_cases blank : Text.trim raw = ""
  · have settled : ∀ c ∈ raw.toList, Text.Settled c := fun c member =>
      (Text.endsWord_of_blank (Text.trim_eq_empty.mp blank c member)).toSettled
    rw [Text.lower_of_settled settled]
  · have dark : Text.trim (Text.lower raw) ≠ "" := by
      rw [Text.trim_lower]
      exact (bare_lower_trim blank).some
    rw [canonical_dark dark, canonical_dark blank, Text.trim_lower,
      Text.lower_of_settled (Text.settled_lower _)]

theorem canonical_of_lower_eq (same : Text.lower name = Text.lower raw) :
    canonical name = canonical raw := by
  rw [← canonical_lower name, same, canonical_lower]

end Keymap.Key
