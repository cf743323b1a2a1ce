import Keymap.Key.Modifier
import Keymap.Proofs.Naming

/-! The spellings of modifiers. A modifier has words, which a combination takes for a flag, and its
keys have physical codes, which are names of keys like any other; both have the canonical name of
the modifier, and nothing else has. -/
namespace Keymap.Modifier

def all : List Modifier := [.ctrl, .shift, .alt, .metaKey, .primary]

theorem mem_all (m : Modifier) : m ∈ all := by cases m <;> decide

def name : Modifier → String
  | .ctrl => "ctrl"
  | .shift => "shift"
  | .alt => "alt"
  | .metaKey => "meta"
  | .primary => "mod"

/-- The names that stand for a modifier key and are no words for the modifier, in lower case. -/
def codes : List (String × Modifier) := [
  ("shiftleft", .shift), ("shiftright", .shift), ("controlleft", .ctrl), ("controlright", .ctrl),
  ("altleft", .alt), ("altright", .alt), ("os", .metaKey), ("metaleft", .metaKey),
  ("metaright", .metaKey), ("osleft", .metaKey), ("osright", .metaKey)]

def ofCode? (token : String) : Option Modifier := codes.lookup (Text.lower (Text.trim token))

variable {token word : String} {m : Modifier}

theorem ofToken?_empty : ofToken? "" = none := rfl

theorem ofCode?_empty : ofCode? "" = none := rfl

theorem ofToken?_isSome (token : String) : (ofToken? token).isSome = isModifierWord token := by
  unfold ofToken? isModifierWord
  split <;> simp_all [words]

/-- Only what trimming and lower-casing make of a token matters. -/
theorem ofToken?_congr {other : String}
    (same : Text.lower (Text.trim token) = Text.lower (Text.trim other)) :
    ofToken? token = ofToken? other := by
  rw [ofToken?, ofToken?, same]

theorem words_named : ∀ word ∈ words, word ≠ "" ∧ Text.lower (Text.trim word) = word ∧
    (ofToken? word).map name = some (Key.ofLower word) := by decide

theorem codes_named : ∀ entry ∈ codes, entry.1 ≠ "" ∧ Text.lower (Text.trim entry.1) = entry.1 ∧
    ofToken? entry.1 = none ∧ Key.ofLower entry.1 = entry.2.name := by decide

theorem dark_of_lower (some : Text.lower (Text.trim token) ≠ "") : Text.trim token ≠ "" := by
  intro blank
  rw [blank] at some
  exact some rfl

/-- A word names the modifier whose canonical name it has. -/
theorem canonical_of_ofToken? (known : ofToken? token = some m) : Key.canonical token = m.name := by
  have member : Text.lower (Text.trim token) ∈ words := by
    have := ofToken?_isSome token
    simpa [known, isModifierWord] using this.symm
  obtain ⟨some, settled, named⟩ := words_named _ member
  rw [ofToken?_congr settled, known] at named
  rw [Key.canonical_dark (dark_of_lower some)]
  exact (Option.some.inj named).symm

theorem of_ofCode? (known : ofCode? token = some m) :
    ofToken? token = none ∧ Key.canonical token = m.name := by
  have member : (Text.lower (Text.trim token), m) ∈ codes := by
    obtain ⟨before, behind, split, _⟩ := List.lookup_eq_some_iff.mp known
    rw [split]
    exact List.mem_append_right _ List.mem_cons_self
  obtain ⟨some, settled, unknown, named⟩ := codes_named _ member
  rw [Key.canonical_dark (dark_of_lower some)]
  exact ⟨(ofToken?_congr settled).symm.trans unknown, named⟩

/-- No word is a code. -/
theorem ofCode?_word (word : ofToken? token = some m) : ofCode? token = none := by
  cases code : ofCode? token with
  | none => rfl
  | some other =>
    have unknown := (of_ofCode? code).1
    rw [word] at unknown
    exact absurd unknown (Option.some_ne_none m)

theorem aliases_named : ∀ entry ∈ Key.aliases, ∀ m ∈ all, entry.2 = m.name →
    ofToken? entry.1 = some m ∨ codes.lookup entry.1 = some m := by decide

theorem ofToken?_name (m : Modifier) : ofToken? m.name = some m := by cases m <;> rfl

theorem name_ne_single (m : Modifier) (c : Char) : String.ofList [c] ≠ m.name := by
  intro same
  have short := congrArg String.length same
  rw [String.length_ofList] at short
  have long : m.name.length ≠ 1 := by cases m <;> decide
  exact long short.symm

theorem name_ne_function (m : Modifier) (digits : List Char) :
    String.ofList ('F' :: digits) ≠ m.name := by
  intro same
  have first := congrArg (fun s => s.toList.head?) same
  simp only [String.toList_ofList, List.head?_cons] at first
  cases m <;> exact absurd first (by decide)

/-- Only words and codes fold onto the name of a modifier. -/
theorem canonical_eq_name :
    Key.canonical token = m.name ↔ ofToken? token = some m ∨ ofCode? token = some m := by
  constructor
  · intro same
    by_cases blank : Text.trim token = ""
    · rw [Key.canonical_blank blank] at same
      split at same <;> cases m <;> exact absurd same (by decide)
    · rw [Key.canonical_dark blank] at same
      have bare := Key.bare_lower_trim blank
      have settled : Text.lower (Text.trim (Text.lower (Text.trim token))) =
          Text.lower (Text.trim token) := by
        rw [Key.trim_of_tight bare.tight, Text.lower_of_settled bare.settled]
      rw [← ofToken?_congr settled, ofCode?]
      cases found : Key.aliases.lookup (Text.lower (Text.trim token)) with
      | some key =>
        rw [Key.ofLower_alias found] at same
        obtain ⟨before, behind, split, _⟩ := List.lookup_eq_some_iff.mp found
        have member : (Text.lower (Text.trim token), key) ∈ Key.aliases := by
          rw [split]
          exact List.mem_append_right _ List.mem_cons_self
        exact aliases_named _ member m (mem_all m) same
      | none =>
        rw [Key.ofLower_code found] at same
        rcases Key.ofCode_cases (Text.lower (Text.trim token)).toList with
          unchanged | ⟨c, _, single⟩ | ⟨n, _, function⟩
        · rw [unchanged, String.ofList_toList] at same
          rw [same]
          exact .inl (ofToken?_name m)
        · rw [single] at same
          exact absurd same (name_ne_single m c)
        · rw [function] at same
          exact absurd same (name_ne_function m _)
  · rintro (word | code)
    · exact canonical_of_ofToken? word
    · exact (of_ofCode? code).2

/-- The modifier whose key a name stands for, by a word or by a code. -/
def ofKey? (key : String) : Option Modifier := (ofToken? key).or (ofCode? key)

theorem ofKey?_eq_some : ofKey? token = some m ↔ Key.canonical token = m.name := by
  rw [canonical_eq_name, ofKey?, Option.or_eq_some_iff]
  constructor
  · rintro (word | ⟨-, code⟩)
    · exact .inl word
    · exact .inr code
  · rintro (word | code)
    · exact .inl word
    · exact .inr ⟨(of_ofCode? code).1, code⟩

/-- A canonical name is a word for the modifier whose key it names, and for no other. -/
theorem ofToken?_canonical (token : String) : ofToken? (Key.canonical token) = ofKey? token := by
  ext m
  rw [ofKey?_eq_some]
  constructor
  · intro word
    have named := canonical_of_ofToken? word
    rwa [Key.canonical_canonical] at named
  · intro named
    rw [named]
    exact ofToken?_name m

/-- A canonical name is a word for a modifier only when the token was a word or a code. -/
theorem isModifierWord_canonical (key : ofToken? token = none) :
    isModifierWord (Key.canonical token) = (ofCode? token).isSome := by
  rw [← ofToken?_isSome, ofToken?_canonical, ofKey?, key, Option.none_or]

end Keymap.Modifier
