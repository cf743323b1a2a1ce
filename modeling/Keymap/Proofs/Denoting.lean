import Keymap.Proofs.Held
import Keymap.Proofs.Letters
import Keymap.Proofs.Renaming
import Keymap.Proofs.Respelling

/-! What the spelling of a modifier denotes. A combination asks for the flag of a word, and an event
brings down the key that has the word's canonical name. Both are the same modifier, whatever the case
of the word and the blanks around it, and so the words and codes that events give tell which
modifiers are held behind a run. -/
namespace Keymap

namespace Text

inductive Variation : String → String → Prop where
  | recased {s other : String} (same : lower other = lower s) : Variation s other
  | padded {s other : String} (pads : Padded s other) : Variation s other

end Text

variable {κ : Type} {token other : String} {m : Modifier}

namespace Modifier

theorem ofToken?_varied (varied : Relation.EqvGen Text.Variation token other) :
    ofToken? other = ofToken? token := by
  refine Hotkey.eq_of_eqvGen ofToken? (fun token other step => ?_) varied
  cases step with
  | recased same => exact Hotkey.ofToken?_of_lower same
  | padded pads => exact Hotkey.ofToken?_of_trim pads.trim

theorem words_basic : ∀ word ∈ words, Text.AllBasic word.toList := by decide

/-- The words for modifiers are the listed ones, with either case for each letter and with blanks. -/
theorem isModifierWord_iff :
    isModifierWord token ↔ ∃ word : String, word.toLower ∈ words ∧ Text.Padded word token := by
  rw [isModifierWord, decide_eq_true_iff]
  constructor
  · intro member
    refine ⟨Text.trim token, ?_, Text.padded_trim token⟩
    rwa [(Text.lower_eq_iff (words_basic _ member)).mp rfl]
  · rintro ⟨word, member, pads⟩
    obtain ⟨-, settled, -⟩ := words_named _ member
    have tight : Text.trim word.toLower = word.toLower := by
      rw [← settled, ← Text.trim_lower, Text.trim_trim]
    rwa [pads.trim, ← Text.trim_lower, (Text.lower_eq_iff (words_basic _ member)).mpr rfl, tight]

/-- A word names the key of its modifier. -/
theorem ofKey?_of_ofToken? (word : ofToken? token = some m) : ofKey? token = some m :=
  ofKey?_eq_some.mpr (canonical_of_ofToken? word)

theorem name_ne_empty (m : Modifier) : m.name ≠ "" := by cases m <;> decide

end Modifier

/-- Whether a modifier key is held behind an operation, as the words and codes of events tell. When
the meta key comes up, all keys are given up. -/
def Operation.holds (m : Modifier) (held : Bool) : Operation κ → Bool
  | .handle event =>
    match event.phase with
    | .down => held || Modifier.ofKey? event.key = some m
    | .up =>
      held && Modifier.ofKey? event.key ≠ some m && Modifier.ofKey? event.key ≠ some .metaKey
  | .clearHeld => false
  | _ => held

namespace Keyboard

/-- A modifier key is asked for by any of its names. -/
theorem isKeyHeld_eq (k : Keyboard κ) (known : Modifier.ofKey? token = some m) :
    k.isKeyHeld token = decide (m.name ∈ k.held) := by
  rw [isKeyHeld, Modifier.ofKey?_eq_some.mp known]

theorem perform_isKeyHeld (k : Keyboard κ) (op : Operation κ)
    (known : Modifier.ofKey? token = some m) :
    (k.perform op).state.isKeyHeld token = op.holds m (k.isKeyHeld token) := by
  rw [isKeyHeld_eq _ known, isKeyHeld_eq k known, Bool.eq_iff_iff, decide_eq_true_iff, perform_held]
  cases op with
  | handle event =>
    have named (n : Modifier) : Modifier.ofKey? event.key = some n ↔ event.canonicalKey = n.name :=
      Modifier.ofKey?_eq_some
    cases phase : event.phase with
    | down =>
      simp only [Operation.pressed?, phase, Operation.holds, Bool.or_eq_true, decide_eq_true_iff,
        named, if_true]
      -- An event that names no key brings nothing down, and is none of a modifier.
      by_cases empty : event.canonicalKey = ""
      · have other : event.canonicalKey ≠ m.name := empty ▸ m.name_ne_empty.symm
        rw [if_pos empty, or_iff_left other]
      · rw [if_neg empty, mem_addDistinct, eq_comm (a := m.name)]
    | up =>
      have metaName : Modifier.metaKey.name = "meta" := rfl
      simp [Operation.pressed?, Operation.releases, phase, Operation.holds, named, metaName,
        and_assoc]
  | clearHeld => simp [Operation.pressed?, Operation.releases, Operation.holds]
  | _ => simp [Operation.pressed?, Operation.releases, Operation.holds]

theorem execute_isKeyHeld (k : Keyboard κ) (ops : List (Operation κ))
    (known : Modifier.ofKey? token = some m) :
    (k.execute ops).isKeyHeld token = ops.foldl (Operation.holds m) (k.isKeyHeld token) := by
  induction ops generalizing k with
  | nil => rfl
  | cons op ops ih => rw [execute, ih, perform_isKeyHeld k op known, List.foldl_cons]

/-- The words for modifiers are the listed ones, in whatever case and with whatever blanks, and each
of them stands for one modifier: its canonical name is the modifier's, and a word for it again. Where a
combination has the word, the modifier's flag is required. Where an event has it for its key, any
other word for the modifier does the same but for the name that callbacks see, and behind every run the modifier is held under the word
as the words and codes of the events tell. -/
theorem denotes_one_modifier (varied : Relation.EqvGen Text.Variation token other) :
    (isModifierWord other ↔
      ∃ word : String, word.toLower ∈ Modifier.words ∧ Text.Padded word other) ∧
    isModifierWord other = (Modifier.ofToken? token).isSome ∧
    Modifier.ofToken? other = Modifier.ofToken? token ∧
    Modifier.ofToken? (Key.canonical other) = Modifier.ofKey? other ∧
    ∀ m, Modifier.ofToken? token = some m →
      Key.canonical other = m.name ∧ Modifier.ofToken? (Key.canonical other) = some m ∧
      (∀ platform combination separator description,
        other ∈ Hotkey.named combination separator →
        let h := Hotkey.compile platform combination separator description
        h.modifiers.set platform m = h.modifiers) ∧
      (∀ (k : Keyboard κ) (event : KeyboardEvent) word, event.key = other →
        Modifier.ofToken? word = some m → k.handle { event with key := word } =
          { k.handle event with answer := (k.handle event).answer.withKey word }) ∧
      ∀ (k : Keyboard κ) ops,
        (k.execute ops).isKeyHeld other = ops.foldl (Operation.holds m) (m.name ∈ k.held) := by
  have kind := Modifier.ofToken?_varied varied
  refine ⟨Modifier.isModifierWord_iff, ?_, kind, Modifier.ofToken?_canonical other, ?_⟩
  · rw [← Modifier.ofToken?_isSome, kind]
  intro m word
  have otherWord : Modifier.ofToken? other = some m := kind.trans word
  have named : Key.canonical other = m.name := Modifier.canonical_of_ofToken? otherWord
  refine ⟨named, ?_, ?_, ?_, ?_⟩
  · rw [named]
    exact Modifier.ofToken?_name m
  · intro platform combination separator description member
    exact Hotkey.set_modifiers member otherWord
  · rintro k event another rfl known
    exact k.handle_of_canonical ((Modifier.canonical_of_ofToken? known).trans named.symm)
  · intro k ops
    have known := Modifier.ofKey?_of_ofToken? otherWord
    rw [execute_isKeyHeld k ops known, isKeyHeld_eq k known]

/-- The key goes down by a code and is asked for by a word, in another case and with blanks. -/
theorem denotes_one_modifier_sample :
    let other := "\tOPTION "
    let h := Hotkey.compile .other "k+\tOPTION +s" "+" none
    let k : Keyboard Nat := .new [] .other
    let ops : List (Operation Nat) := [.handle (.ofDown "AltLeft"), .handle (.ofUp "Shift")]
    Relation.EqvGen Text.Variation "option" other ∧ Modifier.ofToken? "option" = some .alt ∧
      isModifierWord other = true ∧ Key.canonical other = "alt" ∧
      other ∈ Hotkey.named "k+\tOPTION +s" "+" ∧ h.modifiers.set .other .alt = h.modifiers ∧
      (k.handle (.ofDown "Alt")).state = (k.handle (.ofDown other)).state ∧
      (k.execute ops).isKeyHeld other = true := by
  intro other h k ops
  have recased : Text.Variation "option" "OPTION" := .recased (by decide)
  have padded : Text.Variation "OPTION" other := .padded ⟨"\t", " ", by decide, by decide, rfl⟩
  have varied := (Relation.EqvGen.rel _ _ recased).trans _ _ _ (.rel _ _ padded)
  have word : Modifier.ofToken? "option" = some .alt := rfl
  have member : other ∈ Hotkey.named "k+\tOPTION +s" "+" := by decide
  obtain ⟨-, known, -, -, means⟩ := denotes_one_modifier (κ := Nat) varied
  obtain ⟨named, -, required, handled, held⟩ := means .alt word
  refine ⟨varied, word, known.trans rfl, named, member, required _ _ _ _ member, ?_, ?_⟩
  · exact congrArg (·.state) (handled k (.ofDown other) "Alt" rfl rfl)
  · exact (held k ops).trans rfl

end Keyboard

end Keymap
