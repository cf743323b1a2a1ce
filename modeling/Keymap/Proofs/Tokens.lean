import Keymap.Hotkey.Compile
import Keymap.Proofs.Distinct
import Keymap.Proofs.Spellings

/-! What the tokens of a combination make of it. Every token is a modifier or a key, by itself and
wherever it stands; which keys answer to themselves, and which are names of modifiers, is then a
matter of single tokens and of the separator. -/
namespace Keymap.Hotkey

/-- The tokens that are looked at; a blank combination has none. -/
def named (combination separator : String) : List String :=
  if Text.trim combination = "" then [] else tokens combination separator

/-- The key that a token adds, unless it is a word for a modifier. -/
def keyOf? (separator token : String) : Option String :=
  if token = "" then some separator
  else match Modifier.ofToken? token with
    | some _ => none
    | none => some (Key.canonical token)

/-- A press of a key while exactly the modifiers of a hotkey are held, perhaps a repeated one. -/
def press (h : Hotkey) (key : String) (repeated : Bool) : KeyboardEvent :=
  { (KeyboardEvent.ofDown key).withModifiers h.modifiers with repeated := repeated }

variable {platform : Platform} {combination separator token key : String}
  {description : Option String}

theorem foldl_addToken (platform : Platform) (separator : String) (found : List String × Modifiers)
    (tokens : List String) : tokens.foldl (addToken platform separator) found =
      ((tokens.filterMap (keyOf? separator)).foldl addDistinct found.1,
        (tokens.filterMap Modifier.ofToken?).foldl (·.set platform ·) found.2) := by
  induction tokens generalizing found with
  | nil => rfl
  | cons token tokens ih =>
    rw [List.foldl_cons, ih, List.filterMap_cons, List.filterMap_cons, addToken, keyOf?]
    by_cases empty : token = ""
    · rw [if_pos empty, if_pos empty, empty, Modifier.ofToken?_empty]
      rfl
    · rw [if_neg empty, if_neg empty]
      cases Modifier.ofToken? token <;> rfl

/-- Keys and modifiers are collected apart from each other, each token by itself. -/
theorem requirements_eq (platform : Platform) (combination separator : String) :
    requirements platform combination separator =
      (distinct ((named combination separator).filterMap (keyOf? separator)),
        ((named combination separator).filterMap Modifier.ofToken?).foldl (·.set platform ·)
          .none) := by
  rw [requirements, named]
  split
  · rfl
  · exact foldl_addToken platform separator ([], .none) _

theorem compile_keys (platform : Platform) (combination separator : String)
    (description : Option String) : (compile platform combination separator description).keys =
      distinct ((named combination separator).filterMap (keyOf? separator)) := by
  rw [compile, requirements_eq]

theorem compile_modifiers (platform : Platform) (combination separator : String)
    (description : Option String) :
    (compile platform combination separator description).modifiers =
      ((named combination separator).filterMap Modifier.ofToken?).foldl (·.set platform ·)
        .none := by
  rw [compile, requirements_eq]

theorem mem_keys : key ∈ (compile platform combination separator description).keys ↔
    ∃ token ∈ named combination separator, keyOf? separator token = some key := by
  rw [compile_keys, mem_distinct, List.mem_filterMap]

/-- A key is the canonical name of a token, or the separator in place of an empty one. -/
theorem keyOf?_eq_some : keyOf? separator token = some key ↔
    token = "" ∧ separator = key ∨
      token ≠ "" ∧ Modifier.ofToken? token = none ∧ Key.canonical token = key := by
  rw [keyOf?]
  split
  next empty => simp [empty]
  next filled => cases Modifier.ofToken? token <;> simp [filled]

/-- A token that is no key is a word for a modifier. -/
theorem word_of_keyOf?_none (known : keyOf? separator token = none) :
    ∃ m, Modifier.ofToken? token = some m := by
  cases word : Modifier.ofToken? token with
  | some m => exact ⟨m, rfl⟩
  | none =>
    rw [keyOf?, word] at known
    split at known <;> exact absurd known (Option.some_ne_none _)

/-- An empty token makes the separator a key. -/
theorem separator_mem_keys (empty : "" ∈ named combination separator) :
    separator ∈ (compile platform combination separator description).keys :=
  mem_keys.mpr ⟨"", empty, keyOf?_eq_some.mpr (.inl ⟨rfl, rfl⟩)⟩

theorem canonical_or_separator
    (member : key ∈ (compile platform combination separator description).keys) :
    Key.canonical key = key ∨ key = separator ∧ "" ∈ named combination separator := by
  obtain ⟨token, held, known⟩ := mem_keys.mp member
  rcases keyOf?_eq_some.mp known with ⟨rfl, rfl⟩ | ⟨_, _, rfl⟩
  · exact .inr ⟨rfl, held⟩
  · exact .inl (Key.canonical_canonical token)

/-- A token that names a modifier key by a code makes the modifier's name a key. -/
theorem name_mem_keys {m : Modifier} (member : token ∈ named combination separator)
    (code : Modifier.ofCode? token = some m) :
    m.name ∈ (compile platform combination separator description).keys := by
  obtain ⟨other, canonical⟩ := Modifier.of_ofCode? code
  have filled : token ≠ "" := by
    rintro rfl
    rw [Modifier.ofCode?_empty] at code
    exact absurd code.symm (Option.some_ne_none m)
  exact mem_keys.mpr ⟨token, member, keyOf?_eq_some.mpr (.inr ⟨filled, other, canonical⟩)⟩

theorem firesFor_press (h : Hotkey) (member : key ∈ h.keys) (repeated : Bool) :
    h.firesFor {} (h.press key repeated) = decide (Key.canonical key ∈ h.keys) := by
  have filled : h.keys.isEmpty = false :=
    List.isEmpty_eq_false_iff.mpr (List.ne_nil_of_mem member)
  rw [Bool.eq_iff_iff, decide_eq_true_iff]
  simp [firesFor, press, KeyboardEvent.withModifiers, KeyboardEvent.ofDown, MatchPolicy.firesOn,
    ModifierMatch.allows, KeyboardEvent.modifiers, asksFor, KeyboardEvent.canonicalKey, filled]
  exact decide_eq_true_iff

/-- No key occurs twice, and every key but the separator is canonical. A key answers to a press of
itself exactly when its canonical name is among the keys, so all of them do exactly when no token is
empty or the separator's canonical name is a key too; all are canonical exactly when no token is
empty or the separator is canonical. -/
theorem keys_answer_iff (platform : Platform) (combination separator : String)
    (description : Option String) :
    let h := compile platform combination separator description
    h.keys.Nodup ∧
    (∀ key ∈ h.keys, key ≠ separator → Key.canonical key = key) ∧
    ((∀ key ∈ h.keys, Key.canonical key = key) ↔
      ("" ∈ named combination separator → Key.canonical separator = separator)) ∧
    (∀ key ∈ h.keys, ∀ repeated,
      h.firesFor {} (h.press key repeated) = decide (Key.canonical key ∈ h.keys)) ∧
    ((∀ key ∈ h.keys, ∀ repeated, h.firesFor {} (h.press key repeated)) ↔
      ("" ∈ named combination separator → Key.canonical separator ∈ h.keys)) := by
  intro h
  have answers : ∀ key ∈ h.keys, ∀ repeated,
      h.firesFor {} (h.press key repeated) = decide (Key.canonical key ∈ h.keys) :=
    fun key member repeated => firesFor_press h member repeated
  refine ⟨?_, ?_, ⟨?_, ?_⟩, answers, ⟨?_, ?_⟩⟩
  · show (compile platform combination separator description).keys.Nodup
    rw [compile_keys]
    exact distinct_nodup _
  · intro key member differs
    rcases canonical_or_separator member with canonical | ⟨same, _⟩
    · exact canonical
    · exact absurd same differs
  · exact fun canonical empty => canonical separator (separator_mem_keys empty)
  · intro canonical key member
    rcases canonical_or_separator member with same | ⟨rfl, empty⟩
    · exact same
    · exact canonical empty
  · intro fires empty
    have literal : separator ∈ h.keys := separator_mem_keys empty
    have fired := fires separator literal false
    rw [answers separator literal] at fired
    exact of_decide_eq_true fired
  · intro named key member repeated
    rw [answers key member]
    apply decide_eq_true
    rcases canonical_or_separator member with same | ⟨rfl, empty⟩
    · rwa [same]
    · exact named empty

/-- The separator is the second key, and like the first one it is canonical. -/
theorem keys_answer_iff_sample :
    let h := compile .other "Ctrl+ESC++" "+" none
    h.keys = ["Escape", "+"] ∧ h.modifiers = ⟨true, false, false, false⟩ ∧
    (∀ key ∈ h.keys, Key.canonical key = key) ∧
    ∀ key ∈ h.keys, ∀ repeated, h.firesFor {} (h.press key repeated) := by
  intro h
  obtain ⟨_, _, canonical, _, fires⟩ := keys_answer_iff .other "Ctrl+ESC++" "+" none
  have keys : h.keys = ["Escape", "+"] := rfl
  have separator : Key.canonical "+" = "+" := rfl
  refine ⟨keys, rfl, canonical.mpr fun _ => separator, fires.mpr fun _ => ?_⟩
  rw [separator]
  show "+" ∈ h.keys
  simp [keys]

/-- A separator that is not canonical gives a key that no press reaches. -/
theorem capital_separator_unreachable :
    let h := compile .other "bAA" "A" none
    h.keys = ["b", "A"] ∧ Key.canonical "A" = "a" ∧ h.firesFor {} (h.press "A" false) = false :=
  ⟨rfl, rfl, rfl⟩

theorem isModifierWord_keyOf? (plain : isModifierWord separator = false)
    (known : keyOf? separator token = some key) :
    isModifierWord key = (Modifier.ofCode? token).isSome := by
  rcases keyOf?_eq_some.mp known with ⟨rfl, rfl⟩ | ⟨_, other, rfl⟩
  · rw [plain, Modifier.ofCode?_empty]
    rfl
  · exact Modifier.isModifierWord_canonical other

/-- Setting a flag again changes nothing, whatever was set in between. -/
theorem set_collected (platform : Platform) (m : Modifier) (later : List Modifier)
    (flags : Modifiers) (held : flags.set platform m = flags) :
    (later.foldl (·.set platform ·) flags).set platform m =
      later.foldl (·.set platform ·) flags := by
  induction later generalizing flags with
  | nil => exact held
  | cons other later ih =>
    apply ih
    have order : (flags.set platform other).set platform m =
        (flags.set platform m).set platform other := by
      cases other <;> cases m <;> cases platform <;> rfl
    rw [order, held]

/-- Every modifier that a token names by a word is required. -/
theorem set_modifiers {m : Modifier} (member : token ∈ named combination separator)
    (word : Modifier.ofToken? token = some m) :
    let flags := (compile platform combination separator description).modifiers
    flags.set platform m = flags := by
  intro flags
  have same : flags = ((named combination separator).filterMap Modifier.ofToken?).foldl
      (·.set platform ·) .none := compile_modifiers ..
  obtain ⟨before, behind, split⟩ :=
    List.append_of_mem (List.mem_filterMap.mpr ⟨token, member, word⟩)
  rw [same, split, List.foldl_append, List.foldl_cons]
  apply set_collected
  cases m <;> cases platform <;> rfl

/-- No key is a word for a modifier exactly when no token names a modifier key by a code. A token
that folds onto the name of a modifier is required as a flag if it is a word, and if it is a code it
is a key. -/
theorem keys_plain_iff (platform : Platform) (combination separator : String)
    (description : Option String) (plain : isModifierWord separator = false) :
    let h := compile platform combination separator description
    ((∀ key ∈ h.keys, isModifierWord key = false) ↔
      ∀ token ∈ named combination separator, Modifier.ofCode? token = none) ∧
    ∀ token ∈ named combination separator, ∀ m : Modifier, Key.canonical token = m.name →
      if Modifier.ofCode? token = none then h.modifiers.set platform m = h.modifiers
      else m.name ∈ h.keys := by
  intro h
  refine ⟨⟨?_, ?_⟩, ?_⟩
  · intro keys token member
    cases code : Modifier.ofCode? token with
    | none => rfl
    | some m =>
      have word := keys _ (name_mem_keys member code)
      rw [← Modifier.ofToken?_isSome, Modifier.ofToken?_name, Option.isSome_some] at word
      exact Bool.noConfusion word
  · intro uncoded key member
    obtain ⟨token, held, known⟩ := mem_keys.mp member
    rw [isModifierWord_keyOf? plain known, uncoded token held]
    rfl
  · intro token member m folds
    cases Modifier.canonical_eq_name.mp folds with
    | inl word =>
      rw [if_pos (Modifier.ofCode?_word word)]
      exact set_modifiers member word
    | inr code =>
      rw [if_neg (by simp [code])]
      exact name_mem_keys member code

theorem keys_plain_iff_sample :
    let h := compile .apple " CMD + Option+mod+K" "+" none
    isModifierWord "+" = false ∧
    (∀ token ∈ named " CMD + Option+mod+K" "+", Modifier.ofCode? token = none) ∧
    h.keys = ["k"] ∧ (∀ key ∈ h.keys, isModifierWord key = false) ∧
    h.modifiers.set .apple .alt = h.modifiers := by
  intro h
  have plain : isModifierWord "+" = false := rfl
  have tokens : named " CMD + Option+mod+K" "+" = ["CMD ", " Option", "mod", "K"] := rfl
  have uncoded : ∀ token ∈ named " CMD + Option+mod+K" "+", Modifier.ofCode? token = none := by
    rw [tokens]
    simp only [List.forall_mem_cons]
    exact ⟨rfl, rfl, rfl, rfl, nofun⟩
  obtain ⟨keys, folded⟩ := keys_plain_iff .apple " CMD + Option+mod+K" "+" none plain
  have member : " Option" ∈ named " CMD + Option+mod+K" "+" := by simp [tokens]
  have required := folded " Option" member .alt rfl
  rw [if_pos (uncoded _ member)] at required
  exact ⟨plain, uncoded, rfl, keys.mpr uncoded, required⟩

/-- The physical code of a modifier key becomes a key, and no flag is required. -/
theorem code_becomes_key :
    let h := compile .other "ControlLeft+a" "+" none
    h.keys = ["ctrl", "a"] ∧ h.modifiers = .none ∧ isModifierWord "ctrl" = true ∧
      isModifierWord "+" = false :=
  ⟨rfl, rfl, rfl, rfl⟩

end Keymap.Hotkey
