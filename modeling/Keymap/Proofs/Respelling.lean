import Keymap.Proofs.Joined
import Mathlib.Logic.Relation

/-! Combinations of ordinary tokens, which are neither blank nor hold the separator. Their flags are
those of the words for modifiers and their keys the canonical names of the other tokens, so it does
not matter where and how the words are written, nor how often a key is named. But a key that is
named by a modifier's code can be named again by a word for the modifier, and that sets a flag. -/
namespace Keymap

def Modifier.resolve (platform : Platform) : Modifier → Modifier
  | .primary =>
    match platform with
    | .apple => .metaKey
    | .other => .ctrl
  | m => m

def Modifiers.union (platform : Platform) (ms : List Modifier) : Modifiers where
  ctrl := .ctrl ∈ ms.map (·.resolve platform)
  shift := .shift ∈ ms.map (·.resolve platform)
  alt := .alt ∈ ms.map (·.resolve platform)
  metaKey := .metaKey ∈ ms.map (·.resolve platform)

namespace Modifiers

variable {platform : Platform} {ms others : List Modifier}

theorem union_concat (ms : List Modifier) (m : Modifier) :
    union platform (ms ++ [m]) = (union platform ms).set platform m := by
  cases m <;> cases platform <;> simp [union, Modifiers.set, Modifier.resolve]

theorem foldl_set (platform : Platform) (ms : List Modifier) :
    ms.foldl (·.set platform ·) .none = union platform ms := by
  induction ms using List.reverseRecOn with
  | nil => rfl
  | append_singleton ms m ih =>
    rw [List.foldl_append, ih, List.foldl_cons, List.foldl_nil, union_concat]

/-- Only which modifiers a platform takes them for counts. -/
theorem union_inj : union platform ms = union platform others ↔
    ∀ m, m ∈ ms.map (·.resolve platform) ↔ m ∈ others.map (·.resolve platform) := by
  constructor
  · intro same m
    simp only [union, Modifiers.mk.injEq, decide_eq_decide] at same
    cases m with
    | ctrl => exact same.1
    | shift => exact same.2.1
    | alt => exact same.2.2.1
    | metaKey => exact same.2.2.2
    | primary =>
      have never (ms : List Modifier) : .primary ∉ ms.map (·.resolve platform) := by
        rw [List.mem_map]
        rintro ⟨m, _, primary⟩
        cases m <;> cases platform <;> contradiction
      exact iff_of_false (never ms) (never others)
  · intro same
    simp only [union, same]

end Modifiers

namespace Hotkey

/-- A token that is neither blank nor holds the separator. -/
structure Ordinary (c : Char) (token : String) : Prop where
  dark : Text.trim token ≠ ""
  absent : c ∉ token.toList

variable {c : Char} {platform : Platform} {separator token other : String}
  {tokens others : List String}

def flagsOf (platform : Platform) (tokens : List String) : Modifiers :=
  .union platform (tokens.filterMap Modifier.ofToken?)

def keyTokens (tokens : List String) : List String :=
  tokens.filter fun token => !isModifierWord token

def namesOf (tokens : List String) : List String := (keyTokens tokens).map Key.canonical

theorem alike_of_dark (same : Text.trim other = Text.trim token) (dark : Text.trim token ≠ "") :
    Alike token other := by
  refine ⟨same, ?_, ?_⟩
  · rintro rfl
    exact absurd rfl dark
  · rintro rfl
    exact absurd same.symm dark

/-- Ordinary tokens are read back as they are but for blanks around them. -/
theorem named_ordinary (dark : Text.isBlank c = false)
    (ordinary : ∀ token ∈ tokens, Ordinary c token) :
    List.Forall₂ Alike tokens (named (joined c tokens) (.singleton c)) := by
  have absent : ∀ token ∈ tokens, c ∉ token.toList := fun token member =>
    (ordinary token member).absent
  induction tokens using List.bidirectionalRec with
  | nil => exact .nil
  | singleton token =>
    have some := (ordinary token List.mem_cons_self).dark
    rw [named_single (absent token List.mem_cons_self), if_neg some]
    exact .cons (alike_of_dark (Text.trim_trim token) some) .nil
  | cons_append first middle last _ =>
    simp only [List.forall_mem_cons, List.forall_mem_append] at ordinary
    obtain ⟨start, -, ending, -⟩ := ordinary
    rw [named_joined dark absent]
    have inside : List.Forall₂ Alike middle middle :=
      List.forall₂_same.mpr fun token _ => ⟨rfl, Iff.rfl⟩
    have tail : List.Forall₂ Alike [last] [Text.trimEnd last] :=
      .cons (alike_of_dark (Text.padded_trimEnd last).trim.symm ending.dark) .nil
    exact .cons (alike_of_dark (Text.padded_trimStart first).trim.symm start.dark)
      (List.rel_append inside tail)

theorem keyOf?_some (some : token ≠ "") : keyOf? separator token =
    if isModifierWord token then none else Key.canonical token := by
  rw [keyOf?, if_neg some, ← Modifier.ofToken?_isSome]
  cases Modifier.ofToken? token <;> rfl

/-- An ordinary token that is no word for a modifier is a key by its canonical name. -/
theorem filterMap_keyOf? (ordinary : ∀ token ∈ tokens, Ordinary c token) :
    tokens.filterMap (keyOf? separator) = namesOf tokens := by
  induction tokens with
  | nil => rfl
  | cons token tokens ih =>
    obtain ⟨here, later⟩ := List.forall_mem_cons.mp ordinary
    have some : token ≠ "" := by
      rintro rfl
      exact here.dark rfl
    rw [List.filterMap_cons, keyOf?_some some, ih later, namesOf, namesOf, keyTokens, keyTokens]
    cases kind : isModifierWord token <;> simp [kind]

/-- What a combination of ordinary tokens asks for, token by token. -/
theorem compile_joined (platform : Platform) (dark : Text.isBlank c = false)
    (ordinary : ∀ token ∈ tokens, Ordinary c token) (description : Option String) :
    let h := compile platform (joined c tokens) (.singleton c) description
    h.modifiers = flagsOf platform tokens ∧ h.keys = distinct (namesOf tokens) := by
  have read := named_ordinary dark ordinary
  refine ⟨?_, ?_⟩
  · have same := read.imp fun _ _ alike => ofToken?_of_trim alike.trim
    rw [compile_modifiers, filterMap_related same, Modifiers.foldl_set, flagsOf]
  · have same := read.imp fun _ _ => keyOf?_alike (.singleton c)
    rw [compile_keys, filterMap_related same, filterMap_keyOf? ordinary]

/-- One change to where or how a word for a modifier is written, or a key named once more, in one of
the spellings that are looked at. -/
inductive Respelled (platform : Platform) (spells : String → Prop) :
    List String → List String → Prop
  | move {word : String} (modifier : isModifierWord word) (before between behind : List String) :
      Respelled platform spells (before ++ word :: (between ++ behind))
        (before ++ (between ++ word :: behind))
  | twice {word : String} {before behind : List String} (modifier : isModifierWord word)
      (held : word ∈ before ++ behind) :
      Respelled platform spells (before ++ behind) (before ++ word :: behind)
  | recase {word other : String} (modifier : isModifierWord word)
      (same : Text.lower other = Text.lower word) (before behind : List String) :
      Respelled platform spells (before ++ word :: behind) (before ++ other :: behind)
  | pad {word padded : String} (modifier : isModifierWord word) (pads : Text.Padded word padded)
      (before behind : List String) :
      Respelled platform spells (before ++ word :: behind) (before ++ padded :: behind)
  /-- Another word for the same modifier, or for the one that the platform takes it for. -/
  | rename {word other : String} {m n : Modifier} (known : Modifier.ofToken? word = some m)
      (renamed : Modifier.ofToken? other = some n) (same : m.resolve platform = n.resolve platform)
      (before behind : List String) :
      Respelled platform spells (before ++ word :: behind) (before ++ other :: behind)
  /-- A key that was named before, in any of these spellings. -/
  | again {key other : String} {before : List String} (held : key ∈ before)
      (named : isModifierWord key = false) (same : Key.canonical other = Key.canonical key)
      (spelled : spells other) (behind : List String) :
      Respelled platform spells (before ++ behind) (before ++ other :: behind)

section Changes

variable {spells : String → Prop} {word : String} {m n : Modifier}

theorem ofToken?_of_not_word (key : isModifierWord token = false) :
    Modifier.ofToken? token = none := by
  rw [← Option.isSome_eq_false_iff.trans Option.isNone_iff_eq_none, Modifier.ofToken?_isSome, key]

theorem exists_modifier (modifier : isModifierWord word) :
    ∃ m, Modifier.ofToken? word = some m := by
  rw [← Option.isSome_iff_exists, Modifier.ofToken?_isSome, modifier]

theorem isModifierWord_of_ofToken? (known : Modifier.ofToken? word = some m) :
    isModifierWord word := by
  rw [← Modifier.ofToken?_isSome, known]
  rfl

/-- Whether a token is a word, and for which modifier, does not depend on its case. -/
theorem ofToken?_of_lower (same : Text.lower other = Text.lower token) :
    Modifier.ofToken? other = Modifier.ofToken? token := by
  apply Modifier.ofToken?_congr
  rw [← Text.trim_lower, ← Text.trim_lower, same]

/-- Only which tokens there are counts for the flags. -/
theorem flagsOf_congr (same : ∀ token, token ∈ others ↔ token ∈ tokens) :
    flagsOf platform others = flagsOf platform tokens := by
  refine Modifiers.union_inj.mpr fun _ => ?_
  simp only [List.mem_map, List.mem_filterMap, same]

theorem flagsOf_replaced (known : Modifier.ofToken? word = some m)
    (renamed : Modifier.ofToken? other = some n) (same : m.resolve platform = n.resolve platform)
    (before behind : List String) :
    flagsOf platform (before ++ other :: behind) = flagsOf platform (before ++ word :: behind) := by
  refine Modifiers.union_inj.mpr fun _ => ?_
  simp [known, renamed, same]

theorem flagsOf_key (key : isModifierWord other = false) (before behind : List String) :
    flagsOf platform (before ++ other :: behind) = flagsOf platform (before ++ behind) := by
  simp [flagsOf, ofToken?_of_not_word key]

theorem keyTokens_word (modifier : isModifierWord word) (before behind : List String) :
    keyTokens (before ++ word :: behind) = keyTokens (before ++ behind) := by
  simp [keyTokens, modifier]

theorem keyTokens_key (key : isModifierWord other = false) (before behind : List String) :
    keyTokens (before ++ other :: behind) = keyTokens before ++ other :: keyTokens behind := by
  simp [keyTokens, key]

/-- Of a word that is written anew only its modifier counts. -/
theorem rewritten (known : Modifier.ofToken? word = some m)
    (renamed : Modifier.ofToken? other = some n) (same : m.resolve platform = n.resolve platform)
    (before behind : List String) :
    flagsOf platform (before ++ other :: behind) = flagsOf platform (before ++ word :: behind) ∧
      keyTokens (before ++ other :: behind) = keyTokens (before ++ word :: behind) := by
  refine ⟨flagsOf_replaced known renamed same before behind, ?_⟩
  rw [keyTokens_word (isModifierWord_of_ofToken? renamed),
    keyTokens_word (isModifierWord_of_ofToken? known)]

/-- A change to how words are written leaves the flags and the other tokens as they are; what is
named again is a key of the front. -/
theorem Respelled.words_or_again (step : Respelled platform spells tokens others) :
    (flagsOf platform others = flagsOf platform tokens ∧ keyTokens others = keyTokens tokens) ∨
      ∃ key other before behind, tokens = before ++ behind ∧ others = before ++ other :: behind ∧
        key ∈ before ∧ isModifierWord key = false ∧ Key.canonical other = Key.canonical key ∧
        spells other := by
  cases step with
  | move modifier before between behind =>
    refine .inl ⟨flagsOf_congr fun token => by simp [or_left_comm], ?_⟩
    rw [← List.append_assoc, keyTokens_word modifier, keyTokens_word modifier, List.append_assoc]
  | @twice word before behind modifier held =>
    refine .inl ⟨flagsOf_congr fun token => ?_, keyTokens_word modifier before behind⟩
    have members : token ∈ before ++ word :: behind ↔ token = word ∨ token ∈ before ++ behind := by
      simp [or_left_comm]
    exact members.trans (or_iff_right_of_imp fun same => same ▸ held)
  | recase modifier same before behind =>
    obtain ⟨m, known⟩ := exists_modifier modifier
    exact .inl (rewritten known ((ofToken?_of_lower same).trans known) rfl before behind)
  | pad modifier pads before behind =>
    obtain ⟨m, known⟩ := exists_modifier modifier
    exact .inl (rewritten known ((ofToken?_of_trim pads.trim).trans known) rfl before behind)
  | rename known renamed same before behind =>
    exact .inl (rewritten known renamed same before behind)
  | again held named same spelled behind =>
    exact .inr ⟨_, _, _, behind, rfl, rfl, held, named, same, spelled⟩

/-- No change is visible in the keys: what is named again is a word, or the same key. -/
theorem Respelled.names (step : Respelled platform spells tokens others) :
    distinct (namesOf others) = distinct (namesOf tokens) := by
  rcases step.words_or_again with ⟨-, keys⟩ | ⟨key, other, before, behind, rfl, rfl, held, named,
    same, -⟩
  · rw [namesOf, keys, namesOf]
  cases again : isModifierWord other with
  | true => rw [namesOf, keyTokens_word again, namesOf]
  | false =>
    have known : Key.canonical other ∈ (keyTokens before).map Key.canonical := by
      rw [same]
      exact List.mem_map_of_mem (List.mem_filter.mpr ⟨held, by simp [named]⟩)
    have joined : keyTokens (before ++ behind) = keyTokens before ++ keyTokens behind :=
      List.filter_append ..
    rw [namesOf, keyTokens_key again, namesOf, joined, List.map_append, List.map_cons,
      distinct_append_cons known, List.map_append]

/-- Nor in the flags, as long as keys are named by no words. -/
theorem Respelled.flags (step : Respelled platform (isModifierWord · = false) tokens others) :
    flagsOf platform others = flagsOf platform tokens := by
  rcases step.words_or_again with ⟨flags, -⟩ | ⟨_, _, before, behind, rfl, rfl, _, _, _, key⟩
  · exact flags
  · exact flagsOf_key key before behind

end Changes

/-! A key whose name is a code can be named again by a word. Where no token is a code, no key can
be. -/
section Codes

variable {spells : String → Prop} {word key : String} {before behind : List String}
  {m n : Modifier}

def Uncoded (tokens : List String) : Prop := ∀ token ∈ tokens, Modifier.ofCode? token = none

/-- Only tokens that are no words can be codes. -/
theorem uncoded_keyTokens : Uncoded (keyTokens tokens) ↔ Uncoded tokens := by
  refine ⟨fun uncoded token member => ?_, fun uncoded token member =>
    uncoded token (List.mem_filter.mp member).1⟩
  cases kind : isModifierWord token with
  | false => exact uncoded token (List.mem_filter.mpr ⟨member, by simp [kind]⟩)
  | true =>
    obtain ⟨m, known⟩ := exists_modifier kind
    exact Modifier.ofCode?_word known

theorem not_word_of_code (code : Modifier.ofCode? key = some m) : isModifierWord key = false := by
  rw [← Modifier.ofToken?_isSome, (Modifier.of_ofCode? code).1]
  rfl

/-- All names of a key that is named by no word and no code are neither. -/
theorem plain_of_canonical (named : isModifierWord key = false)
    (uncoded : Modifier.ofCode? key = none) (same : Key.canonical other = Key.canonical key) :
    isModifierWord other = false ∧ Modifier.ofCode? other = none := by
  have stranger (m : Modifier) : Key.canonical other ≠ m.name := by
    rw [same]
    intro folded
    rcases Modifier.canonical_eq_name.mp folded with word | code
    · rw [ofToken?_of_not_word named] at word
      exact Option.some_ne_none m word.symm
    · rw [uncoded] at code
      exact Option.some_ne_none m code.symm
  constructor
  · rw [Bool.eq_false_iff]
    intro word
    obtain ⟨m, known⟩ := exists_modifier word
    exact stranger m (Modifier.canonical_of_ofToken? known)
  · rw [Option.eq_none_iff_forall_ne_some]
    intro m code
    exact stranger m (Modifier.of_ofCode? code).2

theorem Respelled.uncoded (step : Respelled platform spells tokens others) :
    Uncoded others ↔ Uncoded tokens := by
  rcases step.words_or_again with ⟨-, keys⟩ | ⟨key, other, before, behind, rfl, rfl, held, named,
    same, -⟩
  · rw [← uncoded_keyTokens, keys, uncoded_keyTokens]
  · have members : Uncoded (before ++ other :: behind) ↔
        Modifier.ofCode? other = none ∧ Uncoded (before ++ behind) := by
      simp only [Uncoded, List.forall_mem_append, List.forall_mem_cons, and_left_comm]
    rw [members]
    refine and_iff_right_of_imp fun uncoded => ?_
    exact (plain_of_canonical named (uncoded key (List.mem_append_left _ held)) same).2

theorem Respelled.flags_of_uncoded (step : Respelled platform spells tokens others)
    (uncoded : Uncoded tokens) : flagsOf platform others = flagsOf platform tokens := by
  rcases step.words_or_again with ⟨flags, -⟩ | ⟨key, other, before, behind, rfl, rfl, held, named,
    same, -⟩
  · exact flags
  · have plain := uncoded key (List.mem_append_left _ held)
    exact flagsOf_key (plain_of_canonical named plain same).1 before behind

/-- Without codes all changes together leave the flags as they are. -/
theorem flagsOf_of_uncoded (changed : Relation.EqvGen (Respelled platform spells) tokens others) :
    (Uncoded others ↔ Uncoded tokens) ∧
      (Uncoded tokens → flagsOf platform others = flagsOf platform tokens) := by
  induction changed with
  | rel _ _ step => exact ⟨step.uncoded, step.flags_of_uncoded⟩
  | refl => exact ⟨Iff.rfl, fun _ => rfl⟩
  | symm _ _ _ ih => exact ⟨ih.1.symm, fun uncoded => (ih.2 (ih.1.mp uncoded)).symm⟩
  | trans _ _ _ _ _ first second =>
    exact ⟨second.1.trans first.1, fun uncoded =>
      (second.2 (first.1.mpr uncoded)).trans (first.2 uncoded)⟩

/-- Beside a code of a modifier its words can be taken away, for they name the key again. -/
theorem dropped_word (code : Modifier.ofCode? key = some m) (held : key ∈ before ++ behind)
    (known : Modifier.ofToken? word = some n) (same : n.resolve platform = m.resolve platform) :
    Relation.EqvGen (Respelled platform fun _ => True)
      (before ++ word :: behind) (before ++ behind) := by
  have own := Modifier.ofToken?_name m
  have folded := (Modifier.canonical_of_ofToken? own).trans (Modifier.of_ofCode? code).2.symm
  have renamed : Respelled platform (fun _ => True) (before ++ word :: behind)
      (before ++ m.name :: behind) := .rename known own same before behind
  have moved : Respelled platform (fun _ => True) (before ++ m.name :: (behind ++ []))
      (before ++ (behind ++ [m.name])) := .move (isModifierWord_of_ofToken? own) before behind []
  have again : Respelled platform (fun _ => True) (before ++ behind ++ [])
      (before ++ behind ++ [m.name]) := .again held (not_word_of_code code) folded trivial []
  rw [List.append_nil] at moved again
  rw [List.append_assoc] at again
  exact (Relation.EqvGen.rel _ _ renamed).trans _ _ _
    ((Relation.EqvGen.rel _ _ moved).trans _ _ _ (.symm _ _ (.rel _ _ again)))

def isWordFor (platform : Platform) (m : Modifier) (token : String) : Bool :=
  (Modifier.ofToken? token).any fun n => n.resolve platform = m.resolve platform

theorem dropped_words (code : Modifier.ofCode? key = some m) (before : List String)
    (held : key ∈ before ++ behind) :
    Relation.EqvGen (Respelled platform fun _ => True) (before ++ behind)
      (before ++ behind.filter fun token => !isWordFor platform m token) := by
  induction behind generalizing before with
  | nil => exact .refl _
  | cons token behind ih =>
    cases asks : isWordFor platform m token with
    | false =>
      have later := ih (before ++ [token]) (by simpa using held)
      simpa [asks] using later
    | true =>
      obtain ⟨n, known, same⟩ := (Option.any_eq_true _ _).mp asks
      have plain : key ≠ token := by
        rintro rfl
        rw [(Modifier.of_ofCode? code).1] at known
        exact Option.some_ne_none n known.symm
      have kept : key ∈ before ++ behind := by simpa [plain] using held
      have dropped := dropped_word code kept known (by simpa using same)
      simpa [asks] using dropped.trans _ _ _ (ih before kept)

def upperName (m : Modifier) : String := .ofList (m.name.toList.map Char.toUpper)

theorem upperName_apart : ∀ m ∈ Modifier.all, Modifier.ofToken? (upperName m) = some m ∧
    (m.name.toList.all fun c => c ∉ (upperName m).toList) = true := by decide

/-- Whatever the separator is, in one of the two cases a word for a modifier does not hold it. -/
theorem exists_ordinary_word (c : Char) (m : Modifier) :
    ∃ word, Modifier.ofToken? word = some m ∧ Ordinary c word := by
  have dark {word : String} (known : Modifier.ofToken? word = some m) : Text.trim word ≠ "" := by
    intro blank
    rw [Modifier.ofToken?, blank] at known
    contradiction
  obtain ⟨upper, apart⟩ := upperName_apart m (Modifier.mem_all m)
  by_cases inside : c ∈ m.name.toList
  · exact ⟨upperName m, upper, dark upper, by simpa using List.all_eq_true.mp apart c inside⟩
  · exact ⟨m.name, Modifier.ofToken?_name m, dark (Modifier.ofToken?_name m), inside⟩

/-- The flag of a modifier whose code is among the tokens can be set and cleared. -/
theorem exists_other_flags (code : Modifier.ofCode? key = some m) (held : key ∈ tokens)
    (ordinary : ∀ token ∈ tokens, Ordinary c token) :
    ∃ others, Relation.EqvGen (Respelled platform fun _ => True) tokens others ∧
      (∀ token ∈ others, Ordinary c token) ∧
      flagsOf platform others ≠ flagsOf platform tokens := by
  obtain ⟨word, known, plain⟩ := exists_ordinary_word c m
  obtain ⟨unknown, folded⟩ := Modifier.of_ofCode? code
  let bare := tokens.filter fun token => !isWordFor platform m token
  have cleared : Relation.EqvGen (Respelled platform fun _ => True) tokens bare :=
    dropped_words code [] held
  have bareOrdinary : ∀ token ∈ bare, Ordinary c token := fun token member =>
    ordinary token (List.mem_filter.mp member).1
  have kept : key ∈ bare := List.mem_filter.mpr ⟨held, by simp [isWordFor, unknown]⟩
  have again : Respelled platform (fun _ => True) (bare ++ []) (bare ++ [word]) :=
    .again kept (not_word_of_code code) ((Modifier.canonical_of_ofToken? known).trans folded.symm)
      trivial []
  rw [List.append_nil] at again
  have differ : flagsOf platform (bare ++ [word]) ≠ flagsOf platform bare := by
    intro same
    have flag := (Modifiers.union_inj.mp same (m.resolve platform)).mp (by simp [known])
    obtain ⟨n, asking, resolved⟩ := List.mem_map.mp flag
    obtain ⟨token, member, asks⟩ := List.mem_filterMap.mp asking
    have none := (List.mem_filter.mp member).2
    simp [isWordFor, asks, resolved] at none
  -- One of the two differs from the tokens themselves.
  by_cases same : flagsOf platform bare = flagsOf platform tokens
  · refine ⟨bare ++ [word], cleared.trans _ _ _ (.rel _ _ again), ?_, same ▸ differ⟩
    rw [List.forall_mem_append]
    exact ⟨bareOrdinary, by simpa using plain⟩
  · exact ⟨bare, cleared, bareOrdinary, same⟩

end Codes

/-- What no step changes, all of them together leave as it is. -/
theorem eq_of_eqvGen {α β : Type} {r : α → α → Prop} (view : α → β)
    (step : ∀ a b, r a b → view b = view a) {a b : α} (changed : Relation.EqvGen r a b) :
    view b = view a := by
  have one := Quot.eqvGen_sound changed
  exact (congrArg (Quot.lift view fun a b related => (step a b related).symm) one).symm

/-- A combination of ordinary tokens asks for the flags of its words for modifiers, and for the
canonical names of its other tokens without repetitions and in order. So words may be moved,
repeated, written in another case, with blanks or by another name, and keys may be named again: the
combination asks for the same keys, and for the same flags where a key is named again by a name that
is no word for a modifier. Any name of the key will do exactly when no token is the code of a
modifier, for a word names the key of a code too. -/
theorem ordinary_tokens (platform : Platform) (dark : Text.isBlank c = false) {tokens : List String}
    (ordinary : ∀ token ∈ tokens, Ordinary c token) (description : Option String) :
    let compiled (tokens : List String) :=
      compile platform (joined c tokens) (.singleton c) description
    (compiled tokens).modifiers = .union platform (tokens.filterMap Modifier.ofToken?) ∧
      (compiled tokens).keys =
        ((tokens.filter fun token => !isModifierWord token).map Key.canonical).eraseDups ∧
      (∀ others, Relation.EqvGen (Respelled platform fun _ => True) tokens others →
        (∀ token ∈ others, Ordinary c token) → (compiled others).keys = (compiled tokens).keys) ∧
      (∀ others, Relation.EqvGen (Respelled platform (isModifierWord · = false)) tokens others →
        (∀ token ∈ others, Ordinary c token) →
        (compiled others).modifiers = (compiled tokens).modifiers) ∧
      ((∀ others, Relation.EqvGen (Respelled platform fun _ => True) tokens others →
        (∀ token ∈ others, Ordinary c token) →
        (compiled others).modifiers = (compiled tokens).modifiers) ↔
          ∀ token ∈ tokens, Modifier.ofCode? token = none) := by
  intro compiled
  have asks {tokens : List String} (ordinary : ∀ token ∈ tokens, Ordinary c token) :
      (compiled tokens).modifiers = flagsOf platform tokens ∧
        (compiled tokens).keys = distinct (namesOf tokens) :=
    compile_joined platform dark ordinary description
  obtain ⟨modifiers, keys⟩ := asks ordinary
  refine ⟨modifiers, keys.trans (distinct_eq_eraseDups _), ?_, ?_, ?_⟩
  · intro others changed alsoOrdinary
    rw [(asks alsoOrdinary).2, keys]
    exact eq_of_eqvGen (fun tokens => distinct (namesOf tokens)) (fun _ _ step => step.names)
      changed
  · intro others changed alsoOrdinary
    rw [(asks alsoOrdinary).1, modifiers]
    exact eq_of_eqvGen (flagsOf platform) (fun _ _ step => step.flags) changed
  constructor
  · intro always token member
    rw [Option.eq_none_iff_forall_ne_some]
    intro m code
    obtain ⟨others, changed, alsoOrdinary, differ⟩ := exists_other_flags code member ordinary
    have same := always others changed alsoOrdinary
    rw [(asks alsoOrdinary).1, modifiers] at same
    exact differ same
  · intro uncoded others changed alsoOrdinary
    rw [(asks alsoOrdinary).1, modifiers]
    exact (flagsOf_of_uncoded changed).2 uncoded

/-- The word is moved behind the keys, takes another name there and gets blanks, and the first key
is named again by another spelling. -/
theorem ordinary_tokens_sample :
    let h := compile .apple (joined '+' ["mod", "KeyA", "ESC"]) (.singleton '+') none
    let g := compile .apple (joined '+' ["KeyA", "ESC", " CMD ", "a"]) (.singleton '+') none
    Text.isBlank '+' = false ∧ (∀ token ∈ ["mod", "KeyA", "ESC"], Ordinary '+' token) ∧
      (∀ token ∈ ["KeyA", "ESC", " CMD ", "a"], Ordinary '+' token) ∧
      (∀ token ∈ ["mod", "KeyA", "ESC"], Modifier.ofCode? token = none) ∧
      Relation.EqvGen (Respelled .apple fun _ => True) ["mod", "KeyA", "ESC"]
        ["KeyA", "ESC", " CMD ", "a"] ∧
      h.keys = ["a", "Escape"] ∧ h.modifiers = ⟨false, false, false, true⟩ ∧
      g.modifiers = h.modifiers ∧ g.keys = h.keys := by
  intro h g
  have dark : Text.isBlank '+' = false := rfl
  have ordinary : ∀ token ∈ ["mod", "KeyA", "ESC"], Ordinary '+' token := by
    simp only [List.forall_mem_cons]
    exact ⟨⟨by decide, by decide⟩, ⟨by decide, by decide⟩, ⟨by decide, by decide⟩, nofun⟩
  have alsoOrdinary : ∀ token ∈ ["KeyA", "ESC", " CMD ", "a"], Ordinary '+' token := by
    simp only [List.forall_mem_cons]
    exact ⟨⟨by decide, by decide⟩, ⟨by decide, by decide⟩, ⟨by decide, by decide⟩,
      ⟨by decide, by decide⟩, nofun⟩
  have uncoded : ∀ token ∈ ["mod", "KeyA", "ESC"], Modifier.ofCode? token = none := by decide
  have moved : Respelled .apple (fun _ => True) ["mod", "KeyA", "ESC"] ["KeyA", "ESC", "mod"] :=
    .move (by decide) [] ["KeyA", "ESC"] []
  have primary : Modifier.ofToken? "mod" = some .primary := rfl
  have command : Modifier.ofToken? "CMD" = some .metaKey := rfl
  have renamed : Respelled .apple (fun _ => True) ["KeyA", "ESC", "mod"] ["KeyA", "ESC", "CMD"] :=
    .rename primary command rfl ["KeyA", "ESC"] []
  have padded : Respelled .apple (fun _ => True) ["KeyA", "ESC", "CMD"] ["KeyA", "ESC", " CMD "] :=
    .pad (by decide) ⟨" ", " ", by decide, by decide, rfl⟩ ["KeyA", "ESC"] []
  have same : Key.canonical "a" = Key.canonical "KeyA" := by decide
  have held : "KeyA" ∈ ["KeyA", "ESC", " CMD "] := List.mem_cons_self
  have named : isModifierWord "KeyA" = false := rfl
  have again : Respelled .apple (fun _ => True) ["KeyA", "ESC", " CMD "]
      ["KeyA", "ESC", " CMD ", "a"] := .again held named same trivial []
  have behind := (Relation.EqvGen.rel _ _ padded).trans _ _ _ (.rel _ _ again)
  have front := (Relation.EqvGen.rel _ _ moved).trans _ _ _ (.rel _ _ renamed)
  have changed := front.trans _ _ _ behind
  obtain ⟨modifiers, keys, sameKeys, _, always⟩ := ordinary_tokens .apple dark ordinary none
  exact ⟨dark, ordinary, alsoOrdinary, uncoded, changed, rfl, rfl,
    always.mpr uncoded _ changed alsoOrdinary, sameKeys _ changed alsoOrdinary⟩

/-- The key of a code is named again by a word with the same canonical name, which sets a flag. -/
theorem word_behind_code_sets_flag :
    let h := compile .other (joined '+' ["ControlLeft", "a"]) (.singleton '+') none
    let g := compile .other (joined '+' ["ControlLeft", "a", "ctrl"]) (.singleton '+') none
    Text.isBlank '+' = false ∧ (∀ token ∈ ["ControlLeft", "a", "ctrl"], Ordinary '+' token) ∧
      isModifierWord "ControlLeft" = false ∧
      Key.canonical "ctrl" = Key.canonical "ControlLeft" ∧
      Respelled .other (fun _ => True) ["ControlLeft", "a"] ["ControlLeft", "a", "ctrl"] ∧
      h.keys = ["ctrl", "a"] ∧ g.keys = h.keys ∧
      h.modifiers = ⟨false, false, false, false⟩ ∧ g.modifiers = ⟨true, false, false, false⟩ := by
  intro h g
  have ordinary : ∀ token ∈ ["ControlLeft", "a", "ctrl"], Ordinary '+' token := by
    simp only [List.forall_mem_cons]
    exact ⟨⟨by decide, by decide⟩, ⟨by decide, by decide⟩, ⟨by decide, by decide⟩, nofun⟩
  have same : Key.canonical "ctrl" = Key.canonical "ControlLeft" := by decide
  have held : "ControlLeft" ∈ ["ControlLeft", "a"] := List.mem_cons_self
  have named : isModifierWord "ControlLeft" = false := rfl
  have again : Respelled .other (fun _ => True) ["ControlLeft", "a"] ["ControlLeft", "a", "ctrl"] :=
    .again held named same trivial []
  exact ⟨rfl, ordinary, named, same, again, by decide +kernel, by decide +kernel,
    by decide +kernel, by decide +kernel⟩

end Hotkey

end Keymap
