import Keymap.Proofs.Respelling

/-! Hotkeys as text. The text that shows a hotkey is a combination for it: its modifiers and keys
are read back in order, also where the separator is one of the keys, for then it stands between two
empty tokens. -/
namespace Keymap

namespace Text

def punctuation : List (Nat × Nat) := [(0x21, 0x2F), (0x3A, 0x40), (0x5B, 0x60), (0x7B, 0x7E)]

def isPunctuation (c : Char) : Bool := memRanges punctuation c.toNat

variable {p : Char}

theorem isBlank_punctuation (punct : isPunctuation p) : isBlank p = false := by
  obtain ⟨range, member, within⟩ := of_memRanges punct
  rw [Bool.eq_false_iff]
  intro blank
  obtain ⟨other, held, inside⟩ := of_memRanges blank
  have apart : ∀ range ∈ punctuation, ∀ other ∈ blankRanges,
      range.2 < other.1 ∨ other.2 < range.1 := by decide
  have := apart range member other held
  omega

theorem capitals_unpunctuated : (capitals.all fun run =>
    punctuation.all fun range => run.imagesMiss range.1 range.2) = true := by
  decide +kernel

theorem image_unpunctuated {n m : Nat} (found : imageIn capitals n = some m) :
    isPunctuation (Char.ofNat m) = false := by
  obtain ⟨run, member, image, -, number⟩ := image_origin found
  have misses := List.all_eq_true.mp capitals_unpunctuated run member
  rw [Bool.eq_false_iff, isPunctuation, number]
  intro punct
  obtain ⟨range, held, within⟩ := of_memRanges punct
  exact image.outside (List.all_eq_true.mp misses range held) within

theorem special_unpunctuated : ∀ form ∈ specialForms, form.any isPunctuation = false := by decide

/-- Lower-casing makes no punctuation. -/
theorem punctuation_lowerAt {before : List Char} {c : Char} {rest : List Char}
    (punct : isPunctuation p) (member : p ∈ lowerAt before c rest) : p = c := by
  rcases lowerAt_cases before c rest with special | ⟨m, found, lowered⟩ | ⟨-, lowered⟩
  · exact absurd punct (List.any_eq_false.mp (special_unpunctuated _ special) p member)
  · rw [lowered, List.mem_singleton] at member
    have plain := image_unpunctuated found
    rw [← member, punct] at plain
    contradiction
  · rwa [lowered, List.mem_singleton] at member

theorem punctuation_lowerFrom {before cs : List Char} (punct : isPunctuation p)
    (member : p ∈ lowerFrom before cs) : p ∈ cs := by
  induction cs generalizing before with
  | nil => exact member
  | cons c rest ih =>
    rw [lowerFrom_cons] at member
    rcases List.mem_append.mp member with here | later
    · rw [punctuation_lowerAt punct here]
      exact List.mem_cons_self
    · exact List.mem_cons_of_mem _ (ih later)

end Text

namespace Key

variable {p : Char} {raw name : String}

/-- A text that can be read back from between separators: it is not empty, has no blank ends and
does not hold the separator. -/
structure Printable (p : Char) (name : String) : Prop where
  some : name ≠ ""
  bare : Text.trim name = name
  absent : p ∉ name.toList

theorem Printable.ne_singleton (printable : Printable p name) : name ≠ .singleton p := by
  rintro rfl
  exact printable.absent (by simp)

def IsSolid (name : String) : Prop :=
  name ≠ "" ∧ Text.trim name = name ∧ name.toList.any Text.isPunctuation = false

instance (name : String) : Decidable (IsSolid name) := inferInstanceAs (Decidable (_ ∧ _ ∧ _))

theorem IsSolid.printable (solid : IsSolid name) (punct : Text.isPunctuation p) :
    Printable p name := by
  obtain ⟨some, bare, plain⟩ := solid
  exact ⟨some, bare, fun member => List.any_eq_false.mp plain p member punct⟩

theorem aliases_solid : ∀ name ∈ aliases.map Prod.snd, IsSolid name := by decide +kernel

theorem functionKeys_solid : ∀ n ∈ List.range' 1 24,
    IsSolid (String.ofList ('F' :: Nat.toDigits 10 n)) := by decide +kernel

theorem Bare.printable (bare : Bare name) (absent : p ∉ name.toList) : Printable p name :=
  ⟨bare.some, trim_of_tight bare.tight, absent⟩

/-- The canonical name of a key holds no punctuation that the key is written without. -/
theorem canonical_printable (punct : Text.isPunctuation p) (some : raw ≠ "")
    (absent : p ∉ raw.toList) : Printable p (canonical raw) := by
  by_cases blank : Text.trim raw = ""
  · rw [canonical_blank blank, if_neg some]
    exact (by decide : IsSolid "Space").printable punct
  · have bare := bare_lower_trim blank
    have within : p ∉ (Text.lower (Text.trim raw)).toList := by
      rw [Text.lower, String.toList_ofList, Text.trim, String.toList_ofList]
      intro member
      exact absent ((Text.trimChars_isInfix _).mem (Text.punctuation_lowerFrom punct member))
    rw [canonical_dark blank]
    rcases ofLower_cases (Text.lower (Text.trim raw)) with
      named | same | ⟨c, last, single⟩ | ⟨n, known, function⟩
    · exact (aliases_solid _ named).printable punct
    · rw [same]
      exact bare.printable within
    · rw [single]
      apply (bare.last last).printable
      rw [String.toList_ofList, List.mem_singleton]
      rintro rfl
      exact within (List.mem_of_getLast? last)
    · rw [function]
      exact (functionKeys_solid n known).printable punct

end Key

namespace Modifiers

theorem names_subset (m : Modifiers) : m.names ⊆ ["ctrl", "shift", "alt", "meta"] := by
  obtain ⟨ctrl, shift, alt, metaKey⟩ := m
  cases ctrl <;> cases shift <;> cases alt <;> cases metaKey <;> decide

theorem flagNames_solid : ∀ name ∈ ["ctrl", "shift", "alt", "meta"],
    Key.IsSolid name ∧ isModifierWord name := by decide

theorem names_solid (m : Modifiers) {name : String} (member : name ∈ m.names) :
    Key.IsSolid name ∧ isModifierWord name := flagNames_solid name (m.names_subset member)

/-- The names of flags stand for the flags, on either platform. -/
theorem union_names (platform : Platform) (m : Modifiers) :
    union platform (m.names.filterMap Modifier.ofToken?) = m := by
  obtain ⟨ctrl, shift, alt, metaKey⟩ := m
  cases platform <;> cases ctrl <;> cases shift <;> cases alt <;> cases metaKey <;> rfl

end Modifiers

namespace Hotkey

variable {p : Char} {platform : Platform} {combination separator key : String}
  {names : List String} {description : Option String}

/-- The tokens that a name is read back from: the separator is between two empty ones. -/
def spread (separator name : String) : List String :=
  if name = separator then ["", ""] else [name]

theorem spread_ne_nil (separator name : String) : spread separator name ≠ [] := by
  unfold spread
  split <;> exact List.cons_ne_nil _ _

theorem joined_spread (p : Char) (name : String) :
    joined p (spread (.singleton p) name) = name := by
  unfold spread joined
  split
  next same => simp [same]
  next => exact String.intercalate_singleton

/-- The names that are shown are the tokens that they are read back from, put together. -/
theorem intercalate_spread (p : Char) (names : List String) :
    (String.singleton p).intercalate names = joined p (names.flatMap (spread (.singleton p))) := by
  induction names with
  | nil => rfl
  | cons name names ih =>
    rw [List.flatMap_cons]
    cases names with
    | nil => rw [List.flatMap_nil, List.append_nil, joined_spread, String.intercalate_singleton]
    | cons next names =>
      have rest : (next :: names).flatMap (spread (.singleton p)) ≠ [] := by
        simp [spread_ne_nil]
      have shown := String.intercalate_append_of_ne_nil (s := .singleton p)
        (spread_ne_nil (.singleton p) name) rest
      rw [← joined, ← joined, ← joined, joined_spread] at shown
      rw [String.intercalate_cons_cons, ih, shown]

/-- Tokens without blank ends are read back as they are. -/
theorem named_bare (dark : Text.isBlank p = false) {tokens : List String}
    (bare : ∀ token ∈ tokens, Text.trim token = token) (absent : ∀ token ∈ tokens, p ∉ token.toList)
    (some : tokens ≠ [""]) : named (joined p tokens) (.singleton p) = tokens := by
  induction tokens using List.bidirectionalRec with
  | nil => rfl
  | singleton token =>
    have filled : token ≠ "" := by
      rintro rfl
      exact some rfl
    rw [named_single (absent token List.mem_cons_self), bare token List.mem_cons_self,
      if_neg filled]
  | cons_append first middle last _ =>
    simp only [List.forall_mem_cons, List.forall_mem_append] at bare
    rw [named_joined dark absent, Text.trimStart_of_trim bare.1, Text.trimEnd_of_trim bare.2.2.1]

/-- Names that are the separator or can stand between separators are read back as their tokens. -/
theorem named_intercalate (dark : Text.isBlank p = false)
    (printable : ∀ name ∈ names, name = .singleton p ∨ Key.Printable p name) :
    named ((String.singleton p).intercalate names) (.singleton p) =
      names.flatMap (spread (.singleton p)) := by
  have read : ∀ token ∈ names.flatMap (spread (.singleton p)),
      token = "" ∨ Key.Printable p token := by
    intro token member
    obtain ⟨name, held, within⟩ := List.mem_flatMap.mp member
    unfold spread at within
    split at within
    · exact .inl (by simpa using within)
    next other =>
      rw [List.mem_singleton] at within
      exact .inr (within ▸ (printable name held).resolve_left other)
  rw [intercalate_spread]
  apply named_bare dark
  · intro token member
    rcases read token member with rfl | printed
    · rfl
    · exact printed.bare
  · intro token member
    rcases read token member with rfl | printed
    · exact List.not_mem_nil
    · exact printed.absent
  -- A lone empty token would be no token at all, but no name is read back as one.
  · intro single
    cases names with
    | nil => contradiction
    | cons name names =>
      rw [List.flatMap_cons, spread] at single
      split at single
      · simp at single
      next other =>
        obtain ⟨empty, -⟩ := List.cons.inj single
        exact ((printable name List.mem_cons_self).resolve_left other).some empty

/-- A canonical name that is no word for a modifier is read as itself. -/
theorem keyOf?_canonical (some : key ≠ "") (plain : isModifierWord key = false)
    (canonical : Key.canonical key = key) : keyOf? separator key = key := by
  rw [keyOf?_some some, plain, canonical]
  rfl

/-- A key is the separator or a canonical name that can stand between separators. -/
theorem key_printable (punct : Text.isPunctuation p)
    (member : key ∈ (compile platform combination (.singleton p) description).keys) :
    key = .singleton p ∨ Key.Printable p key ∧ Key.canonical key = key := by
  obtain ⟨token, held, known⟩ := mem_keys.mp member
  rcases keyOf?_eq_some.mp known with ⟨-, same⟩ | ⟨some, -, rfl⟩
  · exact .inl same.symm
  · exact .inr ⟨Key.canonical_printable punct some (absent_of_mem_named held),
      Key.canonical_canonical token⟩

/-- The text of a hotkey is read back as the names of its flags and the tokens of its keys. -/
theorem named_display (punct : Text.isPunctuation p) (h : Hotkey) (own : h.separator = .singleton p)
    (printable : ∀ key ∈ h.keys, key = .singleton p ∨ Key.Printable p key) :
    named h.display (.singleton p) =
      h.modifiers.names ++ h.keys.flatMap (spread (.singleton p)) := by
  have flags : ∀ name ∈ h.modifiers.names, Key.Printable p name := fun name member =>
    (h.modifiers.names_solid member).1.printable punct
  have single : ∀ name ∈ h.modifiers.names, spread (.singleton p) name = [name] :=
    fun name member => if_neg (flags name member).ne_singleton
  rw [display, own, named_intercalate (Text.isBlank_punctuation punct), List.flatMap_append,
    List.flatMap_congr single, List.flatMap_singleton']
  rw [List.forall_mem_append]
  exact ⟨fun name member => .inr (flags name member), printable⟩

/-- The tokens of a key give that key, once or twice. -/
theorem keys_spread (known : key = separator ∨ key ≠ "" ∧ Key.canonical key = key)
    (plain : isModifierWord key = false) :
    (spread separator key).filterMap (keyOf? separator) = [key] ∨
      (spread separator key).filterMap (keyOf? separator) = [key, key] := by
  unfold spread
  split
  next same => exact .inr (same ▸ rfl)
  next other =>
    obtain ⟨some, canonical⟩ := known.resolve_left other
    left
    rw [List.filterMap_cons, keyOf?_canonical some plain canonical]
    rfl

/-- The tokens of a key that is no word for a modifier are none. -/
theorem modifiers_spread (plain : isModifierWord key = false) :
    ∀ token ∈ spread separator key, Modifier.ofToken? token = none := by
  rw [← Modifier.ofToken?_isSome, Option.isSome_eq_false_iff, Option.isNone_iff_eq_none] at plain
  unfold spread
  split <;> simp [plain, Modifier.ofToken?_empty]

/-- The text of a hotkey is a combination for the same keys and modifiers, on either platform and
also where the separator is a key, unless a key is a word for a modifier. -/
theorem display_read_back (platform again : Platform) (punct : Text.isPunctuation p)
    (combination : String) (description other : Option String) :
    let h := compile platform combination (.singleton p) description
    (∀ key ∈ h.keys, isModifierWord key = false) →
      let g := compile again h.display (.singleton p) other
      g.keys = h.keys ∧ g.modifiers = h.modifiers ∧ g.separator = h.separator := by
  intro h plain g
  have known : ∀ key ∈ h.keys,
      key = .singleton p ∨ Key.Printable p key ∧ Key.canonical key = key := fun key member =>
    key_printable punct member
  have read := named_display punct h rfl fun key member => (known key member).imp_right And.left
  refine ⟨?_, ?_, rfl⟩
  -- The names of flags give no keys, and the tokens of a key no flags.
  · have flags : h.modifiers.names.filterMap (keyOf? (.singleton p)) = [] := by
      rw [List.filterMap_eq_nil_iff]
      intro name member
      obtain ⟨⟨some, -⟩, word⟩ := h.modifiers.names_solid member
      rw [keyOf?_some some, if_pos word]
    have unique : h.keys.Nodup := compile_keys .. ▸ distinct_nodup _
    rw [compile_keys, read, List.filterMap_append, flags, List.nil_append, List.filterMap_flatMap,
      distinct_flatMap, distinct_of_nodup unique]
    intro key member
    apply keys_spread _ (plain key member)
    exact (known key member).imp_right fun ⟨printable, canonical⟩ => ⟨printable.some, canonical⟩
  · have keys : (h.keys.flatMap (spread (.singleton p))).filterMap Modifier.ofToken? = [] := by
      rw [List.filterMap_eq_nil_iff]
      intro token member
      obtain ⟨key, held, within⟩ := List.mem_flatMap.mp member
      exact modifiers_spread (plain key held) token within
    rw [compile_modifiers, read, List.filterMap_append, keys, List.append_nil, Modifiers.foldl_set,
      Modifiers.union_names]

/-- The separator is the second of three keys, so it is shown between two more of itself. -/
theorem display_read_back_sample :
    let h := compile .apple "a++shift+ESC" (.singleton '+') none
    let g := compile .other h.display (.singleton '+') none
    Text.isPunctuation '+' ∧ (∀ key ∈ h.keys, isModifierWord key = false) ∧
      h.display = "shift+a+++Escape" ∧ h.keys = ["a", "+", "Escape"] ∧
      h.modifiers = ⟨false, true, false, false⟩ ∧
      g.keys = h.keys ∧ g.modifiers = h.modifiers ∧ g.separator = h.separator := by
  intro h g
  have punct : Text.isPunctuation '+' = true := rfl
  have keys : h.keys = ["a", "+", "Escape"] := rfl
  have plain : ∀ key ∈ h.keys, isModifierWord key = false := by
    rw [keys]
    simp only [List.forall_mem_cons]
    exact ⟨rfl, rfl, rfl, nofun⟩
  have same := display_read_back .apple .other punct "a++shift+ESC" none none plain
  exact ⟨punct, plain, rfl, keys, rfl, same⟩

end Hotkey

end Keymap
