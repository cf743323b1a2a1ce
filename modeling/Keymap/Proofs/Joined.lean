import Keymap.Proofs.Splitting
import Keymap.Proofs.Tokens
import Mathlib.Data.List.Induction
import Mathlib.Data.List.Infix

/-! Combinations that are joined from tokens. Trimming such a text takes blanks off its two ends
only, so the tokens between them are read back as they stand. Blanks around a token do not count,
unless the token is empty: inside a combination it is the separator's key, and with blanks in it the
space key. -/
namespace Keymap

namespace Text

variable {c : Char} {cs rest : List Char}

def trimStart (s : String) : String := .ofList (dropBlankStart s.toList)

def trimEnd (s : String) : String := .ofList (dropBlankEnd s.toList)

theorem dropBlankStart_append_cons (dark : isBlank c = false) (cs rest : List Char) :
    dropBlankStart (cs ++ c :: rest) = dropBlankStart cs ++ c :: rest := by
  induction cs with
  | nil => simp [dropBlankStart, dark]
  | cons d cs ih =>
    unfold dropBlankStart at ih ⊢
    rw [List.cons_append, List.dropWhile_cons, List.dropWhile_cons]
    split
    · exact ih
    · rfl

theorem dropBlankEnd_append_cons (dark : isBlank c = false) (cs rest : List Char) :
    dropBlankEnd (cs ++ c :: rest) = cs ++ c :: dropBlankEnd rest := by
  have back := dropBlankStart_append_cons dark rest.reverse cs.reverse
  unfold dropBlankStart at back
  simp [dropBlankEnd, back]

theorem intercalate_cons {parts : List (List Char)} (some : parts ≠ []) :
    [c].intercalate (cs :: parts) = cs ++ c :: [c].intercalate parts := by
  obtain ⟨part, parts, rfl⟩ := List.exists_cons_of_ne_nil some
  rw [List.intercalate_cons_cons, List.append_assoc, List.singleton_append]

theorem dropBlankEnd_intercalate (dark : isBlank c = false) (inner : List (List Char))
    (last : List Char) : dropBlankEnd ([c].intercalate (inner ++ [last])) =
      [c].intercalate (inner ++ [dropBlankEnd last]) := by
  induction inner with
  | nil => simp
  | cons part inner ih =>
    rw [List.cons_append, intercalate_cons (by simp), dropBlankEnd_append_cons dark, ih,
      List.cons_append, intercalate_cons (by simp)]

/-- Trimming a joined text trims the first part in front and the last part behind. -/
theorem trimChars_intercalate (dark : isBlank c = false) (first : List Char)
    (inner : List (List Char)) (last : List Char) :
    trimChars ([c].intercalate (first :: (inner ++ [last]))) =
      [c].intercalate (dropBlankStart first :: (inner ++ [dropBlankEnd last])) := by
  rw [trimChars, intercalate_cons (by simp), dropBlankStart_append_cons dark,
    dropBlankEnd_append_cons dark, dropBlankEnd_intercalate dark, intercalate_cons (by simp)]

/-- What trimming takes off in front are blanks. -/
theorem padded_trimStart (s : String) : Padded (trimStart s) s := by
  refine ⟨.ofList (s.toList.takeWhile isBlank), "", ?_, nofun, ?_⟩
  · rw [String.toList_ofList]
    exact allBlank_takeWhile _
  · rw [String.append_empty, trimStart, ← String.ofList_append, dropBlankStart,
      List.takeWhile_append_dropWhile, String.ofList_toList]

/-- What trimming takes off behind are blanks. -/
theorem padded_trimEnd (s : String) : Padded (trimEnd s) s := by
  refine ⟨"", .ofList (s.toList.reverse.takeWhile isBlank).reverse, nofun, ?_, ?_⟩
  · rw [String.toList_ofList]
    exact fun c member => allBlank_takeWhile _ c (List.mem_reverse.mp member)
  · rw [String.empty_append, trimEnd, ← String.ofList_append, dropBlankEnd, ← List.reverse_append,
      List.takeWhile_append_dropWhile, List.reverse_reverse, String.ofList_toList]

theorem trimStart_eq_empty {s : String} : trimStart s = "" ↔ trim s = "" := by
  constructor
  · intro none
    rw [(padded_trimStart s).trim, none]
    rfl
  · intro none
    have start := List.dropWhile_eq_nil_iff.mpr (trim_eq_empty.mp none)
    rw [trimStart, dropBlankStart, start]

theorem trimEnd_eq_empty {s : String} : trimEnd s = "" ↔ trim s = "" := by
  constructor
  · intro none
    rw [(padded_trimEnd s).trim, none]
    rfl
  · intro none
    have back : ∀ c ∈ s.toList.reverse, isBlank c := fun c member =>
      trim_eq_empty.mp none c (List.mem_reverse.mp member)
    rw [trimEnd, dropBlankEnd, List.dropWhile_eq_nil_iff.mpr back]
    rfl

theorem trimStart_of_trim {s : String} (bare : trim s = s) : trimStart s = s := by
  rw [trimStart, dropBlankStart, dropWhile_of_head (tight_of_trim bare).head, String.ofList_toList]

theorem trimEnd_of_trim {s : String} (bare : trim s = s) : trimEnd s = s := by
  rw [trimEnd, dropBlankEnd_of_last (tight_of_trim bare).last, String.ofList_toList]

/-- Trimming brings in no character. -/
theorem trimStart_absent {s : String} (absent : c ∉ s.toList) : c ∉ (trimStart s).toList := by
  rw [trimStart, String.toList_ofList]
  exact fun member => absent ((List.dropWhile_suffix isBlank).mem member)

theorem trimEnd_absent {s : String} (absent : c ∉ s.toList) : c ∉ (trimEnd s).toList := by
  rw [trimEnd, String.toList_ofList]
  exact fun member => absent ((dropBlankEnd_isPrefix _).mem member)

end Text

namespace Hotkey

def joined (c : Char) (tokens : List String) : String := (String.singleton c).intercalate tokens

variable {c : Char} {platform : Platform} {separator token other : String}
  {tokens others : List String}

/-- No token holds the separator. -/
theorem absent_of_mem_named {combination : String}
    (member : token ∈ named combination (.singleton c)) : c ∉ token.toList := by
  unfold named Hotkey.tokens at member
  split at member
  · contradiction
  · rw [if_neg (singleton_ne_empty c), String.toList_singleton] at member
    obtain ⟨piece, cut, rfl⟩ := List.mem_map.mp member
    have absent := Text.absent_of_mem_piecesFrom (List.cons_ne_nil c []) cut
    rwa [List.singleton_infix_iff, ← String.toList_ofList (l := piece)] at absent

theorem named_single (absent : c ∉ token.toList) :
    named (joined c [token]) (.singleton c) =
      if Text.trim token = "" then [] else [Text.trim token] := by
  have alone : Text.pieces [c] (Text.trim token).toList = [(Text.trim token).toList] := by
    apply Text.pieces_of_absent
    intro inside
    rw [Text.trim, String.toList_ofList] at inside
    exact absent ((inside.trans (Text.trimChars_isInfix _)).mem (List.mem_singleton_self c))
  rw [joined, String.intercalate_singleton, named]
  split
  · rfl
  · simp [Hotkey.tokens, alone]

theorem trim_joined (dark : Text.isBlank c = false) (first last : String) (inner : List String) :
    Text.trim (joined c (first :: (inner ++ [last]))) =
      joined c (Text.trimStart first :: (inner ++ [Text.trimEnd last])) := by
  apply String.toList_injective
  rw [Text.trim, String.toList_ofList, joined, joined, String.toList_intercalate,
    String.toList_intercalate, String.toList_singleton]
  simpa [Text.trimStart, Text.trimEnd] using Text.trimChars_intercalate dark first.toList
    (inner.map String.toList) last.toList

/-- Tokens that are joined are read back, the outer ones without their outer blanks. -/
theorem named_joined (dark : Text.isBlank c = false) {first last : String} {inner : List String}
    (absent : ∀ token ∈ first :: (inner ++ [last]), c ∉ token.toList) :
    named (joined c (first :: (inner ++ [last]))) (.singleton c) =
      Text.trimStart first :: (inner ++ [Text.trimEnd last]) := by
  let read := Text.trimStart first :: (inner ++ [Text.trimEnd last])
  have parts : (joined c read).toList = [c].intercalate (read.map String.toList) := by
    rw [joined, String.toList_intercalate, String.toList_singleton]
  have within : ∀ part ∈ read.map String.toList, c ∉ part := by
    simp only [read, List.forall_mem_map, List.forall_mem_cons, List.forall_mem_append] at absent ⊢
    obtain ⟨here, middle, behind, -⟩ := absent
    exact ⟨Text.trimStart_absent here, middle, Text.trimEnd_absent behind, nofun⟩
  have some : joined c read ≠ "" := by
    intro none
    rw [none] at parts
    simp [read, Text.intercalate_cons] at parts
  rw [named, trim_joined dark, if_neg some, Hotkey.tokens, if_neg (singleton_ne_empty c),
    trim_joined dark,
    parts, String.toList_singleton, Text.pieces_intercalate (by simp [read]) within, List.map_map]
  exact (List.map_congr_left fun token _ => String.ofList_toList).trans (List.map_id _)

/-- Two tokens that differ in blanks around them, but none of which is empty unless both are. -/
structure Alike (token other : String) : Prop where
  trim : Text.trim other = Text.trim token
  empty : token = "" ↔ other = ""

theorem ofToken?_of_trim (same : Text.trim other = Text.trim token) :
    Modifier.ofToken? other = Modifier.ofToken? token :=
  Modifier.ofToken?_congr (congrArg Text.lower same)

theorem canonical_alike (alike : Alike token other) :
    Key.canonical other = Key.canonical token := by
  by_cases blank : Text.trim token = ""
  · rw [Key.canonical_blank blank, Key.canonical_blank (alike.trim.trans blank)]
    simp only [alike.empty]
  · exact Key.canonical_of_trim_eq alike.trim blank

theorem keyOf?_alike (separator : String) (alike : Alike token other) :
    keyOf? separator other = keyOf? separator token := by
  rw [keyOf?, keyOf?, ofToken?_of_trim alike.trim, canonical_alike alike]
  simp only [alike.empty]

theorem keyOf?_empty : keyOf? separator "" = separator := rfl

/-- Blanks alone are the space key. -/
theorem keyOf?_blank (some : token ≠ "") (blank : Text.trim token = "") :
    keyOf? separator token = "Space" := by
  have plain : Modifier.ofToken? token = Modifier.ofToken? "" := ofToken?_of_trim blank
  rw [keyOf?, if_neg some, plain, Modifier.ofToken?_empty, Key.canonical_blank blank, if_neg some]

def inner (tokens : List String) : List String := tokens.tail.dropLast

/-- A token inside is empty and has got blanks. -/
def Widened (tokens padded : List String) : Prop :=
  ∃ pair ∈ (inner tokens).zip (inner padded), pair.1 = "" ∧ pair.2 ≠ ""

instance (tokens padded : List String) : Decidable (Widened tokens padded) :=
  inferInstanceAs (Decidable
    (∃ pair ∈ (inner tokens).zip (inner padded), pair.1 = "" ∧ pair.2 ≠ ""))

theorem inner_cons_append (first last : String) (middle : List String) :
    inner (first :: (middle ++ [last])) = middle := by
  rw [inner, List.tail_cons, List.dropLast_concat]

theorem alike_trimStart (pads : Text.Padded token other) :
    Alike (Text.trimStart token) (Text.trimStart other) where
  trim := by
    rw [← (Text.padded_trimStart token).trim, ← (Text.padded_trimStart other).trim, pads.trim]
  empty := by rw [Text.trimStart_eq_empty, Text.trimStart_eq_empty, pads.trim]

theorem alike_trimEnd (pads : Text.Padded token other) :
    Alike (Text.trimEnd token) (Text.trimEnd other) where
  trim := by
    rw [← (Text.padded_trimEnd token).trim, ← (Text.padded_trimEnd other).trim, pads.trim]
  empty := by rw [Text.trimEnd_eq_empty, Text.trimEnd_eq_empty, pads.trim]

theorem alike_padded (pads : Text.Padded token other) (kept : token = "" → other = "") :
    Alike token other := by
  refine ⟨pads.trim, kept, ?_⟩
  rintro rfl
  obtain ⟨before, behind, -, -, split⟩ := pads
  have parts := congrArg String.toList split
  simp at parts
  exact parts.2.1

theorem forall₂_concat {R : String → String → Prop} {last : String}
    (related : List.Forall₂ R (tokens ++ [last]) others) :
    ∃ middle behind, others = middle ++ [behind] ∧
      List.Forall₂ R tokens middle ∧ R last behind := by
  rw [← List.forall₂_reverse_iff, List.reverse_append] at related
  obtain ⟨behind, rest, ends, middle, split⟩ := List.forall₂_cons_left_iff.mp related
  refine ⟨rest.reverse, behind, ?_, ?_, ends⟩
  · rw [← List.reverse_reverse others, split, List.reverse_cons]
  · rw [← List.forall₂_reverse_iff, List.reverse_reverse]
    exact middle

theorem forall₂_inner {R : String → String → Prop} (related : List.Forall₂ R tokens others) :
    List.Forall₂ R (inner tokens) (inner others) := by
  have tails := List.forall₂_drop 1 related
  rw [List.drop_one, List.drop_one] at tails
  rw [inner, inner, List.dropLast_eq_take, List.dropLast_eq_take, tails.length_eq]
  exact List.forall₂_take _ tails

/-- What is read of tokens and of the same tokens with blanks around them is related token by token
as soon as the tokens inside are. -/
theorem named_related (dark : Text.isBlank c = false) {padded : List String}
    (absent : ∀ token ∈ tokens, c ∉ token.toList) (pads : List.Forall₂ Text.Padded tokens padded)
    {R : String → String → Prop} (alike : ∀ token other, Alike token other → R token other)
    (middle : ∀ pair ∈ (inner tokens).zip (inner padded), R pair.1 pair.2) :
    List.Forall₂ R (named (joined c tokens) (.singleton c))
      (named (joined c padded) (.singleton c)) := by
  have absentPadded := Text.padded_absent dark absent pads
  -- Only the outer tokens lose blanks, so the list is taken apart at both of its ends.
  induction tokens using List.bidirectionalRec with
  | nil =>
    obtain rfl := List.forall₂_nil_left_iff.mp pads
    exact .nil
  | singleton token =>
    obtain ⟨other, _, around, none, rfl⟩ := List.forall₂_cons_left_iff.mp pads
    obtain rfl := List.forall₂_nil_left_iff.mp none
    rw [named_single (absent token List.mem_cons_self),
      named_single (absentPadded other List.mem_cons_self), around.trim]
    split
    · exact .nil
    · exact .cons (alike _ _ ⟨rfl, Iff.rfl⟩) .nil
  | cons_append first between last _ =>
    obtain ⟨start, _, before, rest, rfl⟩ := List.forall₂_cons_left_iff.mp pads
    obtain ⟨others, behind, rfl, inside, ending⟩ := forall₂_concat rest
    rw [inner_cons_append, inner_cons_append] at middle
    rw [named_joined dark absent, named_joined dark absentPadded]
    have related : List.Forall₂ R between others :=
      List.forall₂_iff_zip.mpr ⟨inside.length_eq, fun member => middle _ member⟩
    have tail : List.Forall₂ R [Text.trimEnd last] [Text.trimEnd behind] :=
      .cons (alike _ _ (alike_trimEnd ending)) .nil
    exact .cons (alike _ _ (alike_trimStart before)) (List.rel_append related tail)

theorem inner_subset_named (dark : Text.isBlank c = false)
    (absent : ∀ token ∈ tokens, c ∉ token.toList) :
    ∀ token ∈ inner tokens, token ∈ named (joined c tokens) (.singleton c) := by
  intro token member
  induction tokens using List.bidirectionalRec with
  | nil => contradiction
  | singleton => contradiction
  | cons_append first between last _ =>
    rw [inner_cons_append] at member
    rw [named_joined dark absent]
    exact List.mem_cons_of_mem _ (List.mem_append_left _ member)

theorem filterMap_related {f : String → Option α}
    (same : List.Forall₂ (fun token other => f other = f token) tokens others) :
    others.filterMap f = tokens.filterMap f := by
  induction same with
  | nil => rfl
  | cons here _ ih => rw [List.filterMap_cons, List.filterMap_cons, here, ih]

section Padding

variable {padded : List String} (dark : Text.isBlank c = false)
  (absent : ∀ token ∈ tokens, c ∉ token.toList) (pads : List.Forall₂ Text.Padded tokens padded)

include pads in
theorem padded_inner :
    ∀ pair ∈ (inner tokens).zip (inner padded), Text.Padded pair.1 pair.2 :=
  fun _ member => List.forall₂_zip (forall₂_inner pads) member

include pads in
/-- A token inside with blanks around it is read as without them, unless it is empty; then it holds
blanks alone. -/
theorem padded_cases {pair : String × String} (member : pair ∈ (inner tokens).zip (inner padded)) :
    Alike pair.1 pair.2 ∨ pair.1 = "" ∧ pair.2 ≠ "" ∧ Text.trim pair.2 = "" := by
  have around := padded_inner pads pair member
  by_cases widened : pair.1 = "" ∧ pair.2 ≠ ""
  · refine .inr ⟨widened.1, widened.2, ?_⟩
    rw [around.trim, widened.1]
    rfl
  · exact .inl (alike_padded around (by simpa using widened))

include dark absent pads

theorem padded_modifiers :
    (named (joined c padded) (.singleton c)).filterMap Modifier.ofToken? =
      (named (joined c tokens) (.singleton c)).filterMap Modifier.ofToken? := by
  apply filterMap_related
  apply named_related dark absent pads
  · exact fun _ _ alike => ofToken?_of_trim alike.trim
  · exact fun pair member => ofToken?_of_trim (padded_inner pads pair member).trim

theorem padded_keys (kept : ¬Widened tokens padded) :
    (named (joined c padded) (.singleton c)).filterMap (keyOf? separator) =
      (named (joined c tokens) (.singleton c)).filterMap (keyOf? separator) := by
  apply filterMap_related
  apply named_related dark absent pads
  · exact fun _ _ => keyOf?_alike separator
  · intro pair member
    rcases padded_cases pads member with alike | ⟨empty, blanks, -⟩
    · exact keyOf?_alike separator alike
    · exact absurd ⟨pair, member, empty, blanks⟩ kept

theorem space_read (widened : Widened tokens padded) :
    ∃ token ∈ named (joined c padded) (.singleton c), keyOf? separator token = "Space" := by
  obtain ⟨pair, member, empty, blanks⟩ := widened
  rcases padded_cases pads member with alike | ⟨-, -, blank⟩
  · exact absurd (alike.empty.mp empty) blanks
  · exact ⟨pair.2, inner_subset_named dark (Text.padded_absent dark absent pads) pair.2
      (List.of_mem_zip member).2, keyOf?_blank blanks blank⟩

/-- Blanks in an empty token replace the separator by the space key and leave the rest. -/
theorem padded_rest :
    ((named (joined c padded) (.singleton c)).filterMap (keyOf? separator)).filter
        (· ∉ [separator, "Space"]) =
      ((named (joined c tokens) (.singleton c)).filterMap (keyOf? separator)).filter
        (· ∉ [separator, "Space"]) := by
  rw [List.filter_filterMap, List.filter_filterMap]
  apply filterMap_related
  apply named_related dark absent pads
  · exact fun _ _ alike => congrArg (Option.filter _) (keyOf?_alike separator alike)
  · intro pair member
    rcases padded_cases pads member with alike | ⟨empty, blanks, blank⟩
    · exact congrArg (Option.filter _) (keyOf?_alike separator alike)
    · simp [empty, keyOf?_empty, keyOf?_blank blanks blank, Option.filter]

end Padding

/-- Blanks around the tokens of a combination never change its modifiers. They change its keys only
where they are put into an empty token inside, which then is the space key instead of the
separator; empty tokens at the two ends may have blanks, and all other keys stay in their order. -/
theorem blanks_around_tokens (platform : Platform) (dark : Text.isBlank c = false)
    {tokens padded : List String} (absent : ∀ token ∈ tokens, c ∉ token.toList)
    (pads : List.Forall₂ Text.Padded tokens padded) (description : Option String) :
    let bare := compile platform (joined c tokens) (.singleton c) description
    let wide := compile platform (joined c padded) (.singleton c) description
    wide.modifiers = bare.modifiers ∧
      (¬Widened tokens padded → wide.keys = bare.keys) ∧
      (Widened tokens padded → "Space" ∈ wide.keys) ∧
      wide.keys.filter (· ∉ [.singleton c, "Space"]) =
        bare.keys.filter (· ∉ [.singleton c, "Space"]) := by
  intro bare wide
  refine ⟨?_, ?_, ?_, ?_⟩
  · rw [compile_modifiers, compile_modifiers, padded_modifiers dark absent pads]
  · intro kept
    rw [compile_keys, compile_keys, padded_keys dark absent pads kept]
  · exact fun widened => mem_keys.mpr (space_read dark absent pads widened)
  · rw [compile_keys, compile_keys, distinct_filter, distinct_filter, padded_rest dark absent pads]

/-- An empty token at the end may have blanks, also beside one inside that has none. -/
theorem blanks_around_tokens_sample :
    let bare := compile .apple (joined '+' ["mod", "", ""]) (.singleton '+') none
    let wide := compile .apple (joined '+' ["\tmod ", "", "  "]) (.singleton '+') none
    Text.isBlank '+' = false ∧ (∀ token ∈ ["mod", "", ""], '+' ∉ token.toList) ∧
      List.Forall₂ Text.Padded ["mod", "", ""] ["\tmod ", "", "  "] ∧
      ¬Widened ["mod", "", ""] ["\tmod ", "", "  "] ∧
      bare.keys = ["+"] ∧ bare.modifiers = ⟨false, false, false, true⟩ ∧
      wide.keys = bare.keys ∧ wide.modifiers = bare.modifiers := by
  intro bare wide
  have dark : Text.isBlank '+' = false := rfl
  have absent : ∀ token ∈ ["mod", "", ""], '+' ∉ token.toList := by decide
  have pads : List.Forall₂ Text.Padded ["mod", "", ""] ["\tmod ", "", "  "] :=
    .cons ⟨"\t", " ", by decide, by decide, rfl⟩
      (.cons ⟨"", "", by decide, by decide, rfl⟩ (.cons ⟨"", "  ", by decide, by decide, rfl⟩ .nil))
  have kept : ¬Widened ["mod", "", ""] ["\tmod ", "", "  "] := by decide
  obtain ⟨modifiers, keys, -⟩ := blanks_around_tokens .apple dark absent pads none
  exact ⟨dark, absent, pads, kept, rfl, rfl, keys kept, modifiers⟩

/-- With a blank in it, the empty token of `a++b` is no longer the separator. -/
theorem widened_separator_is_space :
    List.Forall₂ Text.Padded ["a", "", "b"] ["a", " ", "b"] ∧
      (compile .other (joined '+' ["a", "", "b"]) "+" none).keys = ["a", "+", "b"] ∧
      (compile .other (joined '+' ["a", " ", "b"]) "+" none).keys = ["a", "Space", "b"] := by
  have same (s : String) : Text.Padded s s := ⟨"", "", nofun, nofun, by simp⟩
  have blank : Text.Padded "" " " := ⟨" ", "", by decide, nofun, rfl⟩
  exact ⟨.cons (same "a") (.cons blank (.cons (same "b") .nil)), rfl, rfl⟩

end Hotkey

end Keymap
