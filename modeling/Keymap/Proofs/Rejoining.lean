import Keymap.Proofs.Splitting
import Mathlib.Data.List.Infix

/-! Combinations that are joined again. A text is cut into combinations that are cut no further, and
at a single character the joined combinations are cut into themselves again, whatever blanks stand
around them and between them, also where the character is a blank itself. -/
namespace Keymap

namespace Text

variable {c : Char} {cs left right : List Char} {parts : List (List Char)}

def filled (parts : List (List Char)) : List (List Char) := (parts.map trimChars).filter (· ≠ [])

theorem filled_append (parts others : List (List Char)) :
    filled (parts ++ others) = filled parts ++ filled others := by
  rw [filled, List.map_append, List.filter_append, filled, filled]

theorem trimChars_blank (blank : AllBlank cs) : trimChars cs = [] := by
  have bare := trimChars_around blank [] (List.forall_mem_nil _)
  rwa [List.append_nil, List.append_nil] at bare

theorem filled_blank (blank : ∀ part ∈ parts, AllBlank part) : filled parts = [] := by
  rw [filled, List.filter_eq_nil_iff, List.forall_mem_map]
  intro part member
  simp [trimChars_blank (blank part member)]

theorem filled_around (before : AllBlank left) (cs : List Char) (behind : AllBlank right) :
    filled [left ++ cs ++ right] = filled [cs] := by
  rw [filled, filled, List.map_singleton, List.map_singleton, trimChars_around before cs behind]

theorem pieces_blank (blank : AllBlank cs) : ∀ piece ∈ pieces [c] cs, AllBlank piece :=
  fun _ member d held => blank d ((piece_isInfix member).mem held)

/-- Where two texts meet, the last piece of the one and the first of the other are a single piece. -/
theorem filled_pieces_append (c : Char) (cs rest : List Char) :
    ∃ front last first behind, pieces [c] cs = front ++ [last] ∧ pieces [c] rest = first :: behind ∧
      filled (pieces [c] (cs ++ rest)) = filled front ++ filled [last ++ first] ++ filled behind := by
  obtain ⟨front, last, whole, append⟩ := exists_pieces_append c cs
  obtain ⟨first, behind, split⟩ := List.exists_cons_of_ne_nil (piecesFrom_ne_nil [c] 0 rest)
  refine ⟨front, last, first, behind, whole, split, ?_⟩
  rw [append, pieces, split, List.modifyHead_cons, ← filled_append, ← filled_append,
    List.append_assoc, List.singleton_append]

/-- Of blanks in front, those behind the last cut stand around the first piece, and the others are
pieces of their own. -/
theorem filled_pieces_left (before : AllBlank left) (cs : List Char) :
    filled (pieces [c] (left ++ cs)) = filled (pieces [c] cs) := by
  obtain ⟨front, last, first, behind, whole, split, append⟩ := filled_pieces_append c left cs
  have blank := pieces_blank (c := c) before
  rw [whole, List.forall_mem_append] at blank
  have bare := filled_around (blank.2 last (List.mem_singleton_self last)) first
    (List.forall_mem_nil _)
  rw [List.append_nil] at bare
  rw [append, filled_blank blank.1, List.nil_append, bare, ← filled_append, List.singleton_append,
    split]

theorem filled_pieces_right (cs : List Char) (behind : AllBlank right) :
    filled (pieces [c] (cs ++ right)) = filled (pieces [c] cs) := by
  obtain ⟨front, last, first, others, whole, split, append⟩ := filled_pieces_append c cs right
  have blank := pieces_blank (c := c) behind
  rw [split, List.forall_mem_cons] at blank
  have bare := filled_around (List.forall_mem_nil _) last blank.1
  rw [List.nil_append] at bare
  rw [append, filled_blank blank.2, List.append_nil, bare, ← filled_append, whole]

end Text

namespace Hotkey

variable {c : Char} {s text : String} {parts texts : List String}

theorem split_filled (input : String) (c : Char) : split input (.singleton c) =
    (Text.filled (Text.pieces [c] input.toList)).map .ofList := by
  rw [split, if_neg (singleton_ne_empty c), String.toList_singleton, Text.filled]

/-- At a single character, blanks around a text make no combinations. -/
theorem split_padded (pads : Text.Padded s text) :
    split text (.singleton c) = split s (.singleton c) := by
  obtain ⟨before, behind, blank, blankEnd, rfl⟩ := pads
  rw [split_filled, split_filled, String.toList_append, String.toList_append,
    Text.filled_pieces_right _ blankEnd, Text.filled_pieces_left blank]

theorem split_blank (blank : Text.AllBlank text.toList) : split text (.singleton c) = [] := by
  rw [split_filled, Text.filled_blank (Text.pieces_blank blank), List.map_nil]

theorem singleton_infix : (String.singleton c).toList <:+: s.toList ↔ c ∈ s.toList := by
  rw [String.toList_singleton, List.singleton_infix_iff]

/-- The combinations of texts that are joined by a character are those of the texts. -/
theorem split_intercalate (c : Char) (texts : List String) :
    split ((String.singleton c).intercalate texts) (.singleton c) =
      texts.flatMap (split · (.singleton c)) := by
  by_cases none : texts = []
  · have blank : Text.AllBlank "".toList := nofun
    rw [none, String.intercalate_nil, split_blank blank, List.flatMap_nil]
  · have parts : Text.pieces [c] ((String.singleton c).intercalate texts).toList =
        texts.flatMap fun text => Text.pieces [c] text.toList := by
      rw [String.toList_intercalate, String.toList_singleton, Text.pieces_joined (by simpa using none),
        List.flatMap_map]
    simp only [split_filled, parts, Text.filled, List.map_flatMap, List.filter_flatMap]

/-- Texts that are the parts with blanks around them, and blanks between them. -/
inductive Spaced : List String → List String → Prop where
  | nil : Spaced [] []
  | part {s text : String} {parts texts : List String} (pads : Text.Padded s text)
      (rest : Spaced parts texts) : Spaced (s :: parts) (text :: texts)
  | blank {text : String} {parts texts : List String} (blank : Text.AllBlank text.toList)
      (rest : Spaced parts texts) : Spaced parts (text :: texts)

theorem Spaced.of_forall₂ (padded : List.Forall₂ Text.Padded parts texts) : Spaced parts texts := by
  induction padded with
  | nil => exact .nil
  | cons pads _ ih => exact .part pads ih

theorem Spaced.split (spaced : Spaced parts texts)
    (plain : ∀ s ∈ parts, Text.trim s ≠ "" ∧ c ∉ s.toList) :
    split ((String.singleton c).intercalate texts) (.singleton c) = parts.map Text.trim := by
  rw [split_intercalate]
  induction spaced with
  | nil => rfl
  | part pads _ ih =>
    obtain ⟨⟨dark, absent⟩, later⟩ := List.forall_mem_cons.mp plain
    have alone := split_of_absent dark fun _ => singleton_infix.not.mpr absent
    rw [List.flatMap_cons, split_padded pads, alone, ih later, List.map_cons, List.singleton_append]
  | blank blank _ ih => rw [List.flatMap_cons, split_blank blank, ih plain, List.nil_append]

theorem Spaced.split_bare (spaced : Spaced parts texts)
    (bare : ∀ s ∈ parts, s ≠ "" ∧ Text.trim s = s ∧ c ∉ s.toList) :
    Hotkey.split ((String.singleton c).intercalate texts) (.singleton c) = parts := by
  have same : parts.map Text.trim = parts :=
    (List.map_congr_left fun s member => (bare s member).2.1).trans (List.map_id _)
  refine (spaced.split fun s member => ?_).trans same
  obtain ⟨some, tight, absent⟩ := bare s member
  exact ⟨tight.symm ▸ some, absent⟩

theorem Spaced.refl (texts : List String) : Spaced texts texts := by
  apply Spaced.of_forall₂
  exact List.forall₂_same.mpr fun s _ => ⟨"", "", nofun, nofun, by simp⟩

/-- What a text is cut into is a normal form. Every combination is a text without blank ends that is
its own only combination, whatever the separator is. At a single character, combinations that are
joined are read back from whatever blanks stand around them and between them; so cutting the
combinations of a text once more, when they are joined, gives the same ones. -/
theorem split_normal :
    (∀ input separator, ∀ s ∈ split input separator,
      s ≠ "" ∧ Text.trim s = s ∧ split s separator = [s]) ∧
    (∀ c parts texts, (∀ s ∈ parts, s ≠ "" ∧ Text.trim s = s ∧ c ∉ s.toList) →
      Spaced parts texts →
      split ((String.singleton c).intercalate texts) (.singleton c) = parts) ∧
    ∀ c input, split ((String.singleton c).intercalate (split input (.singleton c))) (.singleton c) =
      split input (.singleton c) := by
  have bare (c : Char) (input : String) :
      ∀ s ∈ split input (.singleton c), s ≠ "" ∧ Text.trim s = s ∧ c ∉ s.toList := by
    intro s member
    have absent := absent_of_mem_split (singleton_ne_empty c) member
    exact ⟨(mem_split.mp member).2, trim_of_mem_split member, singleton_infix.not.mp absent⟩
  refine ⟨?_, fun c parts texts bare spaced => spaced.split_bare bare, ?_⟩
  · intro input separator s member
    exact ⟨(mem_split.mp member).2, trim_of_mem_split member, split_segment member⟩
  · intro c input
    exact (Spaced.refl _).split_bare (bare c input)

/-- The separator overlaps itself in the first text. In the second one it is a blank, like some of
what stands around the combinations. -/
theorem split_normal_sample :
    split "a-----b" "--" = ["a", "-b"] ∧ split "-b" "--" = ["-b"] ∧
    Spaced ["a", "ctrl+\tb"] [" \t", "\t a ", "", "ctrl+\tb "] ∧
    split ((String.singleton ' ').intercalate [" \t", "\t a ", "", "ctrl+\tb "]) (.singleton ' ') =
      ["a", "ctrl+\tb"] := by
  obtain ⟨normal, joined, -⟩ := split_normal
  have cut : split "a-----b" "--" = ["a", "-b"] := by decide
  have member : "-b" ∈ split "a-----b" "--" := by decide
  have spaced : Spaced ["a", "ctrl+\tb"] [" \t", "\t a ", "", "ctrl+\tb "] :=
    .blank (by decide) (.part ⟨"\t ", " ", by decide, by decide, rfl⟩
      (.blank (by decide) (.part ⟨"", " ", by decide, by decide, rfl⟩ .nil)))
  have bare : ∀ s ∈ ["a", "ctrl+\tb"], s ≠ "" ∧ Text.trim s = s ∧ ' ' ∉ s.toList := by
    simp only [List.forall_mem_cons]
    exact ⟨by decide, by decide, nofun⟩
  exact ⟨cut, (normal _ _ _ member).2.2, spaced, joined ' ' _ _ bare spaced⟩

end Hotkey

end Keymap
