import Keymap.Options
import Keymap.Proofs.Trimming
import Mathlib.Data.List.Basic

/-! Cutting text at a separator. No piece holds the separator and a text without it stays in one
piece, so every combination of a text is the only combination of itself, and what a text compiles to
is what its combinations compile to, one after the other. -/
namespace Keymap

namespace Text

variable {separator cs piece : List Char}

theorem piecesFrom_ne_nil (separator : List Char) (skip : Nat) (cs : List Char) :
    piecesFrom separator skip cs ≠ [] := by
  induction cs generalizing skip with
  | nil => exact List.cons_ne_nil _ _
  | cons c cs ih =>
    cases skip with
    | succ skip => exact ih skip
    | zero =>
      rw [piecesFrom]
      split
      · exact List.cons_ne_nil _ _
      · cases rest : piecesFrom separator 0 cs with
        | nil => exact absurd rest (ih 0)
        | cons piece pieces => exact List.cons_ne_nil _ _

theorem pieces_of_absent (absent : ¬separator <:+: cs) : pieces separator cs = [cs] := by
  induction cs with
  | nil => rfl
  | cons c cs ih =>
    have here : separator.isPrefixOf (c :: cs) = false := by
      rw [Bool.eq_false_iff, ne_eq, List.isPrefixOf_iff_prefix]
      exact fun front => absent front.isInfix
    have rest := ih fun inside => absent (List.infix_cons inside)
    rw [pieces] at rest ⊢
    simp [piecesFrom, here, rest]

section Single

variable {c : Char}

/-- A single character cuts wherever it stands. -/
theorem pieces_single (c : Char) (cs : List Char) : pieces [c] cs = cs.splitOn c := by
  induction cs with
  | nil => rfl
  | cons d cs ih =>
    rw [List.splitOn_cons_eq_if_modifyHead, ← ih]
    by_cases same : d = c
    · simp [pieces, piecesFrom, same]
    · simp [pieces, piecesFrom, same, Ne.symm same]

theorem pieces_joined {parts : List (List Char)} (some : parts ≠ []) :
    pieces [c] ([c].intercalate parts) = parts.flatMap (pieces [c]) := by
  induction parts with
  | nil => contradiction
  | cons part parts ih =>
    cases parts with
    | nil => simp
    | cons next parts =>
      rw [List.intercalate_cons_cons, List.append_assoc, List.singleton_append, pieces_single,
        List.splitOn_append_cons_self, ← pieces_single, ← pieces_single,
        ih (List.cons_ne_nil next parts), ← List.flatMap_cons]

/-- Pieces that are joined by a character that none of them holds are cut apart again. -/
theorem pieces_intercalate {parts : List (List Char)} (some : parts ≠ [])
    (absent : ∀ part ∈ parts, c ∉ part) : pieces [c] ([c].intercalate parts) = parts := by
  rw [pieces_single, List.splitOn_intercalate c absent some]

/-- What follows a text goes on with its last piece. -/
theorem exists_pieces_append (c : Char) (cs : List Char) :
    ∃ front last, pieces [c] cs = front ++ [last] ∧
      ∀ rest, pieces [c] (cs ++ rest) = front ++ (pieces [c] rest).modifyHead (last ++ ·) := by
  simp only [pieces_single]
  induction cs with
  | nil => exact ⟨[], [], rfl, fun rest => (congrFun List.modifyHead_id _).symm⟩
  | cons d cs ih =>
    obtain ⟨front, last, whole, append⟩ := ih
    simp only [List.cons_append, List.splitOn_cons_eq_if_modifyHead, whole, append]
    split
    · exact ⟨[] :: front, last, rfl, fun rest => rfl⟩
    · cases front with
      | nil => exact ⟨[], d :: last, rfl, fun rest => List.modifyHead_modifyHead⟩
      | cons piece front => exact ⟨(d :: piece) :: front, last, rfl, fun rest => rfl⟩

end Single

theorem head_piece_prefix (separator cs : List Char) :
    ∀ piece ∈ (piecesFrom separator 0 cs).head?, piece <+: cs := by
  induction cs with
  | nil => simp [piecesFrom]
  | cons c cs ih =>
    intro piece first
    rw [piecesFrom] at first
    split at first
    · obtain rfl : [] = piece := by simpa using first
      exact List.nil_prefix
    · rw [List.head?_modifyHead, Option.mem_def, Option.map_eq_some_iff] at first
      obtain ⟨rest, first, rfl⟩ := first
      exact List.cons_prefix_cons.mpr ⟨rfl, ih rest first⟩

/-- Where no occurrence starts, a character goes in front of the first piece, and that piece goes on
as the text does. -/
theorem piecesFrom_cons {c : Char} (other : ¬separator.isPrefixOf (c :: cs)) :
    ∃ first later, piecesFrom separator 0 cs = first :: later ∧
      piecesFrom separator 0 (c :: cs) = (c :: first) :: later ∧ c :: first <+: c :: cs := by
  obtain ⟨first, later, pieces⟩ :=
    List.exists_cons_of_ne_nil (piecesFrom_ne_nil separator 0 cs)
  have front := head_piece_prefix separator cs first (by rw [pieces]; rfl)
  refine ⟨first, later, pieces, ?_, List.cons_prefix_cons.mpr ⟨rfl, front⟩⟩
  rw [piecesFrom, if_neg other, pieces, List.modifyHead_cons]

theorem piece_isInfix {skip : Nat} (member : piece ∈ piecesFrom separator skip cs) :
    piece <:+: cs := by
  induction cs generalizing skip piece with
  | nil =>
    obtain rfl : piece = [] := by simpa [piecesFrom] using member
    exact List.nil_infix
  | cons c cs ih =>
    cases skip with
    | succ skip => exact List.infix_cons (ih member)
    | zero =>
      by_cases found : separator.isPrefixOf (c :: cs)
      · rw [piecesFrom, if_pos found] at member
        rcases List.mem_cons.mp member with rfl | later
        · exact List.nil_infix
        · exact List.infix_cons (ih later)
      · obtain ⟨first, later, pieces, split, front⟩ := piecesFrom_cons found
        rw [split] at member
        rcases List.mem_cons.mp member with rfl | behind
        · exact front.isInfix
        · exact List.infix_cons (ih (pieces ▸ List.mem_cons_of_mem _ behind))

/-- No piece holds the separator, also where occurrences of it overlap. -/
theorem absent_of_mem_piecesFrom (some : separator ≠ []) {skip : Nat}
    (member : piece ∈ piecesFrom separator skip cs) : ¬separator <:+: piece := by
  induction cs generalizing skip piece with
  | nil =>
    obtain rfl : piece = [] := by simpa [piecesFrom] using member
    simpa using some
  | cons c cs ih =>
    cases skip with
    | succ skip => exact ih member
    | zero =>
      by_cases found : separator.isPrefixOf (c :: cs)
      · rw [piecesFrom, if_pos found] at member
        rcases List.mem_cons.mp member with rfl | later
        · simpa using some
        · exact ih later
      · obtain ⟨first, later, pieces, split, front⟩ := piecesFrom_cons found
        rw [split] at member
        rcases List.mem_cons.mp member with rfl | behind
        -- The character in front of the first piece starts no occurrence, for the piece goes on as
        -- the text does.
        · rw [List.infix_cons_iff, not_or]
          refine ⟨fun start => found ?_, ih (pieces ▸ List.mem_cons_self)⟩
          rw [List.isPrefixOf_iff_prefix]
          exact start.trans front
        · exact ih (pieces ▸ List.mem_cons_of_mem _ behind)

end Text

namespace Hotkey

theorem singleton_ne_empty (c : Char) : String.singleton c ≠ "" := by
  intro none
  simpa using congrArg String.toList none

def segments (input separator : String) : List String :=
  if separator = "" then [input] else (Text.pieces separator.toList input.toList).map .ofList

/-- The combinations of a text are its segments without blanks around them, as far as anything is
left of them. -/
theorem split_eq (input separator : String) :
    split input separator = ((segments input separator).map Text.trim).filter (· ≠ "") := by
  have trimmed : String.ofList ∘ Text.trimChars = Text.trim ∘ String.ofList := by
    funext cs
    exact congrArg (String.ofList ∘ Text.trimChars) String.toList_ofList.symm
  have filled : (fun s : String => decide (s ≠ "")) ∘ String.ofList =
      fun cs => decide (cs ≠ []) := by
    funext cs
    simp
  have parts : segments input separator = (if separator = "" then [input.toList]
      else Text.pieces separator.toList input.toList).map .ofList := by
    rw [segments]
    split
    · rw [List.map_singleton, String.ofList_toList]
    · rfl
  rw [split, parts, List.map_map, ← trimmed, ← List.map_map, List.filter_map (p := (· ≠ "")),
    filled]

theorem split_eq_nil {input separator : String} :
    split input separator = [] ↔ ∀ segment ∈ segments input separator, Text.trim segment = "" := by
  rw [split_eq, List.filter_eq_nil_iff, List.forall_mem_map]
  simp

theorem mem_split {input separator s : String} : s ∈ split input separator ↔
    (∃ segment ∈ segments input separator, Text.trim segment = s) ∧ s ≠ "" := by
  rw [split_eq, List.mem_filter, List.mem_map, decide_eq_true_iff]

theorem trim_of_mem_split {input separator s : String} (member : s ∈ split input separator) :
    Text.trim s = s := by
  obtain ⟨⟨segment, -, rfl⟩, -⟩ := mem_split.mp member
  exact Text.trim_trim segment

theorem dark_of_mem_split {input separator s : String} (member : s ∈ split input separator) :
    Text.trim s ≠ "" := by
  rw [trim_of_mem_split member]
  exact (mem_split.mp member).2

theorem absent_of_mem_segments {input separator segment : String} (some : separator ≠ "")
    (member : segment ∈ segments input separator) : ¬separator.toList <:+: segment.toList := by
  rw [segments, if_neg some] at member
  obtain ⟨piece, cut, rfl⟩ := List.mem_map.mp member
  rw [String.toList_ofList]
  exact Text.absent_of_mem_piecesFrom (by simpa using some) cut

theorem absent_of_mem_split {input separator s : String} (some : separator ≠ "")
    (member : s ∈ split input separator) : ¬separator.toList <:+: s.toList := by
  obtain ⟨⟨segment, cut, rfl⟩, -⟩ := mem_split.mp member
  intro inside
  rw [Text.trim, String.toList_ofList] at inside
  exact absent_of_mem_segments some cut (inside.trans (Text.trimChars_isInfix _))

theorem segments_of_absent {s separator : String}
    (absent : separator ≠ "" → ¬separator.toList <:+: s.toList) : segments s separator = [s] := by
  rw [segments]
  split
  · rfl
  next some => rw [Text.pieces_of_absent (absent some), List.map_singleton, String.ofList_toList]

/-- Where the separator does not occur, there is one combination. -/
theorem split_of_absent {s separator : String} (dark : Text.trim s ≠ "")
    (absent : separator ≠ "" → ¬separator.toList <:+: s.toList) :
    split s separator = [Text.trim s] := by
  rw [split_eq, segments_of_absent absent, List.map_singleton]
  exact List.filter_eq_self.mpr (by simpa using dark)

/-- A combination is cut no further, whatever the separator is. -/
theorem split_segment {input separator s : String} (member : s ∈ split input separator) :
    split s separator = [s] := by
  rw [split_of_absent (dark_of_mem_split member) fun some => absent_of_mem_split some member,
    trim_of_mem_split member]

end Hotkey

namespace Options

theorem compile_segments (o : Options) (platform : Platform) (text : String) :
    o.compile platform text = (Hotkey.split text o.splitAt).flatMap (o.compile platform) := by
  have single : ∀ s ∈ Hotkey.split text o.splitAt, o.compile platform s =
      [(Hotkey.compile platform s o.separator o.description).withScopes o.effectiveScopes] := by
    intro s member
    rw [compile, Hotkey.compileAll, Hotkey.split_segment member]
    rfl
  rw [List.flatMap_congr single, compile, Hotkey.compileAll, List.map_map, List.map_eq_flatMap]
  rfl

end Options

end Keymap
