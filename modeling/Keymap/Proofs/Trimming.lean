import Keymap.Text.Basic
import Mathlib.Data.List.Forall2
import Mathlib.Data.List.TakeWhile

/-! Text without blank ends. Trimming takes off the blanks at both ends, and nothing else: what is
left is part of the text, has no blank ends, and is the same whatever blanks stood around it. -/
namespace Keymap.Text

variable {cs left right : List Char}

def AllBlank (cs : List Char) : Prop := ∀ c ∈ cs, isBlank c

instance (cs : List Char) : Decidable (AllBlank cs) := List.decidableBAll _ cs

structure Tight (cs : List Char) : Prop where
  head : ∀ c ∈ cs.head?, isBlank c = false
  last : ∀ c ∈ cs.getLast?, isBlank c = false

theorem dropWhile_of_head {p : Char → Bool} (stop : ∀ c ∈ cs.head?, p c = false) :
    cs.dropWhile p = cs := by
  cases cs with
  | nil => rfl
  | cons c cs => simp [stop c rfl]

theorem dropBlankEnd_append (blank : AllBlank right) :
    dropBlankEnd (cs ++ right) = dropBlankEnd cs := by
  have back : ∀ c ∈ right.reverse, isBlank c := fun c member =>
    blank c (List.mem_reverse.mp member)
  rw [dropBlankEnd, List.reverse_append, List.dropWhile_append_of_pos back, dropBlankEnd]

theorem dropBlankEnd_of_last (stop : ∀ c ∈ cs.getLast?, isBlank c = false) :
    dropBlankEnd cs = cs := by
  have back : ∀ c ∈ cs.reverse.head?, isBlank c = false := by
    rw [List.head?_reverse]
    exact stop
  rw [dropBlankEnd, dropWhile_of_head back, List.reverse_reverse]

theorem trimChars_of_tight (tight : Tight cs) : trimChars cs = cs := by
  rw [trimChars, dropBlankStart, dropWhile_of_head tight.head, dropBlankEnd_of_last tight.last]

theorem trimChars_padded (before : AllBlank left) (tight : Tight cs) (behind : AllBlank right) :
    trimChars (left ++ cs ++ right) = cs := by
  rw [trimChars, dropBlankStart, List.append_assoc, List.dropWhile_append_of_pos before]
  cases cs with
  | nil =>
    rw [List.nil_append, ← List.append_nil right, List.dropWhile_append_of_pos behind]
    rfl
  | cons c cs =>
    have kept : (c :: cs ++ right).dropWhile isBlank = c :: cs ++ right :=
      dropWhile_of_head tight.head
    have same := trimChars_of_tight tight
    rw [trimChars, dropBlankStart, dropWhile_of_head tight.head] at same
    rw [kept, dropBlankEnd_append behind, same]

theorem dropBlankEnd_isPrefix (cs : List Char) : dropBlankEnd cs <+: cs := by
  have suffix := List.dropWhile_suffix (l := cs.reverse) isBlank
  rw [dropBlankEnd]
  simpa using List.reverse_prefix.mpr suffix

theorem trimChars_isInfix (cs : List Char) : trimChars cs <:+: cs :=
  (dropBlankEnd_isPrefix _).isInfix.trans (List.dropWhile_suffix isBlank).isInfix

theorem trimChars_tight (cs : List Char) : Tight (trimChars cs) := by
  refine ⟨?_, ?_⟩
  · intro c first
    obtain ⟨rest, split⟩ := dropBlankEnd_isPrefix (dropBlankStart cs)
    have start : c ∈ (cs.dropWhile isBlank).head? := by
      rw [← dropBlankStart, ← split, List.head?_append, Option.mem_def]
      rw [trimChars, Option.mem_def] at first
      rw [first, Option.some_or]
    have dark := List.head?_dropWhile_not isBlank cs
    rw [Option.mem_def.mp start] at dark
    exact dark
  · intro c last
    have dark := List.head?_dropWhile_not isBlank (dropBlankStart cs).reverse
    rw [trimChars, dropBlankEnd, List.getLast?_reverse] at last
    rw [Option.mem_def.mp last] at dark
    exact dark

theorem trim_trim (s : String) : trim (trim s) = trim s := by
  rw [trim, trim, String.toList_ofList, trimChars_of_tight (trimChars_tight _)]

/-- A text that trimming leaves as it is has no blank ends. -/
theorem tight_of_trim {s : String} (bare : trim s = s) : Tight s.toList := by
  rw [← bare, trim, String.toList_ofList]
  exact trimChars_tight s.toList

theorem trim_padded {before s behind : String} (blank : AllBlank before.toList)
    (tight : Tight s.toList) (blankEnd : AllBlank behind.toList) :
    trim (before ++ s ++ behind) = s := by
  rw [trim, String.toList_append, String.toList_append, trimChars_padded blank tight blankEnd,
    String.ofList_toList]

def Padded (s padded : String) : Prop :=
  ∃ before behind : String, AllBlank before.toList ∧ AllBlank behind.toList ∧
    padded = before ++ s ++ behind

theorem allBlank_takeWhile (cs : List Char) : AllBlank (cs.takeWhile isBlank) :=
  fun c member => List.all_eq_true.mp List.all_takeWhile c member

/-- Trimming takes off a blank start and a blank end. -/
theorem trimChars_split (cs : List Char) :
    ∃ left right, AllBlank left ∧ AllBlank right ∧ cs = left ++ trimChars cs ++ right := by
  let bare := dropBlankStart cs
  refine ⟨cs.takeWhile isBlank, (bare.reverse.takeWhile isBlank).reverse, allBlank_takeWhile cs,
    ?_, ?_⟩
  · intro c member
    exact allBlank_takeWhile _ c (List.mem_reverse.mp member)
  · have ending : trimChars cs ++ (bare.reverse.takeWhile isBlank).reverse = bare := by
      rw [trimChars, dropBlankEnd, ← List.reverse_append, List.takeWhile_append_dropWhile,
        List.reverse_reverse]
    rw [List.append_assoc, ending]
    exact List.takeWhile_append_dropWhile.symm

theorem padded_trim (s : String) : Padded (trim s) s := by
  obtain ⟨left, right, before, behind, split⟩ := trimChars_split s.toList
  refine ⟨.ofList left, .ofList right, by simpa using before, by simpa using behind, ?_⟩
  rw [trim, ← String.ofList_append, ← String.ofList_append, ← split, String.ofList_toList]

/-- Blanks around a text are taken off with its own. -/
theorem trimChars_around (before : AllBlank left) (cs : List Char) (behind : AllBlank right) :
    trimChars (left ++ cs ++ right) = trimChars cs := by
  obtain ⟨start, ending, blankStart, blankEnding, split⟩ := trimChars_split cs
  have around : left ++ cs ++ right = (left ++ start) ++ trimChars cs ++ (ending ++ right) := by
    conv => lhs; rw [split]
    simp only [List.append_assoc]
  rw [around]
  exact trimChars_padded (List.forall_mem_append.mpr ⟨before, blankStart⟩) (trimChars_tight cs)
    (List.forall_mem_append.mpr ⟨blankEnding, behind⟩)

theorem trim_eq_empty {s : String} : trim s = "" ↔ AllBlank s.toList := by
  constructor
  · intro none
    obtain ⟨left, right, before, behind, split⟩ := trimChars_split s.toList
    have bare : trimChars s.toList = [] := by simpa [trim] using none
    rw [split, bare, List.append_nil]
    exact List.forall_mem_append.mpr ⟨before, behind⟩
  · intro blank
    have start : dropBlankStart s.toList = [] := List.dropWhile_eq_nil_iff.mpr blank
    rw [trim, trimChars, start]
    rfl

theorem Padded.absent {s padded : String} {c : Char} (pads : Padded s padded)
    (dark : isBlank c = false) (absent : c ∉ s.toList) : c ∉ padded.toList := by
  obtain ⟨before, behind, blank, blankEnd, rfl⟩ := pads
  simp only [String.toList_append, List.mem_append, not_or]
  refine ⟨⟨fun member => ?_, absent⟩, fun member => ?_⟩
  · exact Bool.false_ne_true (dark.symm.trans (blank c member))
  · exact Bool.false_ne_true (dark.symm.trans (blankEnd c member))

theorem Padded.trim {s padded : String} (pads : Padded s padded) : trim padded = trim s := by
  obtain ⟨before, behind, blank, blankEnd, rfl⟩ := pads
  rw [Text.trim, Text.trim, String.toList_append, String.toList_append,
    trimChars_around blank _ blankEnd]

theorem padded_absent {c : Char} {texts padded : List String} (dark : isBlank c = false)
    (absent : ∀ s ∈ texts, c ∉ s.toList) (pads : List.Forall₂ Padded texts padded) :
    ∀ s ∈ padded, c ∉ s.toList := by
  induction pads with
  | nil => nofun
  | cons pads _ ih =>
    obtain ⟨here, later⟩ := List.forall_mem_cons.mp absent
    exact List.forall_mem_cons.mpr ⟨pads.absent dark here, ih later⟩

end Keymap.Text
