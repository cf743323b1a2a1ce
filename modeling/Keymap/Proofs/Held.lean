import Keymap.Proofs.Client
import Keymap.Proofs.Naming
import Keymap.Proofs.Rejoining
import Mathlib.Data.List.Forall2
import Mathlib.Data.List.Induction
import Mathlib.Data.Nat.Find

/-! The held keys are what the history of events says: the keys that went down and have not been
given up since, in the order in which they went down. Whether keys are held can be asked by any of
their names, and for several keys at once. -/
namespace Keymap

variable {κ : Type}

namespace Operation

def pressed? : Operation κ → Option String
  | .handle event => if event.phase = .down then some event.canonicalKey else none
  | _ => none

/-- An operation gives up a key: the key comes up, or the meta key does, or all keys are
forgotten. -/
def releases (key : String) : Operation κ → Bool
  | .handle event => event.phase = .up && (event.canonicalKey = key || event.canonicalKey = "meta")
  | .clearHeld => true
  | _ => false

theorem releases_of_pressed {op : Operation κ} {pressed : String}
    (press : op.pressed? = some pressed) (key : String) : op.releases key = false := by
  cases op with
  | handle event =>
    have down : event.phase = .down := by
      by_contra up
      simp [pressed?, up] at press
    simp [releases, down]
  | _ => contradiction

end Operation

/-- The operation at a position of a run brings a key down, and none behind it gives the key up. -/
structure HeldSince (ops : List (Operation κ)) (key : String) (i : Nat) : Prop where
  pressed : ops[i]?.bind Operation.pressed? = some key
  kept : ∀ op ∈ ops.drop (i + 1), op.releases key = false

def FirstHeldSince (ops : List (Operation κ)) (key : String) (i : Nat) : Prop :=
  HeldSince ops key i ∧ ∀ j < i, ¬HeldSince ops key j

section Snoc

variable {ops : List (Operation κ)} {op : Operation κ} {key : String} {i : Nat}

theorem HeldSince.lt (since : HeldSince ops key i) : i < ops.length := by
  by_contra beyond
  have none := since.pressed
  rw [List.getElem?_eq_none (Nat.not_lt.mp beyond)] at none
  contradiction

/-- One more operation gives a key up, or presses it, or leaves it as it is. -/
theorem heldSince_snoc : HeldSince (ops ++ [op]) key i ↔
    (HeldSince ops key i ∧ op.releases key = false) ∨
      (i = ops.length ∧ op.pressed? = some key) := by
  rcases Nat.lt_trichotomy i ops.length with before | rfl | beyond
  · have rest : (ops ++ [op]).drop (i + 1) = ops.drop (i + 1) ++ [op] :=
      List.drop_append_of_le_length before
    constructor
    · rintro ⟨pressed, kept⟩
      rw [List.getElem?_append_left before] at pressed
      rw [rest, List.forall_mem_append] at kept
      exact .inl ⟨⟨pressed, kept.1⟩, kept.2 op (List.mem_singleton_self op)⟩
    · rintro (⟨⟨pressed, kept⟩, unreleased⟩ | ⟨same, -⟩)
      · refine ⟨by rwa [List.getElem?_append_left before], ?_⟩
        rw [rest, List.forall_mem_append]
        exact ⟨kept, by simpa using unreleased⟩
      · omega
  · constructor
    · rintro ⟨pressed, -⟩
      exact .inr ⟨rfl, by simpa using pressed⟩
    · rintro (⟨since, -⟩ | ⟨-, pressed⟩)
      · exact absurd since.lt (Nat.lt_irrefl _)
      · exact ⟨by simpa using pressed, by simp⟩
  · constructor
    · intro since
      have within := since.lt
      rw [List.length_append, List.length_singleton] at within
      omega
    · rintro (⟨since, -⟩ | ⟨same, -⟩)
      · have within := since.lt
        omega
      · omega

theorem FirstHeldSince.snoc (first : FirstHeldSince ops key i) (kept : op.releases key = false) :
    FirstHeldSince (ops ++ [op]) key i := by
  obtain ⟨since, least⟩ := first
  refine ⟨heldSince_snoc.mpr (.inl ⟨since, kept⟩), ?_⟩
  intro j earlier again
  rcases heldSince_snoc.mp again with ⟨before, -⟩ | ⟨rfl, -⟩
  · exact least j earlier before
  · exact absurd (Nat.lt_trans earlier since.lt) (Nat.lt_irrefl _)

end Snoc

theorem exists_first {ops : List (Operation κ)} {key : String}
    (since : ∃ i, HeldSince ops key i) : ∃ i, FirstHeldSince ops key i := by
  classical
  exact ⟨Nat.find since, Nat.find_spec since, fun _ => Nat.find_min since⟩

structure HeldOver (ops : List (Operation κ)) (held : List String) : Prop where
  unique : held.Nodup
  mem : ∀ key, key ∈ held ↔ key ≠ "" ∧ ∃ i, HeldSince ops key i
  ordered : held.Pairwise fun key later =>
    ∃ i j, FirstHeldSince ops key i ∧ FirstHeldSince ops later j ∧ i < j

namespace HeldOver

variable {ops : List (Operation κ)} {op : Operation κ} {held : List String}

theorem nil : HeldOver ([] : List (Operation κ)) [] where
  unique := List.nodup_nil
  mem key := by
    constructor
    · nofun
    · rintro ⟨-, i, since⟩
      exact absurd since.lt (Nat.not_lt_zero i)
  ordered := List.Pairwise.nil

/-- Positions stay in order as long as neither key is given up. -/
theorem ordered_snoc (tracked : HeldOver ops held) {kept : List String}
    (sublist : kept.Sublist held) (unreleased : ∀ key ∈ kept, op.releases key = false) :
    kept.Pairwise fun key later => ∃ i j, FirstHeldSince (ops ++ [op]) key i ∧
      FirstHeldSince (ops ++ [op]) later j ∧ i < j := by
  apply (tracked.ordered.sublist sublist).imp_of_mem
  rintro key later member laterMember ⟨i, j, first, laterFirst, before⟩
  exact ⟨i, j, first.snoc (unreleased key member),
    laterFirst.snoc (unreleased later laterMember), before⟩

/-- An operation that presses no key leaves over what it does not give up. -/
theorem release (tracked : HeldOver ops held) (calm : op.pressed? = none) :
    HeldOver (ops ++ [op]) (held.filter fun key => !op.releases key) where
  unique := tracked.unique.filter _
  mem key := by
    simp only [List.mem_filter, tracked.mem, heldSince_snoc, calm, Bool.not_eq_true']
    constructor
    · rintro ⟨⟨some, i, since⟩, kept⟩
      exact ⟨some, i, .inl ⟨since, kept⟩⟩
    · rintro ⟨some, i, ⟨since, kept⟩ | ⟨-, pressed⟩⟩
      · exact ⟨⟨some, i, since⟩, kept⟩
      · contradiction
  ordered := by
    apply tracked.ordered_snoc List.filter_sublist
    intro key member
    simpa using (List.mem_filter.mp member).2

/-- A key that is pressed goes to the end, unless it is held already. -/
theorem press (tracked : HeldOver ops held) {pressed : String}
    (press : op.pressed? = some pressed) :
    HeldOver (ops ++ [op]) (if pressed = "" then held else addDistinct held pressed) := by
  have unreleased := Operation.releases_of_pressed press
  have member (key : String) : (key ≠ "" ∧ ∃ i, HeldSince (ops ++ [op]) key i) ↔
      key ∈ held ∨ (key = pressed ∧ pressed ≠ "") := by
    simp only [tracked.mem, heldSince_snoc, press, unreleased, and_true, Option.some.injEq]
    constructor
    · rintro ⟨some, i, since | ⟨-, rfl⟩⟩
      · exact .inl ⟨some, i, since⟩
      · exact .inr ⟨rfl, some⟩
    · rintro (⟨some, i, since⟩ | ⟨rfl, some⟩)
      · exact ⟨some, i, .inl since⟩
      · exact ⟨some, _, .inr ⟨rfl, rfl⟩⟩
  have ordered := tracked.ordered_snoc (.refl held) fun key _ => unreleased key
  by_cases blank : pressed = ""
  · rw [if_pos blank]
    exact ⟨tracked.unique, fun key => by simp [member, blank], ordered⟩
  rw [if_neg blank]
  refine ⟨addDistinct_nodup tracked.unique pressed, fun key => ?_, ?_⟩
  · rw [member, mem_addDistinct]
    simp [blank]
  by_cases already : pressed ∈ held
  · rwa [addDistinct, if_pos already]
  · -- The new key is held since this operation and not before, so it comes last.
    have first : FirstHeldSince (ops ++ [op]) pressed ops.length := by
      refine ⟨heldSince_snoc.mpr (.inr ⟨rfl, press⟩), ?_⟩
      intro j earlier since
      rcases heldSince_snoc.mp since with ⟨before, -⟩ | ⟨rfl, -⟩
      · exact already ((tracked.mem pressed).mpr ⟨blank, j, before⟩)
      · exact Nat.lt_irrefl _ earlier
    rw [addDistinct, if_neg already, List.pairwise_append]
    refine ⟨ordered, List.pairwise_singleton _ _, ?_⟩
    intro key member later last
    obtain ⟨-, since⟩ := (tracked.mem key).mp member
    obtain ⟨i, earlier⟩ := exists_first since
    rw [List.mem_singleton.mp last]
    exact ⟨i, _, earlier.snoc (unreleased key), first, earlier.1.lt⟩

end HeldOver

namespace Keyboard

/-- Only events and the clearing of the held keys change them. -/
theorem perform_held (k : Keyboard κ) (op : Operation κ) : (k.perform op).state.held =
    match op.pressed? with
    | some key => if key = "" then k.held else addDistinct k.held key
    | none => k.held.filter fun key => !op.releases key := by
  have same : k.held = k.held.filter fun _ => !false := by simp
  have registration (op : Operation κ) (only : ∀ other ∈ [op], other.isRegistration) :
      (k.perform op).state.held = k.held := (execute_registrations (k := k) only).2
  cases op with
  | handle event =>
    cases phase : event.phase with
    | down => simp [perform, handle, heldAfter, phase, Operation.pressed?]
    | up =>
      by_cases flush : event.canonicalKey = "meta" <;>
        simp [perform, handle, heldAfter, phase, Operation.pressed?, Operation.releases, flush,
          eq_comm]
  | clearHeld => simp [perform, Keyboard.clearHeld, Operation.pressed?, Operation.releases]
  | register text callback options => exact same
  | update id text options =>
    exact (registration _ (by simp [Operation.isRegistration])).trans same
  | unregister id => exact (registration _ (by simp [Operation.isRegistration])).trans same
  | activate scope => exact (changeScopes_held ..).trans same
  | deactivate scope => exact (changeScopes_held ..).trans same
  | toggle scope => exact (changeScopes_held ..).trans same

theorem run_heldOver (initialScopes : List String) (platform : Platform)
    (ops : List (Operation κ)) :
    HeldOver ops ((Keyboard.new initialScopes platform).execute ops).held := by
  induction ops using List.reverseRecOn with
  | nil => exact .nil
  | append_singleton ops op tracked =>
    rw [execute_append, execute, execute, perform_held]
    split
    next key press => exact tracked.press press
    next calm => exact tracked.release calm

end Keyboard

namespace Keyboard

theorem isKeyHeld_congr (k : Keyboard κ) {raw key : String}
    (same : Key.canonical raw = Key.canonical key) : k.isKeyHeld raw = k.isKeyHeld key := by
  rw [isKeyHeld, same, isKeyHeld]

/-- Several keys are held together when each of them is. -/
theorem areKeysHeld_joined (k : Keyboard κ) {names texts : List String} (some : names ≠ [])
    (plain : ∀ name ∈ names, Text.trim name ≠ "" ∧ ',' ∉ name.toList)
    (padded : List.Forall₂ Text.Padded names texts) :
    k.areKeysHeld (",".intercalate texts) = true ↔ ∀ name ∈ names, k.isKeyHeld name = true := by
  have same : ∀ name ∈ names, k.isKeyHeld (Text.trim name) = k.isKeyHeld name := by
    intro name member
    exact k.isKeyHeld_congr (Key.canonical_of_trim_eq (Text.trim_trim name) (plain name member).1)
  have present : (names.map Text.trim).isEmpty = false := by simpa using some
  have cut : Hotkey.split (",".intercalate texts) Hotkey.defaultSplit = names.map Text.trim :=
    (Hotkey.Spaced.of_forall₂ padded).split plain
  rw [areKeysHeld, cut, present, Bool.not_false, Bool.true_and, List.all_eq_true,
    List.forall_mem_map]
  exact forall₂_congr fun name member => by rw [same name member]

theorem canonical_of_heldSince {ops : List (Operation κ)} {key : String} {i : Nat}
    (since : HeldSince ops key i) : Key.canonical key = key := by
  obtain ⟨op, -, press⟩ := Option.bind_eq_some_iff.mp since.pressed
  cases op with
  | handle event =>
    rw [Operation.pressed?] at press
    split at press
    · obtain rfl := Option.some.inj press
      exact Key.canonical_canonical event.key
    · contradiction
  | _ => contradiction

/-- At every point of a run the held keys are, without repetitions, those that went down and that
neither their own release nor the one of the meta key nor a clearing has taken away since, ordered
by the first operation that brought them down since. Each of them is held under every name that
stands for it and under no other name, and a list of names, with whatever blanks around them, is
held when each name is. -/
theorem held_eq_history (initialScopes : List String) (platform : Platform)
    (ops : List (Operation κ)) :
    let k := (Keyboard.new initialScopes platform).execute ops
    k.held.Nodup ∧
      (∀ key, key ∈ k.held ↔ key ≠ "" ∧ ∃ i, HeldSince ops key i) ∧
      (k.held.Pairwise fun key later =>
        ∃ i j, FirstHeldSince ops key i ∧ FirstHeldSince ops later j ∧ i < j) ∧
      (∀ key ∈ k.held, k.isKeyHeld key = true ∧
        ∀ raw, Key.canonical raw = Key.canonical key → k.isKeyHeld raw = true) ∧
      (∀ raw, k.isKeyHeld raw = true ↔ Key.canonical raw ∈ k.held) ∧
      ∀ names texts, names ≠ [] → (∀ name ∈ names, Text.trim name ≠ "" ∧ ',' ∉ name.toList) →
        List.Forall₂ Text.Padded names texts →
        (k.areKeysHeld (",".intercalate texts) = true ↔
          ∀ name ∈ names, k.isKeyHeld name = true) := by
  intro k
  have tracked : HeldOver ops k.held := run_heldOver initialScopes platform ops
  have named (raw : String) : k.isKeyHeld raw = true ↔ Key.canonical raw ∈ k.held := by
    rw [isKeyHeld, decide_eq_true_iff]
  refine ⟨tracked.unique, tracked.mem, tracked.ordered, ?_, named, fun _ _ => k.areKeysHeld_joined⟩
  intro key member
  obtain ⟨-, i, since⟩ := (tracked.mem key).mp member
  have held : k.isKeyHeld key = true := by
    rw [named, canonical_of_heldSince since]
    exact member
  exact ⟨held, fun raw same => (k.isKeyHeld_congr same).trans held⟩

theorem held_eq_history_sample :
    let ops : List (Operation Nat) := [.handle (.ofDown "b"), .clearHeld, .handle (.ofDown " A "),
      .activate "menu", .handle (.ofDown "Esc"), .handle (.ofUp "Shift")]
    let k := (Keyboard.new [] .other).execute ops
    k.held = ["a", "Escape"] ∧ (∃ i, HeldSince ops "Escape" i) ∧ (¬∃ i, HeldSince ops "b" i) ∧
    k.isKeyHeld "KeyA" = true ∧ k.isKeyHeld "b" = false ∧
    k.areKeysHeld (",".intercalate ["KeyA", " escape "]) = true := by
  intro ops k
  have held : k.held = ["a", "Escape"] := by decide +kernel
  obtain ⟨-, mem, -, named, only, joined⟩ := held_eq_history [] .other ops
  refine ⟨held, ?_, ?_, ?_, ?_, ?_⟩
  · exact ((mem "Escape").mp (by decide +kernel)).2
  · intro since
    have member := (mem "b").mpr ⟨by decide, since⟩
    exact absurd member (by decide +kernel)
  · exact (named "a" (by decide +kernel)).2 "KeyA" (by decide +kernel)
  · rw [Bool.eq_false_iff, Ne, only]
    decide +kernel
  · have padded : List.Forall₂ Text.Padded ["KeyA", "escape"] ["KeyA", " escape "] :=
      .cons ⟨"", "", by decide, by decide, rfl⟩
        (.cons ⟨" ", " ", by decide, by decide, rfl⟩ .nil)
    exact (joined ["KeyA", "escape"] _ (by decide) (by decide +kernel) padded).mpr
      (by decide +kernel)

end Keyboard

end Keymap
