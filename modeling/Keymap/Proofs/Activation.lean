import Keymap.Proofs.Scope

/-! The active scopes under the three operations on them. There is always one, none occurs twice, and
the answer of an operation is right: it tells whether the list is another one than before. So it is
after any sequence of operations, and none of them disturbs the order of the scopes it keeps. -/
namespace Keymap

namespace ActiveScopes

variable {s : ActiveScopes} {scope : String}

/-- A list with one element holds nothing else. -/
theorem sole_wildcard (active : wildcard ∈ s.names) (single : s.names.length = 1) :
    s.names = [wildcard] := by
  obtain ⟨name, same⟩ := List.length_eq_one_iff.mp single
  rw [same] at active ⊢
  rw [List.mem_singleton.mp active]

theorem activate_names (s : ActiveScopes) (scope : String) :
    (s.activate scope).1.names =
      if wildcard ∈ s.names then [scope]
      else if scope ∈ s.names then s.names else s.names ++ [scope] := by
  by_cases active : wildcard ∈ s.names
  · by_cases already : s.names.length = 1 ∧ scope = wildcard
    · obtain ⟨single, rfl⟩ := already
      simp [activate, isActive, sole_wildcard active single]
    · simp [activate, isActive, active, already]
  · by_cases held : scope ∈ s.names <;> simp [activate, isActive, active, held]

theorem activate_changed (s : ActiveScopes) (scope : String) :
    (s.activate scope).2 = decide ((s.activate scope).1.names ≠ s.names) := by
  rw [activate_names]
  by_cases active : wildcard ∈ s.names
  · by_cases already : s.names.length = 1 ∧ scope = wildcard
    · obtain ⟨single, rfl⟩ := already
      simp [activate, isActive, sole_wildcard active single]
    · have other : [scope] ≠ s.names := by
        intro same
        rw [← same] at active already
        exact already ⟨rfl, (List.mem_singleton.mp active).symm⟩
      simp [activate, isActive, active, already, other]
  · by_cases held : scope ∈ s.names <;> simp [activate, isActive, active, held]

theorem activate_isActive (s : ActiveScopes) (scope : String) :
    scope ∈ (s.activate scope).1.names := by
  rw [activate_names]
  split
  · exact List.mem_singleton_self scope
  split
  · assumption
  · simp

theorem deactivate_names (s : ActiveScopes) (scope : String) :
    (s.deactivate scope).1.names =
      if s.names.filter (· ≠ scope) = [] then [wildcard] else s.names.filter (· ≠ scope) := by
  unfold deactivate
  dsimp only
  split <;> rfl

/-- Where a scope leaves nothing behind, it was the only one. -/
theorem sole_scope (empty : s.names.filter (· ≠ scope) = []) :
    s.names = [scope] := by
  have only : ∀ name ∈ s.names, name = scope := by simpa using List.filter_eq_nil_iff.mp empty
  have unique := s.unique
  cases names : s.names with
  | nil => exact absurd names s.nonempty
  | cons name more =>
    rw [names] at only unique
    obtain rfl := only name List.mem_cons_self
    cases more with
    | nil => rfl
    | cons other more =>
      obtain rfl := only other (by simp)
      simp at unique

theorem deactivate_changed (s : ActiveScopes) (scope : String) :
    (s.deactivate scope).2 = decide ((s.deactivate scope).1.names ≠ s.names) := by
  rw [deactivate_names]
  unfold deactivate
  dsimp only
  split
  next empty =>
    rw [sole_scope empty]
    simp [eq_comm]
  next kept =>
    have shorter : (s.names.filter (· ≠ scope)).length = s.names.length ↔
        s.names.filter (· ≠ scope) = s.names := by
      rw [List.length_filter_eq_length_iff, List.filter_eq_self]
    simp only [ne_eq, shorter]

/-- A deactivated scope is no longer active, unless it is the wildcard and nothing else was. -/
theorem deactivate_isActive (s : ActiveScopes) (scope : String) :
    scope ∈ (s.deactivate scope).1.names ↔ scope = wildcard ∧ s.names = [wildcard] := by
  rw [deactivate_names]
  split
  next empty =>
    rw [sole_scope empty]
    simp
  next kept =>
    constructor
    · intro member
      simp at member
    · rintro ⟨rfl, same⟩
      simp [same] at kept

theorem toggle_eq (s : ActiveScopes) (scope : String) :
    s.toggle scope = if scope ∈ s.names then s.deactivate scope else s.activate scope := by
  simp [toggle, isActive]

theorem toggle_changed (s : ActiveScopes) (scope : String) :
    (s.toggle scope).2 = decide ((s.toggle scope).1.names ≠ s.names) := by
  rw [toggle_eq]
  split
  · exact deactivate_changed s scope
  · exact activate_changed s scope

inductive Change where
  | activate (scope : String)
  | deactivate (scope : String)
  | toggle (scope : String)
  deriving DecidableEq, Repr

def apply (s : ActiveScopes) : Change → ActiveScopes × Bool
  | .activate scope => s.activate scope
  | .deactivate scope => s.deactivate scope
  | .toggle scope => s.toggle scope

def applyAll (s : ActiveScopes) : List Change → ActiveScopes
  | [] => s
  | change :: changes => applyAll (s.apply change).1 changes

theorem apply_changed (s : ActiveScopes) (change : Change) :
    (s.apply change).2 = decide ((s.apply change).1.names ≠ s.names) := by
  cases change with
  | activate scope => exact activate_changed s scope
  | deactivate scope => exact deactivate_changed s scope
  | toggle scope => exact toggle_changed s scope

theorem activate_prefix (restricted : wildcard ∉ s.names) (scope : String) :
    s.names <+: (s.activate scope).1.names := by
  rw [activate_names, if_neg restricted]
  split
  · exact List.prefix_refl _
  · exact List.prefix_append _ _

theorem deactivate_sublist (s : ActiveScopes) (scope : String) :
    (s.names.filter (· ≠ scope)).Sublist (s.deactivate scope).1.names := by
  rw [deactivate_names]
  split
  next empty =>
    rw [empty]
    exact List.nil_sublist _
  · exact List.Sublist.refl _

/-- Whatever is done to the scopes, there is always one and none occurs twice, and every answer
tells whether the list has become another one. An activated scope is active and a deactivated one
is not, unless it is the wildcard and alone. Scopes that are not concerned keep their order: all of
them, where something is deactivated or no wildcard gives way. -/
theorem scopes_never_empty (initial : List String) (changes : List Change) :
    let s := (ofList initial).applyAll changes
    s.names ≠ [] ∧ s.names.Nodup ∧
    (∀ change, (s.apply change).2 = true ↔ (s.apply change).1.names ≠ s.names) ∧
    ∀ scope, scope ∈ (s.activate scope).1.names ∧
      (scope ∈ (s.deactivate scope).1.names ↔ scope = wildcard ∧ s.names = [wildcard]) ∧
      (wildcard ∉ s.names → s.names <+: (s.activate scope).1.names) ∧
      (s.names.filter (· ≠ scope)).Sublist (s.deactivate scope).1.names := by
  intro s
  refine ⟨s.nonempty, s.unique, ?_, ?_⟩
  · intro change
    rw [apply_changed, decide_eq_true_iff]
  · intro scope
    exact ⟨activate_isActive s scope, deactivate_isActive s scope,
      fun restricted => activate_prefix restricted scope, deactivate_sublist s scope⟩

/-- The wildcard comes back when the last scope goes, and gives way to the next one. -/
theorem scopes_never_empty_sample :
    let s := (ofList ["menu", "game", "menu"]).applyAll
      [.deactivate "menu", .toggle "game", .activate "editor", .toggle "menu"]
    s.names = ["editor", "menu"] ∧ wildcard ∉ s.names ∧
    s.names <+: (s.activate "game").1.names ∧ (s.apply (.activate "game")).2 = true ∧
    (s.apply (.activate "menu")).2 = false ∧
    "editor" ∉ (s.deactivate "editor").1.names := by
  intro s
  obtain ⟨-, -, tells, kept⟩ := scopes_never_empty ["menu", "game", "menu"]
    [.deactivate "menu", .toggle "game", .activate "editor", .toggle "menu"]
  have restricted : wildcard ∉ s.names := by decide
  refine ⟨by decide, restricted, (kept "game").2.2.1 restricted, ?_, ?_, ?_⟩
  · exact (tells (.activate "game")).mpr (by decide)
  · exact Bool.eq_false_iff.mpr ((tells (.activate "menu")).not.mpr (by decide))
  · exact (kept "editor").2.1.not.mpr (by decide)

end ActiveScopes

end Keymap
