import Keymap.Proofs.Monotone
import Mathlib.Data.List.Nodup

/-! Toggling a scope twice. Unless the wildcard is active beside other scopes, the second toggle
takes back what the first one did, also where the wildcard came or went in between: the same scopes
are active, so the same hotkeys are listed and fire. Only the toggled scope may have moved to the
end. -/
namespace Keymap

variable {κ : Type}

namespace ActiveScopes

variable {s : ActiveScopes} {scope : String}

theorem toggle_deactivated (pure : wildcard ∉ s.names ∨ s.names = [wildcard]) (active : scope ∈ s.names) :
    ((s.deactivate scope).1.toggle scope).1.names = s.names.filter (· ≠ scope) ++ [scope] := by
  rw [toggle_eq]
  split
  next still =>
    -- The sole wildcard cannot be deactivated, and the second time is like the first.
    obtain ⟨rfl, sole⟩ := (s.deactivate_isActive scope).mp still
    simp [deactivate_names, sole]
  next gone =>
    rw [activate_names]
    by_cases last : s.names.filter (· ≠ scope) = []
    · -- The wildcard has taken the place of the last scope and gives way to it again.
      have replaced : (s.deactivate scope).1.names = [wildcard] := by
        rw [deactivate_names, if_pos last]
      rw [replaced, if_pos (List.mem_singleton_self wildcard), last, List.nil_append]
    · have left : (s.deactivate scope).1.names = s.names.filter (· ≠ scope) := by
        rw [deactivate_names, if_neg last]
      have restricted : wildcard ∉ s.names := by
        refine pure.resolve_right fun sole => last ?_
        rw [sole] at active ⊢
        rw [List.mem_singleton.mp active]
        simp
      rw [left] at gone ⊢
      rw [if_neg fun member => restricted (List.mem_filter.mp member).1, if_neg gone]

theorem toggle_activated (pure : wildcard ∉ s.names ∨ s.names = [wildcard]) (inactive : scope ∉ s.names) :
    ((s.activate scope).1.toggle scope).1.names = s.names := by
  rw [toggle_eq, if_pos (activate_isActive s scope), deactivate_names, activate_names]
  rcases pure with restricted | sole
  · have others : s.names.filter (· ≠ scope) = s.names :=
      List.filter_eq_self.mpr fun name member => decide_eq_true fun same => inactive (same ▸ member)
    rw [if_neg restricted, if_neg inactive, List.filter_append, others]
    simp [s.nonempty]
  · simp [sole]

/-- A scope that is toggled twice is active as before, but comes last. -/
theorem toggle_toggle_names (pure : wildcard ∉ s.names ∨ s.names = [wildcard]) (scope : String) :
    ((s.toggle scope).1.toggle scope).1.names =
      if scope ∈ s.names then s.names.erase scope ++ [scope] else s.names := by
  rw [toggle_eq s]
  split
  next active =>
    rw [toggle_deactivated pure active, s.unique.erase_eq_filter]
    simp only [ne_eq, decide_not, Bool.beq_eq_decide_eq, bne]
  next inactive => exact toggle_activated pure inactive

theorem perm_moved (s : ActiveScopes) (scope : String) :
    (if scope ∈ s.names then s.names.erase scope ++ [scope] else s.names).Perm s.names := by
  split
  next active => exact List.perm_append_singleton .. |>.trans (List.perm_cons_erase active).symm
  next => exact .refl _

end ActiveScopes

/-- Only which scopes are active counts for what is visible. -/
theorem Registration.isVisible_congr (r : Registration κ) {active other : ActiveScopes}
    (same : ∀ name, name ∈ active.names ↔ name ∈ other.names) :
    r.isVisible active = r.isVisible other := by
  simp only [isVisible, ActiveScopes.admits_eq, ActiveScopes.admits, same]

theorem Registry.recompute_congr (r : Registry κ) {active other : ActiveScopes}
    (same : ∀ name, name ∈ active.names ↔ name ∈ other.names) :
    r.recompute active = r.recompute other := by
  simp only [recompute, Registration.isVisible_congr _ same]

namespace Keyboard

variable {k : Keyboard κ}

theorem refresh_of_fresh (fresh : k.IsFresh) : k.refresh = k := by
  have kept : { k.registry with visible := k.registry.visible } =
      k.registry.recompute k.scopes := by
    rw [fresh]
    rfl
  rw [refresh, ← kept]

theorem IsFresh.congr (fresh : k.IsFresh) {active : ActiveScopes}
    (same : ∀ name, name ∈ active.names ↔ name ∈ k.scopes.names) :
    IsFresh { k with scopes := active } := by
  rw [IsFresh, k.registry.recompute_congr same]
  exact fresh

/-- Whether or not anything changes, the new scopes are taken over and the list is the one they call
for. -/
theorem changeScopes_state (fresh : k.IsFresh) {change : ActiveScopes × Bool}
    (honest : change.2 = decide (change.1.names ≠ k.scopes.names)) (scope : String)
    (activated : Bool) :
    (k.changeScopes scope activated change).state = refresh { k with scopes := change.1 } := by
  have later : (k.changeScopes scope activated change).state.IsFresh :=
    changeScopes_fresh fresh honest
  unfold changeScopes at later ⊢
  dsimp only at later ⊢
  split
  next => rfl
  next unchanged =>
    rw [if_neg unchanged] at later
    exact (refresh_of_fresh later).symm

theorem Orderly.toggle (orderly : k.Orderly) (scope : String) :
    (k.toggle scope).state = refresh { k with scopes := (k.scopes.toggle scope).1 } :=
  changeScopes_state orderly.fresh (k.scopes.toggle_changed scope) ..

theorem Orderly.toggle_toggle (orderly : k.Orderly) (scope : String) :
    ((k.toggle scope).state.toggle scope).state =
      refresh { k with scopes := ((k.scopes.toggle scope).1.toggle scope).1 } := by
  have later : (k.toggle scope).state.Orderly := perform_orderly orderly (.toggle scope)
  rw [later.toggle, orderly.toggle]
  rfl

/-- In every reachable state in which the wildcard is not active beside other scopes, toggling a
scope twice changes nothing but the place of that scope among the active ones. -/
theorem toggle_twice (initialScopes : List String) (platform : Platform)
    (ops : List (Operation κ)) (scope : String) :
    let k := (Keyboard.new initialScopes platform).execute ops
    let twice := ((k.toggle scope).state.toggle scope).state
    wildcard ∉ k.scopes.names ∨ k.scopes.names = [wildcard] →
      twice.scopes.names = (if scope ∈ k.scopes.names then k.scopes.names.erase scope ++ [scope]
        else k.scopes.names) ∧
      twice.scopes.names.Perm k.scopes.names ∧
      twice = { k with scopes := twice.scopes } ∧
      twice.hotkeys = k.hotkeys ∧
      ∀ event, (twice.handle event).answer = (k.handle event).answer := by
  intro k twice pure
  have orderly : k.Orderly := run_orderly initialScopes platform ops
  have names := ActiveScopes.toggle_toggle_names pure scope
  have perm := names ▸ k.scopes.perm_moved scope
  have state : twice = { k with scopes := ((k.scopes.toggle scope).1.toggle scope).1 } :=
    (orderly.toggle_toggle scope).trans
      (refresh_of_fresh (orderly.fresh.congr fun _ => perm.mem_iff))
  rw [state]
  exact ⟨names, perm, rfl, rfl, fun _ => rfl⟩

/-- The wildcard gives way to the scope and comes back, and the last scope to the wildcard. -/
theorem toggle_twice_sample :
    let free := (Keyboard.new [] .other).execute (sampleRun.take 5)
    let k := (Keyboard.new ["menu", "editor"] .other).execute (sampleRun.take 5)
    let twice := ((k.toggle "menu").state.toggle "menu").state
    free.scopes.names = [wildcard] ∧ (free.toggle "editor").state.hotkeys ≠ free.hotkeys ∧
      ((free.toggle "editor").state.toggle "editor").state.hotkeys = free.hotkeys ∧
      wildcard ∉ k.scopes.names ∧ twice.scopes.names = ["editor", "menu"] ∧
      (twice.handle (.ofDown "a")).answer = (k.handle (.ofDown "a")).answer := by
  intro free k twice
  have alone : free.scopes.names = [wildcard] := by decide
  have restricted : wildcard ∉ k.scopes.names := by decide
  obtain ⟨-, -, -, listed, -⟩ := toggle_twice [] .other (sampleRun.take 5) "editor" (.inr alone)
  obtain ⟨names, -, -, -, fires⟩ :=
    toggle_twice ["menu", "editor"] .other (sampleRun.take 5) "menu" (.inl restricted)
  exact ⟨alone, by decide +kernel, listed, restricted, names.trans (by decide), fires _⟩

end Keyboard

end Keymap
