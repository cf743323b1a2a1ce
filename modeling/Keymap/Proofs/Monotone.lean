import Keymap.Proofs.Journal
import Mathlib.Data.List.Basic
import Mathlib.Data.List.Flatten

/-! Visibility under changes of scopes. Deactivating a scope never reveals a hotkey, activating one
never hides any unless a wildcard beside other scopes gives way, and what the wildcard marks is
always listed. None of it depends on how many registrations there are. -/
namespace Keymap

variable {κ : Type}

def Registration.listed (r : Registration κ) (active : ActiveScopes) : List Hotkey :=
  if r.options.enabled then r.hotkeys.filter fun h => active.admits h.scopes else []

/-- Scopes that admit more list more. -/
theorem Registration.listed_sublist (r : Registration κ) {active later : ActiveScopes}
    (more : ∀ scopes, active.admits scopes → later.admits scopes) :
    (r.listed active).Sublist (r.listed later) := by
  unfold listed
  split
  · exact List.monotone_filter_right _ fun h => more h.scopes
  · exact List.Sublist.refl _

namespace ActiveScopes

variable {s : ActiveScopes} {scope : String} {scopes : List String}

def IsMixed (s : ActiveScopes) : Prop := wildcard ∈ s.names ∧ ∃ other ∈ s.names, other ≠ wildcard

instance (s : ActiveScopes) : Decidable s.IsMixed :=
  inferInstanceAs (Decidable (wildcard ∈ s.names ∧ ∃ other ∈ s.names, other ≠ wildcard))

theorem admits_iff : s.admits scopes ↔ wildcard ∈ scopes ∨ ∃ name ∈ scopes, name ∈ s.names := by
  simp [admits]

theorem admits_wildcard (marked : wildcard ∈ scopes) : s.admits scopes :=
  admits_iff.mpr (.inl marked)

/-- The wildcard that takes the place of the last scope admits only what is admitted anyway. -/
theorem admits_of_deactivate (admitted : (s.deactivate scope).1.admits scopes) :
    s.admits scopes := by
  rcases admits_iff.mp admitted with marked | ⟨name, carried, active⟩
  · exact admits_wildcard marked
  · rw [deactivate_names] at active
    split at active
    · rw [List.mem_singleton.mp active] at carried
      exact admits_wildcard carried
    · exact admits_iff.mpr (.inr ⟨name, carried, (List.mem_filter.mp active).1⟩)

/-- A wildcard that gives way alone admitted only what is admitted anyway. -/
theorem admits_activate (pure : ¬s.IsMixed) (admitted : s.admits scopes) :
    (s.activate scope).1.admits scopes := by
  rcases admits_iff.mp admitted with marked | ⟨name, carried, active⟩
  · exact admits_wildcard marked
  · by_cases unrestricted : wildcard ∈ s.names
    · have same : name = wildcard :=
        Decidable.byContradiction fun other => pure ⟨unrestricted, name, active, other⟩
      exact admits_wildcard (same ▸ carried)
    · refine admits_iff.mpr (.inr ⟨name, carried, ?_⟩)
      rw [activate_names, if_neg unrestricted]
      split
      · exact active
      · exact List.mem_append_left _ active

end ActiveScopes

namespace Keyboard

/-- What is live under some scopes: of every enabled registration the hotkeys that pass the filter,
in the order of the ids. -/
def listing (k : Keyboard κ) (active : ActiveScopes) : List Hotkey :=
  k.registry.entries.toList.flatMap fun entry => entry.2.listed active

theorem listing_sublist (k : Keyboard κ) {active later : ActiveScopes}
    (more : ∀ scopes, active.admits scopes → later.admits scopes) :
    (k.listing active).Sublist (k.listing later) := by
  exact List.Sublist.flatMap_right _ fun entry _ => entry.2.listed_sublist more

/-- What every operation keeps, whether or not the ids have been used up. -/
structure Orderly (k : Keyboard κ) : Prop where
  fresh : k.IsFresh
  compiled : ∀ entry ∈ k.registry.entries.toList, ∃ platform text,
    entry.2.hotkeys = entry.2.options.compile platform text

variable {k : Keyboard κ}

/-- The list of visible registrations is the listing that the active scopes call for. -/
theorem Orderly.hotkeys_eq (orderly : k.Orderly) : k.hotkeys = k.listing k.scopes := by
  rw [Keyboard.hotkeys_eq orderly.fresh, listing]
  apply List.flatMap_congr
  intro entry member
  obtain ⟨platform, text, compiled⟩ := orderly.compiled entry member
  let s : Standing κ := ⟨entry.1, text, entry.2.options, entry.2.callback⟩
  have same : entry.2 = (s.entry platform).2 := by
    rw [Standing.entry, Standing.hotkeys, ← compiled]
  rw [same]
  exact (s.listed_eq k.scopes).symm

theorem new_orderly (initialScopes : List String) (platform : Platform) :
    (Keyboard.new initialScopes platform : Keyboard κ).Orderly where
  fresh := rfl
  compiled := nofun

theorem perform_orderly (orderly : k.Orderly) (op : Operation κ) :
    (k.perform op).state.Orderly := by
  refine ⟨perform_fresh orderly.fresh op, ?_⟩
  have compiled := orderly.compiled
  cases op with
  | register text callback options =>
    intro entry member
    rcases Table.mem_insert member with rfl | old
    · exact ⟨k.platform, text, rfl⟩
    · exact compiled entry old
  | update id text options =>
    have entries : (k.perform (.update id text options)).state.registry.entries = _ :=
      (update_frame k id text options).1
    rw [entries]
    intro entry member
    rcases Table.mem_modify member with old | ⟨old, rfl⟩
    · exact compiled entry old
    · exact ⟨k.platform, text, rfl⟩
  | unregister id =>
    have entries : (k.perform (.unregister id)).state.registry.entries = _ :=
      (unregister_frame k id).1
    rw [entries]
    exact fun entry member => compiled entry (List.mem_filter.mp member).1
  | activate scope =>
    have entries : (k.perform (.activate scope)).state.registry.entries = _ :=
      (changeScopes_frame ..).1
    rwa [entries]
  | deactivate scope =>
    have entries : (k.perform (.deactivate scope)).state.registry.entries = _ :=
      (changeScopes_frame ..).1
    rwa [entries]
  | toggle scope =>
    have entries : (k.perform (.toggle scope)).state.registry.entries = _ :=
      (changeScopes_frame ..).1
    rwa [entries]
  | handle event => exact compiled
  | clearHeld => exact compiled

theorem run_orderly (initialScopes : List String) (platform : Platform)
    (ops : List (Operation κ)) : ((Keyboard.new initialScopes platform).execute ops).Orderly := by
  have general (k : Keyboard κ) (orderly : k.Orderly) : (k.execute ops).Orderly := by
    induction ops generalizing k with
    | nil => exact orderly
    | cons op ops ih => exact ih _ (perform_orderly orderly op)
  exact general _ (new_orderly initialScopes platform)

theorem changeScopes_hotkeys {change : ActiveScopes × Bool} {scope : String} {activated : Bool}
    (orderly : (k.changeScopes scope activated change).state.Orderly) :
    (k.changeScopes scope activated change).state.hotkeys = k.listing change.1 := by
  rw [orderly.hotkeys_eq, changeScopes_scopes, listing, (changeScopes_frame ..).1, listing]

theorem Orderly.activate (orderly : k.Orderly) (scope : String) :
    (k.activate scope).state.hotkeys = k.listing (k.scopes.activate scope).1 :=
  changeScopes_hotkeys (perform_orderly orderly (.activate scope))

theorem Orderly.deactivate (orderly : k.Orderly) (scope : String) :
    (k.deactivate scope).state.hotkeys = k.listing (k.scopes.deactivate scope).1 :=
  changeScopes_hotkeys (perform_orderly orderly (.deactivate scope))

/-- In every reachable state a deactivation hides hotkeys at most and an activation reveals some at
most, unless it makes a wildcard give way that was active beside other scopes; then the listing is
the one for the activated scope alone. Hotkeys with the wildcard among their scopes are listed
throughout. -/
theorem visibility_monotone (initialScopes : List String) (platform : Platform)
    (ops : List (Operation κ)) (scope : String) :
    let k := (Keyboard.new initialScopes platform).execute ops
    k.hotkeys = k.listing k.scopes ∧
    (k.deactivate scope).state.hotkeys.Sublist k.hotkeys ∧
    (¬k.scopes.IsMixed → k.hotkeys.Sublist (k.activate scope).state.hotkeys) ∧
    (k.scopes.IsMixed → (k.activate scope).state.scopes = .single scope ∧
      (k.activate scope).state.hotkeys = k.listing (.single scope)) ∧
    (∀ entry ∈ k.registry.entries.toList, entry.2.options.enabled → ∀ h ∈ entry.2.hotkeys,
      (wildcard ∈ h.scopes ↔ wildcard ∈ entry.2.options.effectiveScopes) ∧
      (wildcard ∈ h.scopes → h ∈ k.hotkeys)) := by
  intro k
  have orderly : k.Orderly := run_orderly initialScopes platform ops
  refine ⟨orderly.hotkeys_eq, ?_, ?_, ?_, ?_⟩
  · rw [orderly.deactivate, orderly.hotkeys_eq]
    exact k.listing_sublist fun _ => ActiveScopes.admits_of_deactivate
  · intro pure
    rw [orderly.activate, orderly.hotkeys_eq]
    exact k.listing_sublist fun _ => ActiveScopes.admits_activate pure
  · rintro ⟨unrestricted, -⟩
    have replaced : (k.scopes.activate scope).1 = .single scope :=
      ActiveScopes.ext ((k.scopes.activate_names scope).trans (if_pos unrestricted))
    rw [orderly.activate, replaced]
    exact ⟨(changeScopes_scopes ..).trans replaced, rfl⟩
  · intro entry held enabled h member
    obtain ⟨platform, text, compiled⟩ := orderly.compiled entry held
    rw [compiled] at member
    refine ⟨?_, ?_⟩
    · rw [Options.compile_scopes member, Options.effectiveScopes_eq]
      split
      · exact Iff.rfl
      · exact List.mem_eraseDups
    · intro marked
      rw [orderly.hotkeys_eq, listing, List.mem_flatMap]
      refine ⟨entry, held, ?_⟩
      rw [Registration.listed, if_pos enabled, compiled]
      exact List.mem_filter.mpr ⟨member, ActiveScopes.admits_wildcard marked⟩

theorem visibility_monotone_sample :
    let mixed := (Keyboard.new ["*", "menu"] .other).execute (sampleRun.take 5)
    let pure := (Keyboard.new [] .other).execute (sampleRun.take 5)
    mixed.hotkeys.map (·.keys) = [["b"], ["a"], ["a"]] ∧
    (mixed.deactivate "menu").state.hotkeys.Sublist mixed.hotkeys ∧
    mixed.scopes.IsMixed ∧ (mixed.activate "game").state.hotkeys.map (·.keys) = [["a"]] ∧
    ¬pure.scopes.IsMixed ∧ pure.hotkeys.Sublist (pure.activate "menu").state.hotkeys := by
  intro mixed pure
  obtain ⟨_, hidden, _⟩ := visibility_monotone ["*", "menu"] .other (sampleRun.take 5) "menu"
  obtain ⟨_, _, _, alone, _⟩ := visibility_monotone ["*", "menu"] .other (sampleRun.take 5) "game"
  obtain ⟨_, _, revealed, _⟩ := visibility_monotone [] .other (sampleRun.take 5) "menu"
  have isMixed : mixed.scopes.IsMixed := by decide
  have isPure : ¬pure.scopes.IsMixed := by decide
  have listed := congrArg (List.map (·.keys)) (alone isMixed).2
  exact ⟨by rfl, hidden, isMixed, listed.trans (by rfl), isPure, revealed isPure⟩

end Keyboard

end Keymap
