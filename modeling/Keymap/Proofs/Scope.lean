import Keymap.Options
import Keymap.Proofs.Distinct

/-! The scopes of hotkeys. All combinations of one registration carry the same scopes, those of its
options without repetitions, so the scope filter treats them alike. -/
namespace Keymap

theorem scopesOrWildcard_eq (scopes : List String) :
    scopesOrWildcard scopes = if scopes = [] then [wildcard] else scopes.eraseDups := by
  unfold scopesOrWildcard
  by_cases empty : scopes = []
  · simp [empty, distinct]
  · rw [if_neg empty, ← distinct_eq_eraseDups]
    split
    next none => exact absurd (distinct_eq_nil.mp none) empty
    next => rfl

/-- The scope filter: the wildcard is among the scopes, or one of them is active. -/
def ActiveScopes.admits (active : ActiveScopes) (scopes : List String) : Bool :=
  decide (wildcard ∈ scopes ∨ ∃ scope ∈ scopes, scope ∈ active.names)

theorem ActiveScopes.admits_eq (active : ActiveScopes) (h : Hotkey) :
    (h.isGlobal || active.intersects h.scopes) = active.admits h.scopes := by
  rw [Bool.eq_iff_iff]
  simp [Hotkey.isGlobal, ActiveScopes.intersects, ActiveScopes.isActive, ActiveScopes.admits]

/-- Only which scopes there are matters to the filter. -/
theorem ActiveScopes.admits_congr (active : ActiveScopes) {scopes others : List String}
    (same : ∀ scope, scope ∈ scopes ↔ scope ∈ others) :
    active.admits scopes = active.admits others := by
  simp [ActiveScopes.admits, same]

namespace Options

theorem effectiveScopes_eq (o : Options) :
    o.effectiveScopes = if o.scopes = [] then [wildcard] else o.scopes := by
  simp [effectiveScopes]

theorem compile_scopes {o : Options} {platform : Platform} {text : String} {h : Hotkey}
    (member : h ∈ o.compile platform text) :
    h.scopes = if o.scopes = [] then [wildcard] else o.scopes.eraseDups := by
  obtain ⟨bare, _, rfl⟩ := List.mem_map.mp member
  simp only [Hotkey.withScopes, scopesOrWildcard_eq, effectiveScopes_eq]
  by_cases empty : o.scopes = []
  · simp [empty, List.eraseDups_cons]
  · simp [empty]

theorem compile_admits {o : Options} {platform : Platform} {text : String} {h : Hotkey}
    (member : h ∈ o.compile platform text) (active : ActiveScopes) :
    active.admits h.scopes = active.admits o.effectiveScopes := by
  apply active.admits_congr
  intro scope
  rw [compile_scopes member, effectiveScopes_eq]
  split
  · exact Iff.rfl
  · exact List.mem_eraseDups

end Options

end Keymap
