import Keymap.Registry

/-! What an event fires in a registry, as one list. A dispatch makes one call and takes down one
hotkey for every item of the list, in its order. -/
namespace Keymap

variable {κ : Type} {event : KeyboardEvent}

/-- A hotkey that fires, with the callback that is called for it. -/
structure Firing (κ : Type) where
  triggered : Triggered
  callback : κ

def Firing.call (event : KeyboardEvent) (f : Firing κ) : Call κ :=
  ⟨f.callback, event, f.triggered.hotkey⟩

namespace Dispatch

def after (d : Dispatch κ) (event : KeyboardEvent) (firings : List (Firing κ)) : Dispatch κ where
  calls := d.calls ++ firings.map (Firing.call event)
  fired := d.fired ++ firings.map (·.triggered)

theorem after_nil (d : Dispatch κ) : d.after event [] = d := by simp [after]

theorem after_append (d : Dispatch κ) (before later : List (Firing κ)) :
    d.after event (before ++ later) = (d.after event before).after event later := by
  simp [after]

theorem foldl_fire (d : Dispatch κ) (id : HotkeyId) (callback : κ) (hotkeys : List Hotkey) :
    hotkeys.foldl (·.fire id callback event ·) d =
      d.after event (hotkeys.map fun h => ⟨⟨id, h⟩, callback⟩) := by
  induction hotkeys generalizing d with
  | nil => exact d.after_nil.symm
  | cons h hotkeys ih =>
    rw [List.foldl_cons, ih, List.map_cons, ← List.singleton_append, after_append]
    rfl

end Dispatch

namespace Registry

def firingsOf (r : Registry κ) (event : KeyboardEvent) (id : HotkeyId) : List (Firing κ) :=
  match r.entries.find? id with
  | none => []
  | some entry =>
    (Hotkey.firing entry.hotkeys entry.options.policy event).map fun h => ⟨⟨id, h⟩, entry.callback⟩

theorem firingsOf_id {r : Registry κ} {id : HotkeyId} {f : Firing κ}
    (fires : f ∈ r.firingsOf event id) : f.triggered.id = id := by
  unfold firingsOf at fires
  split at fires
  · contradiction
  · obtain ⟨h, _, rfl⟩ := List.mem_map.mp fires
    rfl

def firings (r : Registry κ) (event : KeyboardEvent) : List (Firing κ) :=
  r.visible.flatMap (r.firingsOf event)

theorem fireEntry_eq (r : Registry κ) (d : Dispatch κ) (id : HotkeyId) :
    r.fireEntry event d id = d.after event (r.firingsOf event id) := by
  unfold fireEntry firingsOf
  cases r.entries.find? id with
  | none => exact d.after_nil.symm
  | some entry => exact d.foldl_fire ..

theorem foldl_fireEntry (r : Registry κ) (d : Dispatch κ) (ids : List HotkeyId) :
    ids.foldl (r.fireEntry event) d = d.after event (ids.flatMap (r.firingsOf event)) := by
  induction ids generalizing d with
  | nil => exact d.after_nil.symm
  | cons id ids ih => rw [List.foldl_cons, ih, fireEntry_eq, List.flatMap_cons, Dispatch.after_append]

theorem dispatch_calls (r : Registry κ) (event : KeyboardEvent) :
    (r.dispatch event).calls = (r.firings event).map (Firing.call event) := by
  rw [dispatch, foldl_fireEntry]
  rfl

theorem dispatch_fired (r : Registry κ) (event : KeyboardEvent) :
    (r.dispatch event).fired = (r.firings event).map (·.triggered) := by
  rw [dispatch, foldl_fireEntry]
  rfl

end Registry

end Keymap
