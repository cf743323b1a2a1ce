import Keymap.Options
import Keymap.Registry.Table

/-! The live registrations, and the list of those that pass the scope filter. The list is computed
on demand, so between two computations it may be out of date. Callbacks are opaque values of a
type `κ`; calling one leaves an entry in a log of calls. -/
namespace Keymap

structure Registration (κ : Type) where
  hotkeys : List Hotkey
  options : Options
  callback : κ

def Registration.isVisible (r : Registration κ) (scopes : ActiveScopes) : Bool :=
  r.options.enabled && r.hotkeys.any fun h => h.isGlobal || scopes.intersects h.scopes

/-- A hotkey that fired, and the registration it belongs to. -/
structure Triggered where
  id : HotkeyId
  hotkey : Hotkey
  deriving DecidableEq, Repr

/-- A call of a callback, with what it is handed. -/
structure Call (κ : Type) where
  callback : κ
  event : KeyboardEvent
  hotkey : Hotkey

/-- What an event does in a registry: the calls made and the hotkeys that fired, both in order. -/
@[ext] structure Dispatch (κ : Type) where
  calls : List (Call κ) := []
  fired : List Triggered := []

/-- Calls the callback of a hotkey that fires, and then takes the hotkey down. -/
def Dispatch.fire (d : Dispatch κ) (id : HotkeyId) (callback : κ) (event : KeyboardEvent)
    (hotkey : Hotkey) : Dispatch κ where
  calls := d.calls ++ [⟨callback, event, hotkey⟩]
  fired := d.fired ++ [⟨id, hotkey⟩]

structure Registry (κ : Type) where
  entries : Table (Registration κ) := .empty
  visible : List HotkeyId := []
  nextId : UInt64 := 0

namespace Registry

variable {κ : Type}

def empty : Registry κ := {}

/-- Registers hotkeys under a new id, the successor of the one given before. -/
def insert (r : Registry κ) (hotkeys : List Hotkey) (options : Options) (callback : κ) :
    Registry κ × HotkeyId :=
  let id : HotkeyId := ⟨r.nextId⟩
  ({ r with
      entries := r.entries.insert id ⟨hotkeys, options, callback⟩
      nextId := r.nextId + 1 }, id)

def contains (r : Registry κ) (id : HotkeyId) : Bool := r.entries.contains id

/-- Changes a registration in place; its id, callback and rank stay. -/
def replace (r : Registry κ) (id : HotkeyId) (hotkeys : List Hotkey) (options : Options) :
    Registry κ × Bool :=
  if r.contains id then
    ({ r with
        entries := r.entries.modify id fun old => ⟨hotkeys, options, old.callback⟩ }, true)
  else (r, false)

def remove (r : Registry κ) (id : HotkeyId) : Registry κ × Bool :=
  if r.contains id then ({ r with entries := r.entries.erase id }, true) else (r, false)

def size (r : Registry κ) : Nat := r.entries.toList.length

def hotkeysOf? (r : Registry κ) (id : HotkeyId) : Option (List Hotkey) :=
  (r.entries.find? id).map Registration.hotkeys

/-- Brings the list of visible registrations up to date. -/
def recompute (r : Registry κ) (scopes : ActiveScopes) : Registry κ :=
  { r with visible := (r.entries.toList.filter fun entry => entry.2.isVisible scopes).map Prod.fst }

/-- The hotkeys of the visible registrations that are still there. -/
def visibleHotkeys (r : Registry κ) : List Hotkey :=
  r.visible.flatMap fun id => (r.hotkeysOf? id).getD []

/-- Fires the hotkeys of one registration, in their order. -/
def fireEntry (r : Registry κ) (event : KeyboardEvent) (d : Dispatch κ) (id : HotkeyId) :
    Dispatch κ :=
  match r.entries.find? id with
  | none => d
  | some entry =>
    (Hotkey.firing entry.hotkeys entry.options.policy event).foldl
      (·.fire id entry.callback event ·) d

/-- Lets the visible registrations react to an event. -/
def dispatch (r : Registry κ) (event : KeyboardEvent) : Dispatch κ :=
  r.visible.foldl (r.fireEntry event) {}

/-- The registry in one line: how much it holds, and what is visible. -/
def summary (r : Registry κ) : String :=
  let ids := r.visible.map fun id => "HotkeyId(" ++ Nat.repr id.number.toNat ++ ")"
  "BindingRegistry \x7b entries: " ++ Nat.repr r.size ++ ", visible: [" ++ ", ".intercalate ids ++
    "] \x7d"

end Registry

end Keymap
