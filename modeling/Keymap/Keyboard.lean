import Keymap.Notice
import Keymap.Registry

/-! A keyboard: the active scopes, the registrations and the keys held down. Every change of scopes
or registrations brings the visible list up to date at once, and is announced by a notice. -/
namespace Keymap

structure Keyboard (κ : Type) where
  scopes : ActiveScopes
  registry : Registry κ := {}
  platform : Platform := .current
  /-- Canonical names, in the order in which the keys went down. -/
  held : List String := []

/-- What an operation leaves behind: the new state, the notices sent, and its answer. -/
structure Outcome (κ α : Type) where
  state : Keyboard κ
  notices : List Notice
  answer : α

namespace Keyboard

variable {κ : Type}

def new (initialScopes : List String) (platform : Platform) : Keyboard κ :=
  { scopes := .ofList initialScopes, platform := platform }

def refresh (k : Keyboard κ) : Keyboard κ := { k with registry := k.registry.recompute k.scopes }

/-- The hotkeys that are live under the active scopes, in the order of registration. -/
def hotkeys (k : Keyboard κ) : List Hotkey := k.registry.visibleHotkeys

/-- Takes over the scopes after a change. Where anything changed the visible list is brought up to
date, and the change is announced as an activation or a deactivation. -/
def changeScopes (k : Keyboard κ) (scope : String) (activated : Bool)
    (change : ActiveScopes × Bool) : Outcome κ Unit :=
  let moved := { k with scopes := change.1 }
  if change.2 then
    let notice :=
      if activated then Notice.scopeActivated scope change.1.names
      else Notice.scopeDeactivated scope change.1.names
    ⟨moved.refresh, [notice], ()⟩
  else ⟨moved, [], ()⟩

def activate (k : Keyboard κ) (scope : String) : Outcome κ Unit :=
  k.changeScopes scope true (k.scopes.activate scope)

def deactivate (k : Keyboard κ) (scope : String) : Outcome κ Unit :=
  k.changeScopes scope false (k.scopes.deactivate scope)

def toggle (k : Keyboard κ) (scope : String) : Outcome κ Unit :=
  let change := k.scopes.toggle scope
  k.changeScopes scope (change.1.isActive scope) change

/-- Registers the combinations of a text. A text without any gives a registration that never
fires. -/
def register (k : Keyboard κ) (text : String) (callback : κ) (options : Options) :
    Outcome κ HotkeyId :=
  let hotkeys := options.compile k.platform text
  let (registry, id) := k.registry.insert hotkeys options callback
  ⟨refresh { k with registry := registry }, [.registered id (.ofNat hotkeys.length)], id⟩

/-- Gives a registration new combinations and options; false when there is no such one. -/
def update (k : Keyboard κ) (id : HotkeyId) (text : String) (options : Options) :
    Outcome κ Bool :=
  let hotkeys := options.compile k.platform text
  let (registry, replaced) := k.registry.replace id hotkeys options
  let k := { k with registry := registry }
  if replaced then ⟨k.refresh, [.updated id (.ofNat hotkeys.length)], true⟩ else ⟨k, [], false⟩

def unregister (k : Keyboard κ) (id : HotkeyId) : Outcome κ Bool :=
  let (registry, removed) := k.registry.remove id
  let k := { k with registry := registry }
  if removed then ⟨k.refresh, [.unregistered id], true⟩ else ⟨k, [], false⟩

/-- The keys held after an event. Releasing the meta key releases all of them, since a surface may
not report the keys released while it is held. -/
def heldAfter (held : List String) (event : KeyboardEvent) : List String :=
  let key := event.canonicalKey
  match event.phase with
  | .down => if key = "" then held else addDistinct held key
  | .up => if key = "meta" then [] else held.filter (· ≠ key)

def handle (k : Keyboard κ) (event : KeyboardEvent) : Outcome κ (Dispatch κ) :=
  let dispatch := k.registry.dispatch event
  ⟨{ k with held := heldAfter k.held event },
    dispatch.fired.map fun t => .triggered t.id t.hotkey.display, dispatch⟩

def isKeyHeld (k : Keyboard κ) (key : String) : Bool := Key.canonical key ∈ k.held

/-- Every key of a list that is separated by commas; an empty list is never held. -/
def areKeysHeld (k : Keyboard κ) (keys : String) : Bool :=
  let names := Hotkey.split keys Hotkey.defaultSplit
  !names.isEmpty && names.all k.isKeyHeld

def clearHeld (k : Keyboard κ) : Keyboard κ := { k with held := [] }

end Keyboard

end Keymap
