import Keymap.Key.Modifier
import Keymap.Key.Name
import Keymap.Scope

/-! Hotkeys: what has to be pressed for one combination, and the scopes in which it is live. A
keyboard event fires a hotkey as the policy of its registration decides. -/
namespace Keymap

structure Hotkey where
  /-- Canonical names without repetitions, in the order written. Any one of them triggers. -/
  keys : List String
  modifiers : Modifiers
  /-- The text that stands between the tokens of the combination. -/
  separator : String
  description : Option String
  scopes : List String
  deriving DecidableEq, Repr

namespace Hotkey

def withScopes (h : Hotkey) (scopes : List String) : Hotkey :=
  { h with scopes := scopesOrWildcard scopes }

/-- Live whatever scopes are active. -/
def isGlobal (h : Hotkey) : Bool := wildcard ∈ h.scopes

/-- The combination as text: the modifiers in a fixed order, then the keys. -/
def display (h : Hotkey) : String := h.separator.intercalate (h.modifiers.names ++ h.keys)

end Hotkey

inductive KeyPhase where
  | down
  | up
  deriving DecidableEq, Repr

structure KeyboardEvent where
  /-- The key as the input surface names it. -/
  key : String
  ctrl : Bool := false
  shift : Bool := false
  alt : Bool := false
  metaKey : Bool := false
  /-- Sent again because the key is still held. -/
  repeated : Bool := false
  phase : KeyPhase := .down
  deriving DecidableEq, Repr

namespace KeyboardEvent

def ofDown (key : String) : KeyboardEvent := { key := key }

def ofUp (key : String) : KeyboardEvent := { key := key, phase := .up }

def withModifiers (e : KeyboardEvent) (m : Modifiers) : KeyboardEvent :=
  { e with ctrl := m.ctrl, shift := m.shift, alt := m.alt, metaKey := m.metaKey }

def withCtrl (e : KeyboardEvent) : KeyboardEvent := { e with ctrl := true }

def withShift (e : KeyboardEvent) : KeyboardEvent := { e with shift := true }

def repeating (e : KeyboardEvent) : KeyboardEvent := { e with repeated := true }

def modifiers (e : KeyboardEvent) : Modifiers := ⟨e.ctrl, e.shift, e.alt, e.metaKey⟩

def canonicalKey (e : KeyboardEvent) : String := Key.canonical e.key

end KeyboardEvent

/-- How the modifiers of a hotkey are compared with the held ones. -/
inductive ModifierMatch where
  /-- The same ones. -/
  | exact
  /-- At least these. -/
  | subset
  /-- Any. -/
  | ignore
  deriving DecidableEq, Repr

def ModifierMatch.allows (how : ModifierMatch) (required held : Modifiers) : Bool :=
  match how with
  | .exact => required = held
  | .subset => required.isSubset held
  | .ignore => true

structure MatchPolicy where
  keydown : Bool := true
  keyup : Bool := false
  ignoreRepeat : Bool := false
  modifierMatch : ModifierMatch := .exact
  deriving DecidableEq, Repr

def MatchPolicy.firesOn (policy : MatchPolicy) : KeyPhase → Bool
  | .down => policy.keydown
  | .up => policy.keyup

namespace Hotkey

/-- A hotkey without keys asks for its modifiers only. -/
def asksFor (h : Hotkey) (key : String) : Bool := h.keys.isEmpty || key ∈ h.keys

def firesFor (h : Hotkey) (policy : MatchPolicy) (event : KeyboardEvent) : Bool :=
  policy.firesOn event.phase && !(event.repeated && policy.ignoreRepeat) &&
    policy.modifierMatch.allows h.modifiers event.modifiers && h.asksFor event.canonicalKey

def firing (hotkeys : List Hotkey) (policy : MatchPolicy) (event : KeyboardEvent) : List Hotkey :=
  hotkeys.filter (·.firesFor policy event)

end Hotkey

end Keymap
