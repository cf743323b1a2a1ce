import Keymap.Text.Basic
import Keymap.Text.Lower

/-! Modifier keys: the words that name them, and the flags that record which of them are held or
required. -/
namespace Keymap

/-- The two conventions for the key that carries most shortcuts. -/
inductive Platform where
  | apple
  | other
  deriving DecidableEq, Repr

/-- The convention of the system that the library is built for. -/
def Platform.current : Platform := .other

inductive Modifier where
  | ctrl
  | shift
  | alt
  | metaKey
  /-- The platform's main shortcut modifier. -/
  | primary
  deriving DecidableEq, Repr

/-- The words that stand for a modifier in a combination and never for a key of it. -/
def Modifier.words : List String :=
  ["ctrl", "control", "shift", "alt", "option", "meta", "cmd", "command", "super", "windows", "mod"]

def isModifierWord (token : String) : Bool := (Text.lower (Text.trim token)) ∈ Modifier.words

/-- The modifier that a token names, whatever its case and the blanks around it. -/
def Modifier.ofToken? (token : String) : Option Modifier :=
  match Text.lower (Text.trim token) with
  | "ctrl" | "control" => some .ctrl
  | "shift" => some .shift
  | "alt" | "option" => some .alt
  | "meta" | "cmd" | "command" | "super" | "windows" => some .metaKey
  | "mod" => some .primary
  | _ => none

structure Modifiers where
  ctrl : Bool := false
  shift : Bool := false
  alt : Bool := false
  metaKey : Bool := false
  deriving DecidableEq, Repr

namespace Modifiers

def none : Modifiers := {}

def isEmpty (m : Modifiers) : Bool := !m.ctrl && !m.shift && !m.alt && !m.metaKey

/-- Every flag of the first is also a flag of the second. -/
def isSubset (m held : Modifiers) : Bool :=
  (!m.ctrl || held.ctrl) && (!m.shift || held.shift) && (!m.alt || held.alt) &&
    (!m.metaKey || held.metaKey)

def set (m : Modifiers) (platform : Platform) : Modifier → Modifiers
  | .ctrl => { m with ctrl := true }
  | .shift => { m with shift := true }
  | .alt => { m with alt := true }
  | .metaKey => { m with metaKey := true }
  | .primary =>
    match platform with
    | .apple => { m with metaKey := true }
    | .other => { m with ctrl := true }

/-- The names of the flags that are set, in the order in which a combination shows them. -/
def names (m : Modifiers) : List String :=
  (if m.ctrl then ["ctrl"] else []) ++ (if m.shift then ["shift"] else []) ++
    (if m.alt then ["alt"] else []) ++ (if m.metaKey then ["meta"] else [])

end Modifiers

end Keymap
