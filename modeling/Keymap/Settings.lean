import Keymap.Hotkey.Compile
import Keymap.Text.Quoted

/-! Settings of the replay host, read from named variables. -/
namespace Keymap

structure Settings where
  /-- Active from the start; none stands for the wildcard. -/
  initialScopes : List String
  platform : Platform
  /-- For registrations that leave it open. -/
  modifierMatch : ModifierMatch
  deriving DecidableEq, Repr

/-- A variable whose value is none of the allowed ones. -/
structure SettingsError where
  name : String
  value : String
  deriving DecidableEq, Repr

def SettingsError.message (e : SettingsError) : String :=
  "invalid " ++ e.name ++ " value: " ++ Text.quoted e.value

namespace Settings

def initialScopesVariable : String := "HOTKEYS_INITIAL_SCOPES"

def platformVariable : String := "HOTKEYS_PLATFORM"

def modifierMatchVariable : String := "HOTKEYS_MODIFIER_MATCH"

def platformOf (value : Option String) : Except SettingsError Platform :=
  match value.map Text.trim with
  | none | some "" | some "auto" => .ok .current
  | some "apple" => .ok .apple
  | some "other" => .ok .other
  | some other => .error ⟨platformVariable, other⟩

def modifierMatchOf (value : Option String) : Except SettingsError ModifierMatch :=
  match value.map Text.trim with
  | none | some "" | some "exact" => .ok .exact
  | some "subset" => .ok .subset
  | some "ignore" => .ok .ignore
  | some other => .error ⟨modifierMatchVariable, other⟩

/-- The settings that the variables give, with defaults for those that are not set. -/
def ofVariables (value? : String → Option String) : Except SettingsError Settings := do
  let scopes := match value? initialScopesVariable with
    | none => []
    | some text => Hotkey.split text Hotkey.defaultSplit
  let platform ← platformOf (value? platformVariable)
  let modifierMatch ← modifierMatchOf (value? modifierMatchVariable)
  return ⟨scopes, platform, modifierMatch⟩

end Settings

end Keymap
