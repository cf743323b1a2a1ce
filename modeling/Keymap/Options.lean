import Keymap.Hotkey.Compile

/-! What a registration says beside its combinations. -/
namespace Keymap

structure Options where
  /-- An empty list stands for the wildcard. -/
  scopes : List String := [wildcard]
  /-- The text between combinations. -/
  splitAt : String := Hotkey.defaultSplit
  /-- The text between the tokens of one combination. -/
  separator : String := Hotkey.defaultSeparator
  description : Option String := none
  /-- A registration that is not enabled stays registered and never fires. -/
  enabled : Bool := true
  policy : MatchPolicy := {}
  deriving DecidableEq, Repr

namespace Options

def withScopes (o : Options) (scopes : List String) : Options := { o with scopes := scopes }

def withDescription (o : Options) (text : String) : Options := { o with description := some text }

def withSplitAt (o : Options) (text : String) : Options := { o with splitAt := text }

def withSeparator (o : Options) (text : String) : Options := { o with separator := text }

def withEnabled (o : Options) (enabled : Bool) : Options := { o with enabled := enabled }

def onPhases (o : Options) (keydown keyup : Bool) : Options :=
  { o with policy := { o.policy with keydown := keydown, keyup := keyup } }

def ignoringRepeats (o : Options) : Options :=
  { o with policy := { o.policy with ignoreRepeat := true } }

def withModifierMatch (o : Options) (how : ModifierMatch) : Options :=
  { o with policy := { o.policy with modifierMatch := how } }

def effectiveScopes (o : Options) : List String :=
  if o.scopes.isEmpty then [wildcard] else o.scopes

/-- The hotkeys of a text under these options. -/
def compile (o : Options) (platform : Platform) (text : String) : List Hotkey :=
  (Hotkey.compileAll platform text o.splitAt o.separator o.description).map
    (·.withScopes o.effectiveScopes)

end Options

/-- Options of which any may be left open. -/
structure PartialOptions where
  scopes : Option (List String) := none
  splitAt : Option String := none
  separator : Option String := none
  description : Option String := none
  enabled : Option Bool := none
  keydown : Option Bool := none
  keyup : Option Bool := none
  ignoreRepeat : Option Bool := none
  modifierMatch : Option ModifierMatch := none
  deriving DecidableEq, Repr

/-- Fills what was left open with the defaults; how modifiers are compared has a default of its
own. -/
def PartialOptions.resolve (o : PartialOptions) (modifierMatch : ModifierMatch) : Options :=
  let defaults : Options := {}
  { scopes := o.scopes.getD defaults.scopes
    splitAt := o.splitAt.getD defaults.splitAt
    separator := o.separator.getD defaults.separator
    description := o.description
    enabled := o.enabled.getD defaults.enabled
    policy := {
      keydown := o.keydown.getD defaults.policy.keydown
      keyup := o.keyup.getD defaults.policy.keyup
      ignoreRepeat := o.ignoreRepeat.getD defaults.policy.ignoreRepeat
      modifierMatch := o.modifierMatch.getD modifierMatch } }

end Keymap
