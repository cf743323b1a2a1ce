import Keymap.Hotkey.Basic
import Keymap.Text.Basic

/-! Reading combinations. A text is cut into combinations, a combination into tokens, and every
token is a modifier or a key; no text is refused. -/
namespace Keymap.Hotkey

def defaultSplit : String := ","

def defaultSeparator : String := "+"

/-- The combinations of a text: its pieces without blank ends, the empty ones left out. An empty
separator leaves the text in one piece. -/
def split (input separator : String) : List String :=
  let parts :=
    if separator = "" then [input.toList] else Text.pieces separator.toList input.toList
  ((parts.map Text.trimChars).filter (· ≠ [])).map String.ofList

/-- The tokens of a combination that is not blank. -/
def tokens (combination separator : String) : List String :=
  if separator = "" then [combination]
  else (Text.pieces separator.toList (Text.trim combination).toList).map String.ofList

/-- Takes one token: a modifier sets its flag, anything else is a key. An empty token is the
separator itself as a key. -/
def addToken (platform : Platform) (separator : String) (found : List String × Modifiers)
    (token : String) : List String × Modifiers :=
  if token = "" then (addDistinct found.1 separator, found.2)
  else match Modifier.ofToken? token with
    | some modifier => (found.1, found.2.set platform modifier)
    | none => (addDistinct found.1 (Key.canonical token), found.2)

def requirements (platform : Platform) (combination separator : String) :
    List String × Modifiers :=
  if Text.trim combination = "" then ([], .none)
  else (tokens combination separator).foldl (addToken platform separator) ([], .none)

def compile (platform : Platform) (combination separator : String)
    (description : Option String) : Hotkey where
  keys := (requirements platform combination separator).1
  modifiers := (requirements platform combination separator).2
  separator := separator
  description := description
  scopes := [wildcard]

def compileAll (platform : Platform) (input splitAt separator : String)
    (description : Option String) : List Hotkey :=
  (split input splitAt).map (compile platform · separator description)

end Keymap.Hotkey
