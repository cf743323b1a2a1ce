import Keymap.Text.Basic
import Keymap.Text.Lower

/-! Canonical key names. A key may be written by an alias, by its physical code, in any case and
with blanks around it; all spellings of one key have one canonical name. -/
namespace Keymap.Key

/-- The aliases, in lower case, with the names they stand for. -/
def aliases : List (String × String) := [
  ("esc", "Escape"), ("escape", "Escape"),
  ("space", "Space"), ("spacebar", "Space"),
  ("return", "Enter"), ("enter", "Enter"),
  ("tab", "Tab"), ("backspace", "Backspace"),
  ("del", "Delete"), ("delete", "Delete"),
  ("ins", "Insert"), ("insert", "Insert"),
  ("home", "Home"), ("end", "End"),
  ("pageup", "PageUp"), ("pgup", "PageUp"),
  ("pagedown", "PageDown"), ("pgdn", "PageDown"),
  ("up", "ArrowUp"), ("arrowup", "ArrowUp"),
  ("down", "ArrowDown"), ("arrowdown", "ArrowDown"),
  ("left", "ArrowLeft"), ("arrowleft", "ArrowLeft"),
  ("right", "ArrowRight"), ("arrowright", "ArrowRight"),
  ("shiftleft", "shift"), ("shiftright", "shift"),
  ("control", "ctrl"), ("controlleft", "ctrl"), ("controlright", "ctrl"),
  ("option", "alt"), ("altleft", "alt"), ("altright", "alt"),
  ("cmd", "meta"), ("command", "meta"), ("super", "meta"), ("windows", "meta"), ("os", "meta"),
  ("metaleft", "meta"), ("metaright", "meta"), ("osleft", "meta"), ("osright", "meta")]

def digitsValue (digits : List Char) : Nat :=
  digits.foldl (fun n d => 10 * n + (d.toNat - '0'.toNat)) 0

/-- The number of a function key: one plus sign and any zeros may lead, and there are 24 keys. -/
def functionNumber? (code : List Char) : Option Nat :=
  let digits := match code with
    | '+' :: rest => rest
    | _ => code
  let n := digitsValue digits
  if digits ≠ [] && digits.all Char.isDigit && 1 ≤ n && n ≤ 24 then some n else none

/-- The key behind a physical code; any other name stands for itself. -/
def ofCode (name : List Char) : List Char :=
  match name with
  | ['k', 'e', 'y', c] => if c.isAlpha then [c] else name
  | ['d', 'i', 'g', 'i', 't', c] => if c.isDigit then [c] else name
  | ['n', 'u', 'm', 'p', 'a', 'd', c] => if c.isDigit then [c] else name
  | 'f' :: code =>
    match functionNumber? code with
    | some n => 'F' :: Nat.toDigits 10 n
    | none => name
  | _ => name

/-- The key that a lower-case name without blank ends stands for. -/
def ofLower (name : String) : String :=
  match aliases.lookup name with
  | some key => key
  | none => String.ofList (ofCode name.toList)

/-- Blanks alone are the space key, and the empty token is no key at all. -/
def canonical (raw : String) : String :=
  let bare := Text.trim raw
  if bare = "" then (if raw = "" then "" else "Space")
  else ofLower (Text.lower bare)

end Keymap.Key
