import Keymap.Json.Failure

/-! The tokens of JSON text. A scan takes what it reads off the front of the text and returns it
with the characters that follow. -/
namespace Keymap.Json

abbrev Scan (α : Type) := List Char → Except Failure (α × List Char)

def isSpace (c : Char) : Bool := c = ' ' || c = '\n' || c = '\t' || c = '\r'

def dropSpace (cs : List Char) : List Char := cs.dropWhile isSpace

def wordRest : List Char → List Char → Except Failure (List Char)
  | [], rest => .ok rest
  | _ :: _, [] => failHere .endInValue []
  | letter :: word, c :: rest =>
    if c = letter then wordRest word rest else failUpto .expectedWord (c :: rest)

def colon (cs : List Char) : Except Failure (List Char) :=
  match dropSpace cs with
  | [] => failHere .endInObject []
  | ':' :: rest => .ok rest
  | rest => failUpto .expectedColon rest

/-- Looks for the next item of a list. Answers whether there is one, and leaves its text, or what
follows the closing bracket. -/
def nextItem (first : Bool) : Scan Bool := fun cs =>
  match dropSpace cs with
  | [] => failHere .endInList []
  | ']' :: rest => .ok (false, rest)
  | c :: rest =>
    if first then .ok (true, c :: rest)
    else if c = ',' then
      match dropSpace rest with
      | [] => failHere .endInValue []
      | ']' :: rest => failUpto .trailingComma (']' :: rest)
      | rest => .ok (true, rest)
    else failUpto .expectedItemEnd (c :: rest)

/-- Where the name of a member must begin: leaves the text after its opening quote. -/
def nameStart : Scan Bool := fun cs =>
  match cs with
  | [] => failHere .endInValue []
  | '"' :: rest => .ok (true, rest)
  | '\x7d' :: rest => failUpto .trailingComma ('\x7d' :: rest)
  | rest => failUpto .expectedName rest

/-- Looks for the next member of an object. Answers whether there is one, and leaves the text after
the opening quote of its name, or what follows the closing brace. -/
def nextMember (first : Bool) : Scan Bool := fun cs =>
  match dropSpace cs with
  | [] => failHere .endInObject []
  | '\x7d' :: rest => .ok (false, rest)
  | c :: rest =>
    if first then nameStart (c :: rest)
    else if c = ',' then nameStart (dropSpace rest)
    else failUpto .expectedMemberEnd (c :: rest)

/-- The closing bracket of a list from which everything asked for has been taken. -/
def closeList (cs : List Char) : Except Failure (List Char) :=
  match dropSpace cs with
  | [] => failHere .endInList []
  | ']' :: rest => .ok rest
  | ',' :: rest =>
    match dropSpace rest with
    | ']' :: rest => failUpto .trailingComma (']' :: rest)
    | rest => failUpto .trailingCharacters rest
  | rest => failUpto .trailingCharacters rest

/-- Nothing but space may follow a text's value. -/
def endOfText (cs : List Char) : Except Failure Unit :=
  match dropSpace cs with
  | [] => .ok ()
  | rest => failUpto .trailingCharacters rest

end Keymap.Json
