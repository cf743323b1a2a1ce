import Keymap.Json.Literal
import Keymap.Json.Numeral

/-! Reading JSON text into values. Lists and objects may be nested up to a limit. -/
namespace Keymap.Json

def scalar : Scan Value := fun cs =>
  match dropSpace cs with
  | [] => failHere .endInValue []
  | 'n' :: rest => (wordRest ['u', 'l', 'l'] rest).map fun rest => (.null, rest)
  | 't' :: rest => (wordRest ['r', 'u', 'e'] rest).map fun rest => (.flag true, rest)
  | 'f' :: rest => (wordRest ['a', 'l', 's', 'e'] rest).map fun rest => (.flag false, rest)
  | '"' :: rest => (literal rest).map fun (s, rest) => (.text s, rest)
  | '-' :: rest => (numeral true rest).map fun (n, rest) => (.number n, rest)
  | c :: rest =>
    if c.isDigit then (numeral false (c :: rest)).map fun (n, rest) => (.number n, rest)
    else failUpto .expectedValue (c :: rest)

/-- The items of a list after its opening bracket, taken up one by one. The bound on the number of
items is the length of the text, since every item takes at least a character. -/
def foldItems (onItem : σ → Scan σ) : Nat → Bool → σ → Scan σ
  | 0, _, _, rest => failHere .endInList rest
  | bound + 1, first, s, rest =>
    match nextItem first rest with
    | .error e => .error e
    | .ok (false, rest) => .ok (s, rest)
    | .ok (true, rest) =>
      match onItem s rest with
      | .error e => .error e
      | .ok (s, rest) => foldItems onItem bound false s rest

/-- The members of an object after its opening brace, taken up one by one. What is to be done with
a member is told its name and reads on from there. -/
def foldMembers (onMember : σ → String → Scan σ) : Nat → Bool → σ → Scan σ
  | 0, _, _, rest => failHere .endInObject rest
  | bound + 1, first, s, rest =>
    match nextMember first rest with
    | .error e => .error e
    | .ok (false, rest) => .ok (s, rest)
    | .ok (true, rest) =>
      match literal rest with
      | .error e => .error e
      | .ok (name, rest) =>
        match onMember s name rest with
        | .error e => .error e
        | .ok (s, rest) => foldMembers onMember bound false s rest

def items (onItem : σ → Scan σ) (s : σ) : Scan σ := fun cs =>
  foldItems onItem (cs.length + 1) true s cs

def members (onMember : σ → String → Scan σ) (s : σ) : Scan σ := fun cs =>
  foldMembers onMember (cs.length + 1) true s cs

def afterColon (scan : Scan α) : Scan α := fun cs =>
  match colon cs with
  | .error e => .error e
  | .ok rest => scan rest

def pushItem (scan : Scan Value) (done : List Value) : Scan (List Value) := fun cs =>
  (scan cs).map fun (v, rest) => (v :: done, rest)

def pushMember (scan : Scan Value) (done : List (String × Value)) (name : String) :
    Scan (List (String × Value)) := fun cs =>
  (afterColon scan cs).map fun (v, rest) => ((name, v) :: done, rest)

/-- How many brackets may be open at once. -/
def nestingLimit : Nat := 127

/-- A value in which at most `depth` brackets are open at once. -/
def value : Nat → Scan Value
  | 0, cs =>
    match dropSpace cs with
    | '[' :: rest => failUpto .tooDeep ('[' :: rest)
    | '\x7b' :: rest => failUpto .tooDeep ('\x7b' :: rest)
    | rest => scalar rest
  | depth + 1, cs =>
    match dropSpace cs with
    | '[' :: rest =>
      (items (pushItem (value depth)) [] rest).map fun (vs, rest) => (.list vs.reverse, rest)
    | '\x7b' :: rest =>
      (members (pushMember (value depth)) [] rest).map fun (ms, rest) =>
        (.object ms.reverse, rest)
    | rest => scalar rest

def Value.ofText? (text : String) : Except Failure Value :=
  match value nestingLimit text.toList with
  | .error e => .error e
  | .ok (v, rest) => (endOfText rest).map fun _ => v

end Keymap.Json
