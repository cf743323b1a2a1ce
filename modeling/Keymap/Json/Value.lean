import Keymap.Decimal.Shortest

/-! JSON values, and how they are written: no space, members in their order. A name may occur more
than once among the members of an object. -/
namespace Keymap.Json

inductive Number where
  /-- An integer that is not negative and fits 64 bits. -/
  | natural (n : UInt64)
  /-- The negative of a magnitude from 1 to 2 ^ 63. -/
  | negative (magnitude : Nat)
  /-- Everything else, minus zero included. -/
  | decimal (isNegative : Bool) (magnitude : Binary64)
  deriving DecidableEq, Repr

inductive Value where
  | null
  | flag (b : Bool)
  | number (n : Number)
  | text (s : String)
  | list (items : List Value)
  | object (members : List (String × Value))
  deriving Repr

/-- A character as it is written between quotes: controls are escaped, by a letter where they have
one, and quote and backslash too. -/
def writeChar (c : Char) : List Char :=
  match c with
  | '"' => ['\\', '"']
  | '\\' => ['\\', '\\']
  | '\x08' => ['\\', 'b']
  | '\x0c' => ['\\', 'f']
  | '\n' => ['\\', 'n']
  | '\r' => ['\\', 'r']
  | '\t' => ['\\', 't']
  | c =>
    if c.toNat < 0x20 then
      ['\\', 'u', '0', '0', Nat.digitChar (c.toNat / 16), Nat.digitChar (c.toNat % 16)]
    else [c]

def writeText (s : String) : List Char := '"' :: s.toList.flatMap writeChar ++ ['"']

def Number.print : Number → List Char
  | .natural n => Nat.toDigits 10 n.toNat
  | .negative magnitude => '-' :: Nat.toDigits 10 magnitude
  | .decimal isNegative magnitude => (if isNegative then ['-'] else []) ++ magnitude.text

mutual

def Value.print : Value → List Char
  | .null => ['n', 'u', 'l', 'l']
  | .flag true => ['t', 'r', 'u', 'e']
  | .flag false => ['f', 'a', 'l', 's', 'e']
  | .number n => n.print
  | .text s => writeText s
  | .list [] => ['[', ']']
  | .list (v :: vs) => '[' :: v.print ++ printItems vs
  | .object [] => ['\x7b', '\x7d']
  | .object ((name, v) :: ms) => '\x7b' :: writeText name ++ ':' :: v.print ++ printMembers ms

/-- The items after the first one, and the closing bracket. -/
def printItems : List Value → List Char
  | [] => [']']
  | v :: vs => ',' :: v.print ++ printItems vs

/-- The members after the first one, and the closing brace. -/
def printMembers : List (String × Value) → List Char
  | [] => ['\x7d']
  | (name, v) :: ms => ',' :: writeText name ++ ':' :: v.print ++ printMembers ms

end

/-- The text of a value. -/
def Value.toText (v : Value) : String := String.ofList v.print

end Keymap.Json
