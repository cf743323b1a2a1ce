import Keymap.Json.Scan

/-! Numerals in JSON. An integer that fits 64 bits is read exactly; every other numeral is read as a
floating-point number, of which only the digits that fit 64 bits count. -/
namespace Keymap.Json

def greatestSignificand : Nat := Nat.pow 2 64 - 1

def greatestExponent : Nat := Nat.pow 2 31 - 1

def digitValue (c : Char) : Nat := c.toNat - '0'.toNat

/-- Appends digits to a number as long as it stays within a limit; the digits left over follow. -/
def gather (limit : Nat) : Nat → List Char → Nat × List Char
  | n, [] => (n, [])
  | n, d :: ds =>
    let m := 10 * n + digitValue d
    if limit < m then (n, d :: ds) else gather limit m ds

def digitsOf (cs : List Char) : List Char × List Char :=
  (cs.takeWhile Char.isDigit, cs.dropWhile Char.isDigit)

def ofDecimal (isNegative : Bool) (significand : Nat) (power : Int) : Scan Number := fun rest =>
  match Binary64.ofDecimal? significand power with
  | some x => .ok (.decimal isNegative x, rest)
  | none => failHere .numeralTooLarge rest

/-- An integer of any size below 2 ^ 64; negative ones end at -2 ^ 63, and minus zero is none. -/
def ofInteger (isNegative : Bool) (n : Nat) : Scan Number :=
  if !isNegative then fun rest => .ok (.natural (.ofNat n), rest)
  else if 0 < n && n ≤ Nat.pow 2 63 then fun rest => .ok (.negative n, rest)
  else ofDecimal true n 0

/-- The exponent after its letter. An exponent beyond the limit makes zero of a number, or takes it
out of range. -/
def exponentRest (isNegative : Bool) (significand : Nat) (power : Int) : Scan Number := fun cs =>
  let (down, cs) := match cs with
    | '+' :: rest => (false, rest)
    | '-' :: rest => (true, rest)
    | rest => (false, rest)
  let (digits, rest) := digitsOf cs
  if digits = [] then
    if rest = [] then failHere .endInValue [] else failUpto .badNumeral rest
  else
    let (exponent, left) := gather greatestExponent 0 digits
    if left = [] then
      ofDecimal isNegative significand (if down then power - exponent else power + exponent) rest
    else if significand = 0 || down then .ok (.decimal isNegative .zero, rest)
    else .error ⟨.malformed .numeralTooLarge, some (left.length - 1 + byteCount rest)⟩

def startsExponent (cs : List Char) : Bool :=
  match cs with
  | c :: _ => c = 'e' || c = 'E'
  | [] => false

def exponentOrEnd (isNegative : Bool) (significand : Nat) (power : Int) : Scan Number := fun cs =>
  if startsExponent cs then exponentRest isNegative significand power cs.tail
  else ofDecimal isNegative significand power cs

def placesRest (isNegative : Bool) (significand : Nat) (power : Int) : Scan Number := fun cs =>
  let (places, rest) := digitsOf cs
  if places = [] then
    if rest = [] then failHere .endInValue [] else failUpto .badNumeral rest
  else
    let (significand, left) := gather greatestSignificand significand places
    exponentOrEnd isNegative significand (power - (places.length - left.length)) rest

def afterWhole (isNegative : Bool) (whole : List Char) : Scan Number := fun cs =>
  let (significand, left) := gather greatestSignificand 0 whole
  match cs with
  | '.' :: rest => placesRest isNegative significand left.length rest
  | _ =>
    if left = [] && !startsExponent cs then ofInteger isNegative significand cs
    else exponentOrEnd isNegative significand left.length cs

/-- A numeral without its sign. A zero in front of another digit is refused. -/
def numeral (isNegative : Bool) : Scan Number := fun cs =>
  match digitsOf cs with
  | ([], []) => failHere .endInValue []
  | ([], rest) => failUpto .badNumeral rest
  | ('0' :: next :: more, rest) => failUpto .badNumeral (next :: more ++ rest)
  | (whole, rest) => afterWhole isNegative whole rest

end Keymap.Json
