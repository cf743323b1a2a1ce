import Keymap.Json.Scan

/-! Reading quoted text in JSON. -/
namespace Keymap.Json

def hexDigit? (c : Char) : Option Nat :=
  if c.isDigit then some (c.toNat - '0'.toNat)
  else if 'a' ≤ c && c ≤ 'f' then some (c.toNat - 'a'.toNat + 10)
  else if 'A' ≤ c && c ≤ 'F' then some (c.toNat - 'A'.toNat + 10)
  else none

/-- Four hexadecimal digits. They take the next four bytes, which may be part of a character. -/
def fourHex (cs : List Char) : Except Failure (Nat × List Char) :=
  if byteCount (cs.take 4) < 4 then failHere .endInText []
  else
    let bad : Except Failure (Nat × List Char) :=
      .error ⟨.malformed .badEscape, some (byteCount cs - 4)⟩
    match cs with
    | a :: b :: c :: d :: rest =>
      match hexDigit? a, hexDigit? b, hexDigit? c, hexDigit? d with
      | some a, some b, some c, some d => .ok (((a * 16 + b) * 16 + c) * 16 + d, rest)
      | _, _, _, _ => bad
    | _ => bad

def isHighSurrogate (unit : Nat) : Bool := 0xD800 ≤ unit && unit ≤ 0xDBFF

def isLowSurrogate (unit : Nat) : Bool := 0xDC00 ≤ unit && unit ≤ 0xDFFF

def ofSurrogates (high low : Nat) : Char :=
  Char.ofNat (0x10000 + (high - 0xD800) * 0x400 + (low - 0xDC00))

/-- The low half that has to follow a high surrogate, and the number of characters it takes. -/
def lowSurrogate (high : Nat) (cs : List Char) : Except Failure (Char × Nat) :=
  match cs with
  | [] => failHere .endInText []
  | '\\' :: 'u' :: rest =>
    match fourHex rest with
    | .error e => .error e
    | .ok (low, rest) =>
      if isLowSurrogate low then .ok (ofSurrogates high low, 6) else failHere .loneSurrogate rest
  | '\\' :: [] => failHere .endInText []
  | '\\' :: rest => failUpto .brokenSurrogatePair rest
  | rest => failUpto .brokenSurrogatePair rest

/-- A character by its number, or by the two halves of its surrogate pair. -/
def unicodeEscape (cs : List Char) : Except Failure (Char × Nat) :=
  match fourHex cs with
  | .error e => .error e
  | .ok (unit, rest) =>
    if isLowSurrogate unit then failHere .loneSurrogate rest
    else if isHighSurrogate unit then
      (lowSurrogate unit rest).map fun (c, taken) => (c, taken + 5)
    else .ok (Char.ofNat unit, 5)

def unescaped? : Char → Option Char
  | '"' => some '"'
  | '\\' => some '\\'
  | '/' => some '/'
  | 'b' => some '\x08'
  | 'f' => some '\x0c'
  | 'n' => some '\n'
  | 'r' => some '\r'
  | 't' => some '\t'
  | _ => none

/-- The character that an escape stands for, and the number of characters after its backslash. -/
def escape (cs : List Char) : Except Failure (Char × Nat) :=
  match cs with
  | [] => failHere .endInText []
  | 'u' :: rest => unicodeEscape rest
  | c :: rest =>
    match unescaped? c with
    | some plain => .ok (plain, 1)
    | none => failUpto .badEscape (c :: rest)

/-- The characters up to the closing quote. `skip` counts the characters of an escape already
understood that are still to be passed over. -/
def literalFrom : Nat → List Char → Except Failure (List Char × List Char)
  | _, [] => failHere .endInText []
  | skip + 1, _ :: rest => literalFrom skip rest
  | 0, c :: rest =>
    if c = '"' then .ok ([], rest)
    else if c = '\\' then
      match escape rest with
      | .error e => .error e
      | .ok (plain, taken) => (literalFrom taken rest).map fun (cs, rest) => (plain :: cs, rest)
    else if c.toNat < 0x20 then failUpto .controlCharacter (c :: rest)
    else (literalFrom 0 rest).map fun (cs, rest) => (c :: cs, rest)

def literal : Scan String := fun cs =>
  (literalFrom 0 cs).map fun (text, rest) => (String.ofList text, rest)

end Keymap.Json
