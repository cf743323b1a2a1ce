import Keymap.Json.Literal

/-! Passing over a value that is not asked for. Skimming checks less than reading: neither the
nesting nor the size of numerals is limited, and surrogates need not be paired. -/
namespace Keymap.Json

def skimExponent (cs : List Char) : Except Failure (List Char) :=
  let digits := match cs with
    | '+' :: rest | '-' :: rest => rest
    | rest => rest
  match digits with
  | [] => failHere .badNumeral []
  | c :: rest =>
    if c.isDigit then .ok (rest.dropWhile Char.isDigit) else failUpto .badNumeral (c :: rest)

def skimPlaces (cs : List Char) : Except Failure (List Char) :=
  match cs with
  | [] => failHere .badNumeral []
  | c :: rest =>
    if c.isDigit then
      match rest.dropWhile Char.isDigit with
      | 'e' :: rest | 'E' :: rest => skimExponent rest
      | rest => .ok rest
    else failUpto .badNumeral (c :: rest)

def skimFraction (cs : List Char) : Except Failure (List Char) :=
  match cs with
  | '.' :: rest => skimPlaces rest
  | 'e' :: rest | 'E' :: rest => skimExponent rest
  | rest => .ok rest

def skimNumeral (cs : List Char) : Except Failure (List Char) :=
  match cs with
  | [] => failHere .badNumeral []
  | '0' :: [] => .ok []
  | '0' :: c :: rest =>
    if c.isDigit then failUpto .badNumeral (c :: rest) else skimFraction (c :: rest)
  | c :: rest =>
    if c.isDigit then skimFraction (rest.dropWhile Char.isDigit)
    else failUpto .badNumeral (c :: rest)

/-- The text after an opening quote; `skip` counts characters already accounted for. -/
def skimText : Nat → List Char → Except Failure (List Char)
  | _, [] => failHere .endInText []
  | skip + 1, _ :: rest => skimText skip rest
  | 0, c :: rest =>
    if c = '"' then .ok rest
    else if c = '\\' then
      match rest with
      | [] => failHere .endInText []
      | 'u' :: digits =>
        match fourHex digits with
        | .error e => .error e
        | .ok _ => skimText 5 rest
      | letter :: _ =>
        if (unescaped? letter).isSome then skimText 1 rest else failUpto .badEscape rest
    else if c.toNat < 0x20 then failUpto .controlCharacter (c :: rest)
    else skimText 0 rest

mutual

/-- A value. The first argument bounds the number of brackets, commas and values on the way. -/
def skimValue : Nat → List Char → Except Failure (List Char)
  | 0, cs => failHere .endInValue cs
  | bound + 1, cs =>
    match dropSpace cs with
    | [] => failHere .endInValue []
    | 'n' :: rest => wordRest ['u', 'l', 'l'] rest
    | 't' :: rest => wordRest ['r', 'u', 'e'] rest
    | 'f' :: rest => wordRest ['a', 'l', 's', 'e'] rest
    | '"' :: rest => skimText 0 rest
    | '-' :: rest => skimNumeral rest
    | '[' :: rest => skimItems bound true rest
    | '\x7b' :: rest => skimMembers bound true rest
    | c :: rest =>
      if c.isDigit then skimNumeral (c :: rest) else failUpto .expectedValue (c :: rest)

def skimItems : Nat → Bool → List Char → Except Failure (List Char)
  | 0, _, cs => failHere .endInList cs
  | bound + 1, first, cs =>
    match dropSpace cs with
    | [] => failHere .endInList []
    | ']' :: rest => .ok rest
    | c :: rest =>
      if first || c = ',' then
        match skimValue bound (if first then c :: rest else rest) with
        | .error e => .error e
        | .ok rest => skimItems bound false rest
      else failUpto .expectedItemEnd (c :: rest)

def skimMembers : Nat → Bool → List Char → Except Failure (List Char)
  | 0, _, cs => failHere .endInObject cs
  | bound + 1, first, cs =>
    match dropSpace cs with
    | [] => failHere .endInObject []
    | '\x7d' :: rest => .ok rest
    | c :: rest =>
      if first || c = ',' then
        match dropSpace (if first then c :: rest else rest) with
        | [] => failHere .endInObject []
        | '"' :: rest =>
          match skimText 0 rest with
          | .error e => .error e
          | .ok rest =>
            match colon rest with
            | .error e => .error e
            | .ok rest =>
              match skimValue bound rest with
              | .error e => .error e
              | .ok rest => skimMembers bound false rest
        | rest => failUpto .expectedName rest
      else failUpto .expectedMemberEnd (c :: rest)

end

def skim (cs : List Char) : Except Failure (List Char) := skimValue (2 * cs.length + 2) cs

end Keymap.Json
