import Keymap.Json.Value
import Keymap.Text.Quoted

/-! Why a text could not be decoded: it is malformed, or a value in it does not match what is asked
for. A failure may point at a place in the text, as the number of bytes that follow it. -/
namespace Keymap.Json

inductive Malformation where
  | endInValue
  | endInObject
  | endInList
  | endInText
  | expectedValue
  | expectedWord
  | expectedName
  | expectedColon
  | expectedMemberEnd
  | expectedItemEnd
  | trailingComma
  | trailingCharacters
  | badNumeral
  | numeralTooLarge
  | controlCharacter
  | badEscape
  | loneSurrogate
  | brokenSurrogatePair
  | tooDeep
  deriving DecidableEq, Repr

/-- What stands where something else is asked for. -/
inductive Found where
  | null
  | flag (b : Bool)
  | number (n : Number)
  | text (s : String)
  | list
  | object
  deriving DecidableEq, Repr

inductive Mismatch where
  | wrongKind (found : Found) (need : String)
  | wrongValue (found : Found) (need : String)
  | unknownVariant (name : String) (known : List String)
  | duplicateField (name : String)
  | missingField (name : String)
  | wrongLength (length : Nat) (need : String)
  deriving DecidableEq, Repr

inductive Cause where
  | malformed (what : Malformation)
  | mismatch (what : Mismatch)
  deriving DecidableEq, Repr

/-- A cause, with the number of bytes of the text that lie behind the place it is reported at. -/
structure Failure where
  cause : Cause
  unread : Option Nat
  deriving DecidableEq, Repr

def Malformation.message : Malformation → String
  | .endInValue => "EOF while parsing a value"
  | .endInObject => "EOF while parsing an object"
  | .endInList => "EOF while parsing a list"
  | .endInText => "EOF while parsing a string"
  | .expectedValue => "expected value"
  | .expectedWord => "expected ident"
  | .expectedName => "key must be a string"
  | .expectedColon => "expected `:`"
  | .expectedMemberEnd => "expected `,` or `\x7d`"
  | .expectedItemEnd => "expected `,` or `]`"
  | .trailingComma => "trailing comma"
  | .trailingCharacters => "trailing characters"
  | .badNumeral => "invalid number"
  | .numeralTooLarge => "number out of range"
  | .controlCharacter => "control character (\\u0000-\\u001F) found while parsing a string"
  | .badEscape => "invalid escape"
  | .loneSurrogate => "lone leading surrogate in hex escape"
  | .brokenSurrogatePair => "unexpected end of hex escape"
  | .tooDeep => "recursion limit exceeded"

/-- The text ended too early. -/
def Malformation.isEnd (m : Malformation) : Bool :=
  m ∈ [.endInValue, .endInObject, .endInList, .endInText]

def Number.describe : Number → String
  | .natural n => "integer `" ++ Nat.repr n.toNat ++ "`"
  | .negative magnitude => "integer `-" ++ Nat.repr magnitude ++ "`"
  | .decimal isNegative magnitude =>
    "floating point `" ++ (if isNegative then "-" else "") ++ String.ofList magnitude.text ++ "`"

def Found.describe : Found → String
  | .null => "null"
  | .flag b => "boolean `" ++ (if b then "true" else "false") ++ "`"
  | .number n => n.describe
  | .text s => "string " ++ Text.quoted s
  | .list => "sequence"
  | .object => "map"

def Value.found : Value → Found
  | .null => .null
  | .flag b => .flag b
  | .number n => .number n
  | .text s => .text s
  | .list _ => .list
  | .object _ => .object

def choiceOf (names : List String) : String :=
  match names.map fun name => "`" ++ name ++ "`" with
  | [one] => one
  | [one, other] => one ++ " or " ++ other
  | many => "one of " ++ ", ".intercalate many

def Mismatch.message : Mismatch → String
  | .wrongKind found need => "invalid type: " ++ found.describe ++ ", expected " ++ need
  | .wrongValue found need => "invalid value: " ++ found.describe ++ ", expected " ++ need
  | .unknownVariant name known =>
    "unknown variant `" ++ name ++ "`, expected " ++ choiceOf known
  | .duplicateField name => "duplicate field `" ++ name ++ "`"
  | .missingField name => "missing field `" ++ name ++ "`"
  | .wrongLength length need => "invalid length " ++ Nat.repr length ++ ", expected " ++ need

def Cause.message : Cause → String
  | .malformed what => what.message
  | .mismatch what => what.message

/-- Line and column after so many bytes of a text; columns count bytes. -/
def placeFrom : Nat → Nat × Nat → List Char → Nat × Nat
  | _, place, [] => place
  | bytes, (line, column), c :: rest =>
    if bytes < c.utf8Size then (line, column + bytes)
    else if c = '\n' then placeFrom (bytes - 1) (line + 1, 0) rest
    else placeFrom (bytes - c.utf8Size) (line, column + c.utf8Size) rest

def byteCount (cs : List Char) : Nat := cs.foldl (fun n c => n + c.utf8Size) 0

def Failure.message (failure : Failure) (text : String) : String :=
  match failure.unread with
  | none => failure.cause.message
  | some unread =>
    let (line, column) := placeFrom (byteCount text.toList - unread) (1, 0) text.toList
    failure.cause.message ++ " at line " ++ Nat.repr line ++ " column " ++ Nat.repr column

/-- A failure that points in front of the characters not yet read. -/
def failHere (what : Malformation) (rest : List Char) : Except Failure α :=
  .error ⟨.malformed what, some (byteCount rest)⟩

/-- A failure that takes in the next byte, where there is one. -/
def failUpto (what : Malformation) (rest : List Char) : Except Failure α :=
  .error ⟨.malformed what, some (byteCount rest - 1)⟩

/-- A mismatch at a place that is not reported. -/
def failFit (what : Mismatch) : Except Failure α := .error ⟨.mismatch what, none⟩

def failFitHere (what : Mismatch) (rest : List Char) : Except Failure α :=
  .error ⟨.mismatch what, some (byteCount rest)⟩

end Keymap.Json
