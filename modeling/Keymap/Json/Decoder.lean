import Keymap.Json.Read

/-! Decoders: how a value of the domain is made from JSON. A decoder does it in two ways, from a
value that has been read before, and straight from text. Straight from text a wrong value is
noticed before the text behind it is looked at. -/
namespace Keymap.Json

structure Decoder (α : Type) where
  /-- From a value. -/
  fit : Value → Except Mismatch α
  /-- From text, in which so many brackets may be open at once. -/
  read : Nat → Scan α

namespace Decoder

def map (f : α → β) (d : Decoder α) : Decoder β where
  fit v := (d.fit v).map f
  read depth cs := (d.read depth cs).map fun (a, rest) => (f a, rest)

/-- What stands next: a scalar is read, of a list or an object only the bracket is looked at. -/
def glance : Scan Value := fun cs =>
  match dropSpace cs with
  | '[' :: rest => .ok (.list [], '[' :: rest)
  | '\x7b' :: rest => .ok (.object [], '\x7b' :: rest)
  | rest => scalar rest

def refuse (need : String) (cs : List Char) : Except Failure α :=
  match glance cs with
  | .error e => .error e
  | .ok (v, _) => failFit (.wrongKind v.found need)

/-- A decoder that accepts no lists and no objects. -/
def ofScalar (fit : Value → Except Mismatch α) : Decoder α where
  fit := fit
  read _ cs :=
    match glance cs with
    | .error e => .error e
    | .ok (v, rest) =>
      match fit v with
      | .error m => failFit m
      | .ok a => .ok (a, rest)

def text : Decoder String := ofScalar fun
  | .text s => .ok s
  | v => .error (.wrongKind v.found "a string")

def flag : Decoder Bool := ofScalar fun
  | .flag b => .ok b
  | v => .error (.wrongKind v.found "a boolean")

/-- An integer of 64 bits that is not negative. -/
def unsigned (need : String) : Decoder UInt64 := ofScalar fun
  | .number (.natural n) => .ok n
  | .number (.negative magnitude) => .error (.wrongValue (.number (.negative magnitude)) need)
  | v => .error (.wrongKind v.found need)

/-- Null stands for nothing. -/
def optional (d : Decoder α) : Decoder (Option α) where
  fit
    | .null => .ok none
    | v => (d.fit v).map some
  read depth cs :=
    match dropSpace cs with
    | 'n' :: rest => (wordRest ['u', 'l', 'l'] rest).map fun rest => (none, rest)
    | rest => (d.read depth rest).map fun (a, rest) => (some a, rest)

def readItem (d : Decoder α) (depth : Nat) (done : List α) : Scan (List α) := fun cs =>
  (d.read depth cs).map fun (a, rest) => (a :: done, rest)

def list (d : Decoder α) : Decoder (List α) where
  fit
    | .list vs => vs.mapM d.fit
    | v => .error (.wrongKind v.found "a sequence")
  read depth cs :=
    match dropSpace cs, depth with
    | '[' :: rest, 0 => failUpto .tooDeep ('[' :: rest)
    | '[' :: rest, depth + 1 =>
      (items (d.readItem depth) [] rest).map fun (as, rest) => (as.reverse, rest)
    | rest, _ => refuse "a sequence" rest

def variant (variants : List (String × α)) (name : String) : Except Mismatch α :=
  match variants.lookup name with
  | some a => .ok a
  | none => .error (.unknownVariant name (variants.map Prod.fst))

/-- What stands for the payload of a variant without one. -/
def unitPayload : Value → Except Mismatch Unit
  | .null | .object [] => .ok ()
  | v => .error (.wrongKind v.found "unit")

def fitChoice (variants : List (String × α)) : Value → Except Mismatch α
  | .text name => variant variants name
  | .object [(name, v)] =>
    match variant variants name with
    | .error m => .error m
    | .ok a => (unitPayload v).map fun _ => a
  | .object _ => .error (.wrongValue .object "map with a single key")
  | v => .error (.wrongKind v.found "string or map")

/-- The name of a variant, behind its opening quote. -/
def readVariant (variants : List (String × α)) : Scan α := fun cs =>
  match literal cs with
  | .error e => .error e
  | .ok (name, rest) =>
    match variant variants name with
    | .error m => failFit m
    | .ok a => .ok (a, rest)

/-- The name of the only member of an object, whose opening brace has been read. -/
def readMemberVariant (variants : List (String × α)) : Scan α := fun cs =>
  match nextMember true cs with
  | .error e => .error e
  | .ok (false, rest) => failHere .expectedValue rest
  | .ok (true, rest) => readVariant variants rest

def readUnit (cs : List Char) : Except Failure (List Char) :=
  match dropSpace cs with
  | 'n' :: rest => wordRest ['u', 'l', 'l'] rest
  | rest => refuse "unit" rest

def closeChoice (a : α) (cs : List Char) : Except Failure (α × List Char) :=
  match dropSpace cs with
  | [] => failHere .endInObject []
  | '\x7d' :: rest => .ok (a, rest)
  | rest => failHere .expectedValue rest

def readChoice (variants : List (String × α)) (depth : Nat) : Scan α := fun cs =>
  match dropSpace cs, depth with
  | [], _ => failHere .endInValue []
  | '"' :: rest, _ => readVariant variants rest
  | '\x7b' :: rest, 0 => failUpto .tooDeep ('\x7b' :: rest)
  | '\x7b' :: rest, _ + 1 =>
    match readMemberVariant variants rest with
    | .error e => .error e
    | .ok (a, rest) =>
      match colon rest with
      | .error e => .error e
      | .ok rest =>
        match readUnit rest with
        | .error e => .error e
        | .ok rest => closeChoice a rest
  | rest, _ => failUpto .expectedValue rest

/-- One of several names, given as a text or as the only member of an object. -/
def choice (variants : List (String × α)) : Decoder α where
  fit := fitChoice variants
  read := readChoice variants

end Decoder

def decodeWith (read : Nat → Scan α) (text : String) : Except Failure α :=
  match read nestingLimit text.toList with
  | .error e => .error e
  | .ok (a, rest) => (endOfText rest).map fun _ => a

def Decoder.decode (d : Decoder α) (text : String) : Except Failure α := decodeWith d.read text

end Keymap.Json
