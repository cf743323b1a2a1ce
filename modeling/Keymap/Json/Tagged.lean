import Keymap.Json.Record

/-! Tagged values: an object whose member `type` names a variant, beside the members of the variant,
or a list that begins with the name. The tag may stand anywhere in the object, so the other members
are read as values first, and fitted to the variant when all is read. -/
namespace Keymap.Json

/-- What a variant makes of the members beside the tag, or of the items behind it. -/
structure Payload (α : Type) where
  ofMembers : List (String × Value) → Except Mismatch α
  ofItems : List Value → Except Mismatch α

def Record.payload (r : Record α) (f : α → β) : Payload β where
  ofMembers members := (r.fitMembers members).map f
  ofItems items := (r.fitItems items).map f

/-- A variant without members of its own. -/
def Payload.none (a : α) : Payload α := Record.payload ⟨"", (), []⟩ fun _ => a

structure Tagged (α : Type) where
  /-- How a message names the values. -/
  title : String
  variants : List (String × Payload α)

/-- The name of the member that holds the tag. -/
def Tagged.tag : String := "type"

/-- An object that begins with its tag. -/
def taggedValue (name : String) (members : List (String × Value)) : Value :=
  .object ((Tagged.tag, .text name) :: members)

namespace Tagged

variable {α : Type}

/-- The name of a variant. -/
def readTag (t : Tagged α) : Scan (Payload α) := fun cs =>
  match dropSpace cs with
  | '"' :: rest =>
    match literal rest with
    | .error e => .error e
    | .ok (name, rest) =>
      match Decoder.variant t.variants name with
      | .error m => failFitHere m rest
      | .ok payload => .ok (payload, rest)
  | rest =>
    match Decoder.glance rest with
    | .error e => .error e
    | .ok (v, rest) => failFitHere (.wrongKind v.found "variant identifier") rest

/-- The tag, once it is found, and the other members, the last one first. -/
abbrev Partial (α : Type) := Option (Payload α) × List (String × Value)

/-- Where an object that is given up ends, as far as it is well formed: behind the closing brace if
that comes next, else in front of what stands in its place. -/
def giveUp (cs : List Char) : List Char :=
  match dropSpace cs with
  | '\x7d' :: rest => rest
  | rest => rest

def readMember (t : Tagged α) (depth : Nat) (state : Partial α) (name : String) :
    Scan (Partial α) := fun cs =>
  if name = tag then
    if state.1.isSome then failFitHere (.duplicateField tag) (giveUp cs)
    else (afterColon t.readTag cs).map fun (payload, rest) => ((some payload, state.2), rest)
  else (pushMember (value depth) state.2 name cs).map fun (others, rest) =>
    ((state.1, others), rest)

/-- Reads up to the closing bracket, and leaves the fitting for later. -/
def read (t : Tagged α) : Nat → Scan (Except Mismatch α)
  | 0, cs => failUpto .tooDeep (dropSpace cs)
  | depth + 1, cs =>
    match dropSpace cs with
    | '[' :: rest =>
      match nextItem true rest with
      | .error e => .error e
      | .ok (false, rest) => failFitHere (.missingField tag) rest
      | .ok (true, rest) =>
        match t.readTag rest with
        | .error e => .error e
        | .ok (payload, rest) =>
          (foldItems (pushItem (value depth)) (rest.length + 1) false [] rest).map
            fun (vs, rest) => (payload.ofItems vs.reverse, rest)
    | '\x7b' :: rest =>
      match members (t.readMember depth) (none, []) rest with
      | .error e => .error e
      | .ok ((none, _), rest) => failFitHere (.missingField tag) rest
      | .ok ((some payload, others), rest) => .ok (payload.ofMembers others.reverse, rest)
    | rest =>
      match scalar rest with
      | .error e => .error e
      | .ok (v, rest) => failFitHere (.wrongKind v.found t.title) rest

/-- Decodes a whole text. A value that does not fit its variant is refused before the text behind
it is looked at. -/
def decode (t : Tagged α) (text : String) : Except Failure α :=
  match t.read nestingLimit text.toList with
  | .error e => .error e
  | .ok (.error m, _) => failFit m
  | .ok (.ok a, rest) => (endOfText rest).map fun _ => a

end Tagged

end Keymap.Json
