import Keymap.Json.Decoder
import Keymap.Json.Skim

/-! Records: values made of named fields. A record is written as an object, whose members may come
in any order beside members of other names, or as the list of its fields. -/
namespace Keymap.Json

/-- A field of a record, as a change of a draft of the record. -/
structure Field (α : Type) where
  name : String
  required : Bool
  update : Decoder (α → α)

def Field.must (name : String) (d : Decoder β) (set : β → α → α) : Field α :=
  ⟨name, true, d.map set⟩

/-- A field that keeps the draft's value when it is not there. -/
def Field.may (name : String) (d : Decoder β) (set : β → α → α) : Field α :=
  ⟨name, false, d.map set⟩

structure Record (α : Type) where
  /-- How a message names the record. -/
  title : String
  /-- The draft to start from, with the defaults of the fields that are not required. -/
  blank : α
  fields : List (Field α)

/-- The fields met so far, with what they change. -/
abbrev Record.Found (α : Type) := List (String × (α → α))

namespace Record

variable {α β : Type}

def field? (r : Record α) (name : String) : Option (Field α) := r.fields.find? (·.name = name)

def hasField (found : Found α) (name : String) : Bool := found.any (·.1 = name)

/-- Applies the fields that were found in the order of declaration. -/
def finish (r : Record α) (found : Found α) : Except Mismatch α :=
  match r.fields.find? fun f => f.required && !hasField found f.name with
  | some f => .error (.missingField f.name)
  | none => .ok <| r.fields.foldl (fun draft f =>
      match found.lookup f.name with
      | some change => change draft
      | none => draft) r.blank

def fitMember (r : Record α) (found : Found α) (member : String × Value) :
    Except Mismatch (Found α) :=
  match r.field? member.1 with
  | none => .ok found
  | some f =>
    if hasField found f.name then .error (.duplicateField f.name)
    else (f.update.fit member.2).map fun change => (f.name, change) :: found

def fitMembers (r : Record α) (members : List (String × Value)) : Except Mismatch α :=
  match members.foldlM r.fitMember [] with
  | .error m => .error m
  | .ok found => r.finish found

def elements (n : Nat) : String := Nat.repr n ++ (if n = 1 then " element" else " elements")

def lengthNeed (r : Record α) : String := r.title ++ " with " ++ elements r.fields.length

/-- The fields that are still open when a list ends must not be required. -/
def endItems (r : Record α) (draft : α) : Nat → List (Field α) → Except Mismatch α
  | _, [] => .ok draft
  | n, f :: fs =>
    if f.required then .error (.wrongLength n r.lengthNeed) else endItems r draft (n + 1) fs

/-- Takes the items of a list for the fields from number `n` on. -/
def fitItemsFrom (r : Record α) (draft : α) : Nat → List (Field α) → List Value →
    Except Mismatch α
  | n, fs, [] => endItems r draft n fs
  | n, [], vs => .error (.wrongLength (n + vs.length) (elements n ++ " in sequence"))
  | n, f :: fs, v :: vs =>
    match f.update.fit v with
    | .error m => .error m
    | .ok change => fitItemsFrom r (change draft) (n + 1) fs vs

def fitItems (r : Record α) (items : List Value) : Except Mismatch α :=
  r.fitItemsFrom r.blank 0 r.fields items

def fit (r : Record α) : Value → Except Mismatch α
  | .object members => r.fitMembers members
  | .list items => r.fitItems items
  | v => .error (.wrongKind v.found r.title)

def readMember (r : Record α) (depth : Nat) (found : Found α) (name : String) :
    Scan (Found α) := fun cs =>
  match r.field? name with
  | none => (colon cs).bind fun rest => (skim rest).map fun rest => (found, rest)
  | some f =>
    if hasField found f.name then failFit (.duplicateField f.name)
    else (afterColon (f.update.read depth) cs).map fun (change, rest) =>
      ((f.name, change) :: found, rest)

def readMembers (r : Record α) (depth : Nat) : Scan α := fun cs =>
  match members (r.readMember depth) [] cs with
  | .error e => .error e
  | .ok (found, rest) =>
    match r.finish found with
    | .error m => failFit m
    | .ok a => .ok (a, rest)

def readItemsFrom (r : Record α) (depth : Nat) (draft : α) : Nat → List (Field α) → Scan α
  | _, [], cs => (closeList cs).map fun rest => (draft, rest)
  | n, f :: fs, cs =>
    match nextItem (n = 0) cs with
    | .error e => .error e
    | .ok (false, rest) =>
      match endItems r draft n (f :: fs) with
      | .error m => failFit m
      | .ok a => .ok (a, rest)
    | .ok (true, rest) =>
      match f.update.read depth rest with
      | .error e => .error e
      | .ok (change, rest) => readItemsFrom r depth (change draft) (n + 1) fs rest

def read (r : Record α) (depth : Nat) : Scan α := fun cs =>
  match dropSpace cs, depth with
  | '[' :: rest, 0 => failUpto .tooDeep ('[' :: rest)
  | '\x7b' :: rest, 0 => failUpto .tooDeep ('\x7b' :: rest)
  | '[' :: rest, depth + 1 => r.readItemsFrom depth r.blank 0 r.fields rest
  | '\x7b' :: rest, depth + 1 => r.readMembers depth rest
  | rest, _ => Decoder.refuse r.title rest

def decoder (r : Record α) : Decoder α := ⟨r.fit, r.read⟩

/-- Reads an object that holds the members of two records side by side. The members that are none
of the first record's are read as values, and fitted to the second one at the end. -/
def readBoth (r : Record α) (other : Record β) (depth : Nat) : Scan (α × β) := fun cs =>
  match dropSpace cs, depth with
  | '\x7b' :: rest, 0 => failUpto .tooDeep ('\x7b' :: rest)
  | '\x7b' :: rest, depth + 1 =>
    let onMember (state : Found α × List (String × Value)) (name : String) :
        Scan (Found α × List (String × Value)) := fun cs =>
      match r.field? name with
      | none => (pushMember (value depth) state.2 name cs).map fun (others, rest) =>
          ((state.1, others), rest)
      | some _ => (r.readMember depth state.1 name cs).map fun (found, rest) =>
          ((found, state.2), rest)
    match members onMember ([], []) rest with
    | .error e => .error e
    | .ok ((found, others), rest) =>
      match r.finish found, other.fitMembers others.reverse with
      | .error m, _ | .ok _, .error m => failFit m
      | .ok a, .ok b => .ok ((a, b), rest)
  | rest, _ => Decoder.refuse r.title rest

end Record

end Keymap.Json
