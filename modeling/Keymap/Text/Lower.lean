import Keymap.Text.CaseTable
import Keymap.Text.Basic

/-! Full lower-casing. Every character maps by itself except the capital sigma, which takes its
final form at the end of a word. -/
namespace Keymap.Text

def CaseRun.contains (run : CaseRun) (n : Nat) : Bool :=
  run.first ≤ n && n ≤ run.last && (n - run.first) % run.step == 0

/-- The lower-case letter of a capital of the table, as a code point; the table ascends. -/
def imageIn : List CaseRun → Nat → Option Nat
  | [], _ => none
  | run :: above, n =>
    if n < run.first then none
    else if run.contains n then some (run.image + (n - run.first))
    else imageIn above n

/-- The dotted capital I keeps its dot as a combining mark. -/
def lowerChar (c : Char) : List Char :=
  if c = 'İ' then ['i', '\u0307']
  else match imageIn capitals c.toNat with
    | some n => [Char.ofNat n]
    | none => [c]

def isCased (c : Char) : Bool := memRanges casedRanges c.toNat

def isCaseIgnorable (c : Char) : Bool := memRanges caseIgnorableRanges c.toNat

/-- Whether the nearest character that counts, past the ignorable ones, has a case. -/
def meetsCased (cs : List Char) : Bool :=
  match cs.dropWhile isCaseIgnorable with
  | c :: _ => isCased c
  | [] => false

/-- A capital sigma is final when a cased letter precedes it and none follows. -/
def lowerSigma (before after : List Char) : Char :=
  if meetsCased before && !meetsCased after then 'ς' else 'σ'

/-- `before` holds the characters already passed, the nearest first. -/
def lowerFrom (before : List Char) : List Char → List Char
  | [] => []
  | c :: rest =>
    (if c = 'Σ' then [lowerSigma before rest] else lowerChar c) ++ lowerFrom (c :: before) rest

def lowerChars (cs : List Char) : List Char := lowerFrom [] cs

def lower (s : String) : String := String.ofList (lowerChars s.toList)

end Keymap.Text
