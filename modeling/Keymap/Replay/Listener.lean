import Keymap.Session
import Keymap.Text.Basic

/-! The listener: readers turn lines of input into deliveries and put them on a channel. Every
reader runs on its own, one step at a time, and looks at a flag that all of them share. -/
namespace Keymap.Replay

/-- A queue with room for so many deliveries, as long as somebody is there to receive them. -/
structure Channel where
  queue : List Delivery := []
  capacity : Nat
  isOpen : Bool := true

inductive Stage where
  /-- Read a line. -/
  | reading
  /-- Look at the flag, with a line in hand; a line may not be text. -/
  | checking (line : Option String)
  /-- Wait for room on the channel. -/
  | sending (delivery : Delivery)
  /-- Clear the flag and end. -/
  | leaving
  | gone
  deriving DecidableEq, Repr

structure Reader where
  /-- What has arrived and is not read. -/
  input : List UInt8
  /-- Nothing more will arrive. -/
  ended : Bool
  stage : Stage := .reading
  deriving DecidableEq, Repr

def Reader.isAlive (r : Reader) : Bool := r.stage ≠ .gone

/-- Reads a line. Nothing is returned while the line is not complete. -/
def Reader.readLine? (r : Reader) : Option Reader :=
  match Text.nextLine? r.input with
  | some (line, rest) => some { r with input := rest, stage := .checking (Text.ofBytes? line) }
  | none =>
    if !r.ended then none
    else if r.input = [] then some { r with stage := .leaving }
    else some { r with input := [], stage := .checking (Text.ofBytes? r.input) }

structure Listener where
  /-- Set while a reader is meant to run. -/
  running : Bool := false
  /-- The readers that were started, the first one first. -/
  readers : List Reader := []
  channel : Channel
  /-- The listener itself is still in use, and could start another reader. -/
  isKept : Bool := true

inductive ListenerError where
  | alreadyRunning
  | threadSpawn (reason : String)
  deriving DecidableEq, Repr

def ListenerError.message : ListenerError → String
  | .alreadyRunning => "line listener is already running"
  | .threadSpawn reason => "failed to spawn listener thread: " ++ reason

namespace Listener

def new (capacity : Nat) : Listener := { channel := { capacity := capacity } }

/-- Starts a reader on its own input. Where the system refuses a thread for it, which it gives a
reason for, the flag that was set is cleared again. -/
def start (l : Listener) (input : List UInt8) (ended : Bool) (refusal : Option String) :
    Listener × Except ListenerError Unit :=
  let claimed := { l with running := true }
  if l.running then (claimed, .error .alreadyRunning)
  else match refusal with
    | some reason => ({ claimed with running := false }, .error (.threadSpawn reason))
    | none =>
      ({ claimed with readers := l.readers ++ [{ input := input, ended := ended }] }, .ok ())

/-- Asks the readers to end at their next line. -/
def stop (l : Listener) : Listener := { l with running := false }

/-- The ends of the channel that deliveries can still come from. -/
def senders (l : Listener) : Nat :=
  (if l.isKept then 1 else 0) + l.readers.countP Reader.isAlive

/-- Nobody receives what is sent from now on. -/
def close (l : Listener) : Listener :=
  { l with channel := { l.channel with queue := [], isOpen := false } }

/-- Looks at the flag. A line that comes too late or is not text ends the reader, and a blank line
is passed over. -/
def check (running : Bool) : Option String → Stage
  | none => .leaving
  | some line =>
    if !running then .leaving
    else if Text.trim line = "" then .reading
    else .sending (.ofLine line)

/-- One step of a reader. Nothing is returned where the reader has to wait, or has ended. -/
def stepReader? (l : Listener) (r : Reader) : Option (Reader × Listener) :=
  match r.stage with
  | .reading => r.readLine?.map fun r => (r, l)
  | .checking line => some ({ r with stage := check l.running line }, l)
  | .sending delivery =>
    if !l.channel.isOpen then some ({ r with stage := .leaving }, l)
    else if l.channel.queue.length < l.channel.capacity then
      some ({ r with stage := .reading },
        { l with channel := { l.channel with queue := l.channel.queue ++ [delivery] } })
    else none
  | .leaving => some ({ r with stage := .gone }, { l with running := false })
  | .gone => none

/-- One step of the reader that was started as number `i`. -/
def step? (l : Listener) (i : Nat) : Option Listener :=
  match l.readers[i]? with
  | none => none
  | some r => (l.stepReader? r).map fun (r, l) => { l with readers := l.readers.set i r }

/-- Lets the first reader that is able to step do so. -/
def stepAny? (l : Listener) : Option Listener :=
  (List.range l.readers.length).findSome? l.step?

/-- Lets the readers step until all of them wait, or the bound is reached. -/
def settle : Nat → Listener → Listener
  | 0, l => l
  | bound + 1, l =>
    match l.stepAny? with
    | none => l
    | some l => settle bound l

/-- An upper bound on the steps that the readers can take without more input. -/
def stepBound (l : Listener) : Nat :=
  (l.readers.map fun r => 4 * r.input.length + 8).foldl (· + ·) 0

def run (l : Listener) : Listener := settle l.stepBound l

/-- Hands bytes to the reader started last; no bytes are the end of its input. -/
def feed (l : Listener) (bytes : List UInt8) : Listener :=
  { l with readers := l.readers.modify (l.readers.length - 1) fun r =>
      if bytes = [] then { r with ended := true } else { r with input := r.input ++ bytes } }

def collect (l : Listener) : List Delivery × Listener :=
  (l.channel.queue, { l with channel := { l.channel with queue := [] } })

end Listener

end Keymap.Replay
