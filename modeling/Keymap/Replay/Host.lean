import Keymap.Replay.Listener
import Keymap.Settings

/-! The replay host: a listener and a session that share a channel. Readers and session step in any
order; the session writes one line for every reply. -/
namespace Keymap.Replay

inductive Turn where
  /-- Take a delivery off the channel. -/
  | receiving
  /-- Write the replies to a delivery. -/
  | writing (replies : List Reply)
  /-- All senders are gone and everything is answered. -/
  | finished
  /-- The output refused a line. -/
  | failed (reason : String)
  deriving DecidableEq, Repr

structure Host where
  listener : Listener
  session : Session
  turn : Turn := .receiving
  /-- The lines written so far. -/
  written : List String := []
  /-- The number of lines that the output still accepts, where there is a limit. -/
  room : Option Nat := none

namespace Host

/-- The room that the program gives the channel between its reader and its session. -/
def channelCapacity : Nat := 32

/-- Why a closed output refuses a line. -/
def closedOutput : String := "sink closed"

/-- The host of some settings, reading a whole input. Whether the listener stays in use decides
whether the session ever finishes. -/
def start (settings : Settings) (input : List UInt8) (capacity : Nat) (isKept : Bool) : Host where
  listener := {
    channel := { capacity := capacity }
    running := true
    readers := [{ input := input, ended := true }]
    isKept := isKept }
  session := .new settings.initialScopes settings.platform settings.modifierMatch

def leave (h : Host) (turn : Turn) : Host :=
  { h with listener := h.listener.close, turn := turn }

/-- One step of the session. Nothing is returned where it has to wait, or has stopped. -/
def stepSession? (h : Host) : Option Host :=
  match h.turn with
  | .receiving =>
    match h.listener.channel.queue with
    | delivery :: queue =>
      let (session, replies) := h.session.answer delivery
      some { h with
        listener := { h.listener with channel := { h.listener.channel with queue := queue } }
        session := session
        turn := .writing replies }
    | [] => if h.listener.senders = 0 then some (h.leave .finished) else none
  | .writing [] => some { h with turn := .receiving }
  | .writing (reply :: replies) =>
    match h.room with
    | some 0 => some (h.leave (.failed closedOutput))
    | room => some { h with
        written := h.written ++ [reply.encode], turn := .writing replies, room := room.map (· - 1) }
  | .finished | .failed _ => none

def stepReader? (h : Host) (i : Nat) : Option Host :=
  (h.listener.step? i).map fun l => { h with listener := l }

inductive Mover where
  | reader (i : Nat)
  | session
  /-- Somebody who asks the readers to end. -/
  | stopper
  deriving DecidableEq, Repr

def step? (h : Host) : Mover → Option Host
  | .reader i => h.stepReader? i
  | .session => h.stepSession?
  | .stopper => some { h with listener := h.listener.stop }

/-- Lets the movers of a schedule step one after the other; one that has to wait is passed over. -/
def execute (h : Host) : List Mover → Host
  | [] => h
  | mover :: schedule => execute ((h.step? mover).getD h) schedule

/-- Lets the session step where it can, and a reader where it cannot, until both wait or the bound
is reached. -/
def settle : Nat → Host → Host
  | 0, h => h
  | bound + 1, h =>
    match h.stepSession? with
    | some h => settle bound h
    | none =>
      match h.listener.stepAny? with
      | some l => settle bound { h with listener := l }
      | none => h

/-- An upper bound on the steps of a host from its start: every line fires at most as many hotkeys
as bytes were read before it. -/
def stepBound (h : Host) : Nat :=
  let bytes := (h.listener.readers.map fun r => r.input.length).foldl (· + ·) 0
  (bytes + 8) * (bytes + 8)

def run (h : Host) : Host := settle h.stepBound h

def output (h : Host) : String := String.join (h.written.map (· ++ "\n"))

def failure? (h : Host) : Option String :=
  match h.turn with
  | .failed reason => some reason
  | _ => none

end Host

end Keymap.Replay
