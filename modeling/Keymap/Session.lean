import Keymap.Keyboard
import Keymap.Wire.Reply
import Keymap.Wire.Request

/-! A session owns a keyboard and answers requests, strictly in the order of their arrival. -/
namespace Keymap

/-- What arrives for one line of input. -/
inductive Delivery where
  | request (r : Request)
  | malformed (e : ProtocolError)
  deriving DecidableEq, Repr

/-- The request on a line, or the error that the line is answered with. -/
def Delivery.ofLine (line : String) : Delivery :=
  match Request.decode line with
  | .ok r => .request r
  | .error failure => .malformed (.malformed failure (Text.trim line))

structure Session where
  keyboard : Keyboard Unit
  /-- For registrations that leave it open. -/
  modifierMatch : ModifierMatch

namespace Session

def new (initialScopes : List String) (platform : Platform) (modifierMatch : ModifierMatch) :
    Session :=
  ⟨.new initialScopes platform, modifierMatch⟩

def snapshot (s : Session) : Snapshot :=
  ⟨s.keyboard.scopes.names, s.keyboard.hotkeys, s.keyboard.held⟩

/-- The session after an operation on its keyboard. -/
def after (s : Session) (o : Outcome Unit α) : Session := { s with keyboard := o.state }

def scopesReply (o : Outcome Unit α) : Reply := .scopes o.state.scopes.names

/-- Applies one request. Only a keyboard event is answered by more than one reply: one for every
hotkey it fires, and one to end with. -/
def process (s : Session) : Request → Session × List Reply
  | .key event =>
    let o := s.keyboard.handle event
    (s.after o, o.answer.fired.map .triggered ++ [.handled (.ofNat o.answer.fired.length)])
  | .register keys options =>
    let o := s.keyboard.register keys () (options.resolve s.modifierMatch)
    (s.after o, [.registered o.answer])
  | .update id keys options =>
    let o := s.keyboard.update id keys (options.resolve s.modifierMatch)
    (s.after o, [.ack o.answer])
  | .unregister id =>
    let o := s.keyboard.unregister id
    (s.after o, [.ack o.answer])
  | .activateScope scope =>
    let o := s.keyboard.activate scope
    (s.after o, [scopesReply o])
  | .deactivateScope scope =>
    let o := s.keyboard.deactivate scope
    (s.after o, [scopesReply o])
  | .toggleScope scope =>
    let o := s.keyboard.toggle scope
    (s.after o, [scopesReply o])
  | .status => (s, [.status s.snapshot])
  | .ping => (s, [.pong])

/-- Answers what arrived for one line; a malformed line changes nothing. -/
def answer (s : Session) : Delivery → Session × List Reply
  | .request r => s.process r
  | .malformed e => (s, [e.reply])

/-- Answers a run of deliveries one after the other. -/
def answerAll (s : Session) : List Delivery → Session × List Reply
  | [] => (s, [])
  | d :: ds =>
    let (s, replies) := s.answer d
    let (s, more) := s.answerAll ds
    (s, replies ++ more)

end Session

end Keymap
