import Keymap.Json.Tagged
import Keymap.Wire.Hotkey

/-! Replies: what a session answers, one per line. -/
namespace Keymap

open Json

/-- What can be observed of a keyboard. -/
structure Snapshot where
  activeScopes : List String
  /-- The hotkeys that are live under the active scopes. -/
  hotkeys : List Hotkey
  /-- The keys held down. -/
  held : List String
  deriving DecidableEq, Repr

inductive Reply where
  | registered (id : HotkeyId)
  /-- Whether an update or the end of a registration changed anything. -/
  | ack (changed : Bool)
  | scopes (active : List String)
  | triggered (what : Triggered)
  /-- A keyboard event was handled, and fired so many hotkeys. -/
  | handled (count : UInt64)
  | status (snapshot : Snapshot)
  | pong
  | error (code message : String)
  deriving DecidableEq, Repr

namespace Snapshot

def record : Record Snapshot where
  title := "struct ProviderStatus"
  blank := ⟨[], [], []⟩
  fields := [
    .must "active_scopes" (.list .text) fun scopes s => { s with activeScopes := scopes },
    .must "hotkeys" (.list Hotkey.decoder) fun hotkeys s => { s with hotkeys := hotkeys },
    .must "pressed" (.list .text) fun held s => { s with held := held }]

def decoder : Decoder Snapshot := record.decoder

def members (s : Snapshot) : List (String × Value) :=
  [("active_scopes", textsValue s.activeScopes), ("hotkeys", .list (s.hotkeys.map Hotkey.toValue)),
    ("pressed", textsValue s.held)]

def toValue (s : Snapshot) : Value := .object s.members

end Snapshot

namespace Reply

def registeredRecord : Record HotkeyId where
  title := "struct variant Response::Registered"
  blank := ⟨0⟩
  fields := [.must "id" HotkeyId.decoder fun id _ => id]

def ackRecord : Record Bool where
  title := "struct variant Response::Ack"
  blank := false
  fields := [.must "changed" .flag fun b _ => b]

def scopesRecord : Record (List String) where
  title := "struct variant Response::Scopes"
  blank := []
  fields := [.must "active" (.list .text) fun active _ => active]

def handledRecord : Record UInt64 where
  title := "struct variant Response::Handled"
  blank := 0
  fields := [.must "count" countDecoder fun n _ => n]

def errorRecord : Record (String × String) where
  title := "struct variant Response::Error"
  blank := ("", "")
  fields := [
    .must "code" .text fun code d => (code, d.2),
    .must "message" .text fun message d => (d.1, message)]

def tagged : Tagged Reply where
  title := "internally tagged enum Response"
  variants := [
    ("registered", registeredRecord.payload .registered),
    ("ack", ackRecord.payload .ack),
    ("scopes", scopesRecord.payload .scopes),
    ("triggered", Triggered.record.payload .triggered),
    ("handled", handledRecord.payload .handled),
    ("status", Snapshot.record.payload .status),
    ("pong", .none .pong),
    ("error", errorRecord.payload fun d => .error d.1 d.2)]

def decode (text : String) : Except Failure Reply := tagged.decode text

def toValue : Reply → Value
  | .registered id => taggedValue "registered" [("id", id.toValue)]
  | .ack changed => taggedValue "ack" [("changed", .flag changed)]
  | .scopes active => taggedValue "scopes" [("active", textsValue active)]
  | .triggered what => taggedValue "triggered" what.members
  | .handled count => taggedValue "handled" [("count", numberValue count)]
  | .status snapshot => taggedValue "status" snapshot.members
  | .pong => taggedValue "pong" []
  | .error code message => taggedValue "error" [("code", .text code), ("message", .text message)]

/-- One line, without its end. -/
def encode (r : Reply) : String := r.toValue.toText

end Reply

/-- Why a line of the protocol failed. -/
inductive ProtocolError where
  /-- The line is no request; with the line's text. -/
  | malformed (failure : Failure) (text : String)
  | encode (failure : Failure) (text : String)
  deriving DecidableEq, Repr

namespace ProtocolError

def code : ProtocolError → String
  | .malformed _ _ => "malformed_request"
  | .encode _ _ => "encode_failed"

def message : ProtocolError → String
  | .malformed failure text => "malformed request: " ++ failure.message text
  | .encode failure text => "failed to encode response: " ++ failure.message text

def reply (e : ProtocolError) : Reply := .error e.code e.message

end ProtocolError

end Keymap
