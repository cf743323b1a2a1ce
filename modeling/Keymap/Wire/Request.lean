import Keymap.Json.Tagged
import Keymap.Wire.Options

/-! Requests: what a host asks of a session, one per line. -/
namespace Keymap

open Json

inductive Request where
  | key (event : KeyboardEvent)
  | register (keys : String) (options : PartialOptions)
  | update (id : HotkeyId) (keys : String) (options : PartialOptions)
  | unregister (id : HotkeyId)
  | activateScope (scope : String)
  | deactivateScope (scope : String)
  | toggleScope (scope : String)
  | status
  | ping
  deriving DecidableEq, Repr

namespace Request

def keyRecord : Record KeyboardEvent where
  title := "struct variant Request::Key"
  blank := KeyboardEvent.record.blank
  fields := [.must "event" KeyboardEvent.decoder fun e _ => e]

def registerRecord : Record (String × PartialOptions) where
  title := "struct variant Request::Register"
  blank := ("", {})
  fields := [
    .must "keys" .text fun keys d => (keys, d.2),
    .may "options" PartialOptions.decoder fun o d => (d.1, o)]

def updateRecord : Record (HotkeyId × String × PartialOptions) where
  title := "struct variant Request::Update"
  blank := (⟨0⟩, "", {})
  fields := [
    .must "id" HotkeyId.decoder fun id d => (id, d.2),
    .must "keys" .text fun keys d => (d.1, keys, d.2.2),
    .may "options" PartialOptions.decoder fun o d => (d.1, d.2.1, o)]

def unregisterRecord : Record HotkeyId where
  title := "struct variant Request::Unregister"
  blank := ⟨0⟩
  fields := [.must "id" HotkeyId.decoder fun id _ => id]

def scopeRecord (title : String) : Record String where
  title := title
  blank := ""
  fields := [.must "scope" .text fun scope _ => scope]

def tagged : Tagged Request where
  title := "internally tagged enum Request"
  variants := [
    ("key", keyRecord.payload .key),
    ("register", registerRecord.payload fun d => .register d.1 d.2),
    ("update", updateRecord.payload fun d => .update d.1 d.2.1 d.2.2),
    ("unregister", unregisterRecord.payload .unregister),
    ("activate_scope", (scopeRecord "struct variant Request::ActivateScope").payload
      .activateScope),
    ("deactivate_scope", (scopeRecord "struct variant Request::DeactivateScope").payload
      .deactivateScope),
    ("toggle_scope", (scopeRecord "struct variant Request::ToggleScope").payload .toggleScope),
    ("status", .none .status),
    ("ping", .none .ping)]

/-- Decodes one line, whose blank ends do not count. -/
def decode (line : String) : Except Failure Request := tagged.decode (Text.trim line)

def toValue : Request → Value
  | .key event => taggedValue "key" [("event", event.toValue)]
  | .register keys options =>
    taggedValue "register" [("keys", .text keys), ("options", options.toValue)]
  | .update id keys options =>
    taggedValue "update" [("id", id.toValue), ("keys", .text keys), ("options", options.toValue)]
  | .unregister id => taggedValue "unregister" [("id", id.toValue)]
  | .activateScope scope => taggedValue "activate_scope" [("scope", .text scope)]
  | .deactivateScope scope => taggedValue "deactivate_scope" [("scope", .text scope)]
  | .toggleScope scope => taggedValue "toggle_scope" [("scope", .text scope)]
  | .status => taggedValue "status" []
  | .ping => taggedValue "ping" []

def encode (r : Request) : String := r.toValue.toText

end Request

end Keymap
