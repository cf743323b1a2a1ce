import Keymap.Json.Tagged
import Keymap.Notice
import Keymap.Wire.Hotkey

/-! The JSON form of notices. -/
namespace Keymap

open Json

namespace Notice

/-- A scope and the active scopes. -/
def scopeRecord (title : String) : Record (String × List String) where
  title := title
  blank := ("", [])
  fields := [
    .must "scope" .text fun s d => (s, d.2),
    .must "active" (.list .text) fun active d => (d.1, active)]

/-- A registration and the number of its hotkeys. -/
def countRecord (title : String) : Record (HotkeyId × UInt64) where
  title := title
  blank := (⟨0⟩, 0)
  fields := [
    .must "id" HotkeyId.decoder fun id d => (id, d.2),
    .must "count" countDecoder fun n d => (d.1, n)]

def idRecord (title : String) : Record HotkeyId where
  title := title
  blank := ⟨0⟩
  fields := [.must "id" HotkeyId.decoder fun id _ => id]

def combinationRecord (title : String) : Record (HotkeyId × String) where
  title := title
  blank := (⟨0⟩, "")
  fields := [
    .must "id" HotkeyId.decoder fun id d => (id, d.2),
    .must "combination" .text fun s d => (d.1, s)]

def tagged : Tagged Notice where
  title := "internally tagged enum ProviderEvent"
  variants := [
    ("scope_activated", (scopeRecord "struct variant ProviderEvent::ScopeActivated").payload
      fun d => .scopeActivated d.1 d.2),
    ("scope_deactivated", (scopeRecord "struct variant ProviderEvent::ScopeDeactivated").payload
      fun d => .scopeDeactivated d.1 d.2),
    ("hotkey_registered", (countRecord "struct variant ProviderEvent::HotkeyRegistered").payload
      fun d => .registered d.1 d.2),
    ("hotkey_updated", (countRecord "struct variant ProviderEvent::HotkeyUpdated").payload
      fun d => .updated d.1 d.2),
    ("hotkey_unregistered", (idRecord "struct variant ProviderEvent::HotkeyUnregistered").payload
      .unregistered),
    ("hotkey_triggered", (combinationRecord "struct variant ProviderEvent::HotkeyTriggered").payload
      fun d => .triggered d.1 d.2)]

def decode (text : String) : Except Failure Notice := tagged.decode text

def toValue : Notice → Value
  | .scopeActivated scope active =>
    taggedValue "scope_activated" [("scope", .text scope), ("active", textsValue active)]
  | .scopeDeactivated scope active =>
    taggedValue "scope_deactivated" [("scope", .text scope), ("active", textsValue active)]
  | .registered id count =>
    taggedValue "hotkey_registered" [("id", id.toValue), ("count", numberValue count)]
  | .updated id count =>
    taggedValue "hotkey_updated" [("id", id.toValue), ("count", numberValue count)]
  | .unregistered id => taggedValue "hotkey_unregistered" [("id", id.toValue)]
  | .triggered id combination =>
    taggedValue "hotkey_triggered" [("id", id.toValue), ("combination", .text combination)]

end Notice

end Keymap
