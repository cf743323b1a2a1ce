import Keymap.Registry
import Keymap.Wire.Event

/-! The JSON forms of hotkeys and of what names them. -/
namespace Keymap

open Json

/-- A list of texts. -/
def textsValue (texts : List String) : Value := .list (texts.map .text)

def numberValue (n : UInt64) : Value := .number (.natural n)

/-- A member that is left out where there is nothing to write. -/
def memberOf (name : String) (form : α → Value) : Option α → List (String × Value)
  | none => []
  | some a => [(name, form a)]

namespace HotkeyId

def decoder : Decoder HotkeyId := (Decoder.unsigned "u64").map HotkeyId.mk

def toValue (id : HotkeyId) : Value := numberValue id.number

end HotkeyId

/-- A number of things. -/
def countDecoder : Decoder UInt64 := .unsigned "usize"

namespace Hotkey

def record : Record Hotkey where
  title := "struct Hotkey"
  blank := ⟨[], .none, "", none, []⟩
  fields := [
    .must "keys" (.list .text) fun keys h => { h with keys := keys },
    .must "modifiers" Modifiers.decoder fun m h => { h with modifiers := m },
    .must "combination_key" .text fun s h => { h with separator := s },
    .may "description" (.optional .text) fun s h => { h with description := s },
    .must "scopes" (.list .text) fun scopes h => { h with scopes := scopes }]

def decoder : Decoder Hotkey := record.decoder

def toValue (h : Hotkey) : Value :=
  .object <| [("keys", textsValue h.keys), ("modifiers", h.modifiers.toValue),
    ("combination_key", .text h.separator)] ++ memberOf "description" .text h.description ++
    [("scopes", textsValue h.scopes)]

end Hotkey

namespace Triggered

def record : Record Triggered where
  title := "struct Triggered"
  blank := ⟨⟨0⟩, Hotkey.record.blank⟩
  fields := [
    .must "id" HotkeyId.decoder fun id t => { t with id := id },
    .must "hotkey" Hotkey.decoder fun h t => { t with hotkey := h }]

def decoder : Decoder Triggered := record.decoder

def members (t : Triggered) : List (String × Value) :=
  [("id", t.id.toValue), ("hotkey", t.hotkey.toValue)]

def toValue (t : Triggered) : Value := .object t.members

end Triggered

end Keymap
