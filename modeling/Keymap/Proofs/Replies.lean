import Keymap.Proofs.Fields
import Keymap.Wire.Reply

/-! Every reply can be read back from its line, whatever texts, numbers and hotkeys it carries, and
the line holds no control character. -/
namespace Keymap

open Json

theorem textsValue_fits (texts : List String) (depth : Nat) :
    (textsValue texts).Fits (depth + 1) := by
  apply Value.Fits.list
  intro v member
  obtain ⟨s, _, rfl⟩ := List.mem_map.mp member
  exact .text s

theorem texts_fit (texts : List String) :
    (Decoder.list Decoder.text).fit (textsValue texts) = .ok texts :=
  Decoder.list_fit fun _ _ => rfl

theorem numberValue_fits (n : UInt64) (depth : Nat) : (numberValue n).Fits depth := .natural n

namespace Modifiers

theorem toValue_fits (m : Modifiers) (depth : Nat) : m.toValue.Fits (depth + 1) := by
  apply Value.Fits.object
  simp only [List.forall_mem_cons]
  exact ⟨.flag _, .flag _, .flag _, .flag _, nofun⟩

theorem fit_toValue (m : Modifiers) : decoder.fit m.toValue = .ok m :=
  Record.decoder_written (by decide) (.must rfl (.must rfl (.must rfl (.must rfl .nil)))) rfl

end Modifiers

namespace Hotkey

theorem toValue_fits (h : Hotkey) (depth : Nat) : h.toValue.Fits (depth + 2) := by
  have described : ∀ m ∈ memberOf "description" .text h.description, m.2.Fits (depth + 1) := by
    cases h.description with
    | none => nofun
    | some s => simpa [memberOf] using Value.Fits.text s
  apply Value.Fits.object
  simp only [List.forall_mem_append, List.forall_mem_cons]
  exact ⟨⟨⟨textsValue_fits .., h.modifiers.toValue_fits _, .text _, nofun⟩, described⟩,
    textsValue_fits .., nofun⟩

theorem fit_toValue (h : Hotkey) : decoder.fit h.toValue = .ok h := by
  obtain ⟨keys, modifiers, separator, description, scopes⟩ := h
  cases description with
  | none =>
    exact Record.decoder_written (by decide) (.must (texts_fit keys) (.must modifiers.fit_toValue
      (.must rfl (.absent rfl (.must (texts_fit scopes) .nil))))) rfl
  | some s =>
    exact Record.decoder_written (by decide) (.must (texts_fit keys) (.must modifiers.fit_toValue
      (.must rfl (.may rfl (.must (texts_fit scopes) .nil))))) rfl

end Hotkey

namespace Reply

def variantName : Reply → String
  | .registered _ => "registered"
  | .ack _ => "ack"
  | .scopes _ => "scopes"
  | .triggered _ => "triggered"
  | .handled _ => "handled"
  | .status _ => "status"
  | .pong => "pong"
  | .error _ _ => "error"

def members : Reply → List (String × Value)
  | .registered id => [("id", id.toValue)]
  | .ack changed => [("changed", .flag changed)]
  | .scopes active => [("active", textsValue active)]
  | .triggered what => what.members
  | .handled count => [("count", numberValue count)]
  | .status snapshot => snapshot.members
  | .pong => []
  | .error code message => [("code", .text code), ("message", .text message)]

theorem toValue_eq (r : Reply) : r.toValue = taggedValue r.variantName r.members := by
  cases r <;> rfl

/-- No member takes the place of the tag, and none is nested deeply. -/
theorem members_fit (r : Reply) (depth : Nat) :
    ∀ m ∈ r.members, m.1 ≠ Tagged.tag ∧ m.2.Fits (depth + 3) := by
  have listed (hotkeys : List Hotkey) :
      (Value.list (hotkeys.map Hotkey.toValue)).Fits (depth + 3) := by
    apply Value.Fits.list
    intro v member
    obtain ⟨h, _, rfl⟩ := List.mem_map.mp member
    exact h.toValue_fits depth
  cases r <;> simp only [members, Triggered.members, Snapshot.members, List.forall_mem_cons]
  case registered id => exact ⟨⟨by decide, numberValue_fits ..⟩, nofun⟩
  case ack changed => exact ⟨⟨by decide, .flag _⟩, nofun⟩
  case scopes active => exact ⟨⟨by decide, textsValue_fits ..⟩, nofun⟩
  case triggered what =>
    exact ⟨⟨by decide, numberValue_fits ..⟩, ⟨by decide, what.hotkey.toValue_fits _⟩, nofun⟩
  case handled count => exact ⟨⟨by decide, numberValue_fits ..⟩, nofun⟩
  case status snapshot =>
    exact ⟨⟨by decide, textsValue_fits ..⟩, ⟨by decide, listed _⟩, ⟨by decide, textsValue_fits ..⟩,
      nofun⟩
  case pong => nofun
  case error code message => exact ⟨⟨by decide, .text _⟩, ⟨by decide, .text _⟩, nofun⟩

theorem toValue_fits (r : Reply) (depth : Nat) : r.toValue.Fits (depth + 4) := by
  rw [toValue_eq, taggedValue]
  apply Value.Fits.object
  rw [List.forall_mem_cons]
  exact ⟨.text _, fun m member => (r.members_fit depth m member).2⟩

/-- The variant of a reply's name makes the reply of its members. -/
theorem payload_members (r : Reply) : ∃ payload,
    tagged.variants.lookup r.variantName = some payload ∧ payload.ofMembers r.members = .ok r := by
  cases r with
  | registered id => exact ⟨_, rfl, Record.payload_written _ (by decide) (.must rfl .nil) rfl⟩
  | ack changed => exact ⟨_, rfl, Record.payload_written _ (by decide) (.must rfl .nil) rfl⟩
  | scopes active =>
    exact ⟨_, rfl, Record.payload_written _ (by decide) (.must (texts_fit active) .nil) rfl⟩
  | triggered what =>
    exact ⟨_, rfl, Record.payload_written _ (by decide)
      (.must rfl (.must what.hotkey.fit_toValue .nil)) rfl⟩
  | handled count => exact ⟨_, rfl, Record.payload_written _ (by decide) (.must rfl .nil) rfl⟩
  | status snapshot =>
    have listed : (Decoder.list Hotkey.decoder).fit (.list (snapshot.hotkeys.map Hotkey.toValue)) =
        .ok snapshot.hotkeys := Decoder.list_fit fun h _ => h.fit_toValue
    exact ⟨_, rfl, Record.payload_written _ (by decide)
      (.must (texts_fit _) (.must listed (.must (texts_fit _) .nil))) rfl⟩
  | pong => exact ⟨_, rfl, rfl⟩
  | error code message =>
    exact ⟨_, rfl, Record.payload_written (a := (code, message)) _ (by decide)
      (.must rfl (.must rfl .nil)) rfl⟩

/-- A reply is read back from its line. -/
theorem decode_encode (r : Reply) : decode r.encode = .ok r := by
  obtain ⟨payload, known, made⟩ := r.payload_members
  rw [encode, toValue_eq]
  exact Tagged.decode_written known (r.members_fit 123) made

theorem encode_printable (r : Reply) : ∀ c ∈ r.encode.toList, 0x20 ≤ c.toNat := by
  rw [encode, Value.toText, String.toList_ofList]
  exact (r.toValue_fits 0).printable

end Reply

end Keymap
