import Mathlib.Control.Monad.Basic
import Keymap.Proofs.Replies
import Keymap.Proofs.Trimming
import Keymap.Wire.Request

/-! Every request can be read back from its text, with any blanks around it, whatever texts and
numbers it carries and whichever of its options are left open. -/
namespace Keymap

open Json

namespace Json

theorem printMembers_last (ms : List (String × Value)) :
    (printMembers ms).getLast? = some '\x7d' := by
  induction ms with
  | nil => rfl
  | cons m ms ih => simp [printMembers, List.getLast?_append, List.getLast?_cons, ih]

/-- The text of an object begins and ends with a brace. -/
theorem taggedValue_tight (name : String) (ms : List (String × Value)) :
    Text.Tight (taggedValue name ms).print := by
  refine ⟨?_, ?_⟩
  · rintro c ⟨⟩
    decide
  · intro c last
    simp only [taggedValue, Value.print, List.getLast?_append, List.getLast?_cons,
      printMembers_last] at last
    obtain rfl : '\x7d' = c := by simpa using last
    decide

namespace Record

variable {α β : Type}

def changeOf (name : String) (set : Option β → α → α) (o : Option β) : Found α :=
  (o.map fun b => (name, set (some b))).toList

/-- A field that may be left open is written only where it is given. -/
theorem Written.memberOf {name : String} {d : Decoder β} {set : Option β → α → α}
    {form : β → Value} {o : Option β} {fs : List (Field α)} {ms : List (String × Value)}
    {found : Found α} (fits : ∀ b, d.optional.fit (form b) = .ok (some b))
    (rest : Written fs ms found) :
    Written (.may name d.optional set :: fs) (Keymap.memberOf name form o ++ ms)
      (changeOf name set o ++ found) := by
  cases o with
  | none => exact .absent rfl rest
  | some b => exact .may (fits b) rest

/-- A field that is left open keeps the draft as it is, so in either case it is set. -/
theorem foldl_changeOf {name : String} {set : Option β → α → α} {o : Option β} {found : Found α}
    {draft : α} (blank : set none draft = draft) :
    (changeOf name set o ++ found).foldl (fun draft entry => entry.2 draft) draft =
      found.foldl (fun draft entry => entry.2 draft) (set o draft) := by
  cases o with
  | none => rw [blank]; rfl
  | some b => rfl

end Record

end Json

namespace KeyPhase

theorem fit_toValue (p : KeyPhase) : decoder.fit p.toValue = .ok p := by
  cases p <;> rfl

end KeyPhase

namespace ModifierMatch

theorem fit_toValue (how : ModifierMatch) : decoder.optional.fit how.toValue = .ok (some how) := by
  cases how <;> rfl

end ModifierMatch

namespace KeyboardEvent

theorem toValue_fits (e : KeyboardEvent) (depth : Nat) : e.toValue.Fits (depth + 1) := by
  apply Value.Fits.object
  simp only [List.forall_mem_cons]
  exact ⟨.text _, .flag _, .flag _, .flag _, .flag _, .flag _, .text _, nofun⟩

theorem fit_toValue (e : KeyboardEvent) : decoder.fit e.toValue = .ok e :=
  Record.decoder_written (by decide) (.must rfl (.may rfl (.may rfl (.may rfl (.may rfl (.may rfl
    (.may e.phase.fit_toValue .nil))))))) rfl

end KeyboardEvent

namespace PartialOptions

theorem memberOf_fits {form : α → Value} {depth : Nat} (fits : ∀ a, (form a).Fits depth)
    (name : String) (o : Option α) : ∀ m ∈ memberOf name form o, m.2.Fits depth := by
  cases o with
  | none => nofun
  | some a => simpa [memberOf] using fits a

theorem toValue_fits (o : PartialOptions) (depth : Nat) : o.toValue.Fits (depth + 2) := by
  apply Value.Fits.object
  simp only [List.forall_mem_append]
  exact ⟨⟨⟨⟨⟨⟨⟨⟨memberOf_fits (textsValue_fits · _) _ _, memberOf_fits .text _ _⟩,
    memberOf_fits .text _ _⟩, memberOf_fits .text _ _⟩, memberOf_fits .flag _ _⟩,
    memberOf_fits .flag _ _⟩, memberOf_fits .flag _ _⟩, memberOf_fits .flag _ _⟩,
    memberOf_fits (fun _ => .text _) _ _⟩

theorem fit_toValue (o : PartialOptions) : decoder.fit o.toValue = .ok o := by
  have texts (scopes : List String) :
      (Decoder.list Decoder.text).optional.fit (textsValue scopes) = .ok (some scopes) :=
    congrArg (Except.map some) (texts_fit scopes)
  have text (s : String) : Decoder.text.optional.fit (.text s) = .ok (some s) := rfl
  have flag (b : Bool) : Decoder.flag.optional.fit (.flag b) = .ok (some b) := rfl
  have members : o.toValue = .object (_ ++ []) := congrArg Value.object (List.append_nil _).symm
  simp only [List.append_assoc] at members
  rw [members]
  refine Record.decoder_written (by decide) (.memberOf texts (.memberOf text (.memberOf text
    (.memberOf text (.memberOf flag (.memberOf flag (.memberOf flag (.memberOf flag
    (.memberOf ModifierMatch.fit_toValue .nil))))))))) ?_
  iterate 9 rw [Record.foldl_changeOf rfl]
  rfl

end PartialOptions

namespace Request

def variantName : Request → String
  | .key _ => "key"
  | .register _ _ => "register"
  | .update _ _ _ => "update"
  | .unregister _ => "unregister"
  | .activateScope _ => "activate_scope"
  | .deactivateScope _ => "deactivate_scope"
  | .toggleScope _ => "toggle_scope"
  | .status => "status"
  | .ping => "ping"

def members : Request → List (String × Value)
  | .key event => [("event", event.toValue)]
  | .register keys options => [("keys", .text keys), ("options", options.toValue)]
  | .update id keys options =>
    [("id", id.toValue), ("keys", .text keys), ("options", options.toValue)]
  | .unregister id => [("id", id.toValue)]
  | .activateScope scope => [("scope", .text scope)]
  | .deactivateScope scope => [("scope", .text scope)]
  | .toggleScope scope => [("scope", .text scope)]
  | .status => []
  | .ping => []

theorem toValue_eq (r : Request) : r.toValue = taggedValue r.variantName r.members := by
  cases r <;> rfl

/-- No member takes the place of the tag, and none is nested deeply. -/
theorem members_fit (r : Request) (depth : Nat) :
    ∀ m ∈ r.members, m.1 ≠ Tagged.tag ∧ m.2.Fits (depth + 2) := by
  cases r <;> simp only [members, List.forall_mem_cons]
  case key event => exact ⟨⟨by decide, event.toValue_fits _⟩, nofun⟩
  case register keys options =>
    exact ⟨⟨by decide, .text _⟩, ⟨by decide, options.toValue_fits _⟩, nofun⟩
  case update id keys options =>
    exact ⟨⟨by decide, numberValue_fits ..⟩, ⟨by decide, .text _⟩,
      ⟨by decide, options.toValue_fits _⟩, nofun⟩
  case unregister id => exact ⟨⟨by decide, numberValue_fits ..⟩, nofun⟩
  case activateScope scope => exact ⟨⟨by decide, .text _⟩, nofun⟩
  case deactivateScope scope => exact ⟨⟨by decide, .text _⟩, nofun⟩
  case toggleScope scope => exact ⟨⟨by decide, .text _⟩, nofun⟩
  case status => nofun
  case ping => nofun

/-- The variant of a request's name makes the request of its members. -/
theorem payload_members (r : Request) : ∃ payload,
    tagged.variants.lookup r.variantName = some payload ∧ payload.ofMembers r.members = .ok r := by
  cases r with
  | key event =>
    exact ⟨_, rfl, Record.payload_written _ (by decide) (.must event.fit_toValue .nil) rfl⟩
  | register keys options =>
    exact ⟨_, rfl, Record.payload_written (a := (keys, options)) _ (by decide)
      (.must rfl (.may options.fit_toValue .nil)) rfl⟩
  | update id keys options =>
    exact ⟨_, rfl, Record.payload_written (a := (id, keys, options)) _ (by decide)
      (.must rfl (.must rfl (.may options.fit_toValue .nil))) rfl⟩
  | unregister id => exact ⟨_, rfl, Record.payload_written _ (by decide) (.must rfl .nil) rfl⟩
  | activateScope scope =>
    exact ⟨_, rfl, Record.payload_written _ (by decide) (.must rfl .nil) rfl⟩
  | deactivateScope scope =>
    exact ⟨_, rfl, Record.payload_written _ (by decide) (.must rfl .nil) rfl⟩
  | toggleScope scope =>
    exact ⟨_, rfl, Record.payload_written _ (by decide) (.must rfl .nil) rfl⟩
  | status => exact ⟨_, rfl, rfl⟩
  | ping => exact ⟨_, rfl, rfl⟩

/-- Blanks around the text of a request do not count. -/
theorem decode_padded (r : Request) (before behind : String)
    (blank : Text.AllBlank before.toList) (blankEnd : Text.AllBlank behind.toList) :
    decode (before ++ r.encode ++ behind) = .ok r := by
  obtain ⟨payload, known, made⟩ := r.payload_members
  have tight : Text.Tight r.encode.toList := by
    rw [encode, toValue_eq, Value.toText, String.toList_ofList]
    exact taggedValue_tight _ _
  rw [decode, Text.trim_padded blank tight blankEnd, encode, toValue_eq]
  exact Tagged.decode_written known (r.members_fit 124) made

theorem decode_encode (r : Request) : decode r.encode = .ok r := by
  have padded := r.decode_padded "" "" nofun nofun
  simpa using padded

/-- Reading undoes writing, whatever blanks are put around the text; and a text that is read at all
has the same meaning as the text that is written for what was read. -/
theorem read_back :
    (∀ (r : Request) (before behind : String), Text.AllBlank before.toList →
      Text.AllBlank behind.toList → decode (before ++ r.encode ++ behind) = .ok r) ∧
    (∀ (line : String) (r : Request), decode line = .ok r → decode r.encode = .ok r) :=
  ⟨decode_padded, fun _ r _ => r.decode_encode⟩

/-- The largest id and characters that are escaped; and a line that says more than it has to, in an
order of its own. -/
theorem read_back_sample :
    let r : Request := .update ⟨18446744073709551615⟩ "\x00\n\"\\😀"
      { scopes := some [""], description := some "", modifierMatch := some .ignore }
    let line := " \x7b\"keys\":\"\\ud83d\\ude00\",\"options\":\x7b\"more\":[]\x7d," ++
      "\"type\":\"register\"\x7d\n"
    decode ("\u00a0\r" ++ r.encode ++ "\u2029") = .ok r ∧
      decode line = .ok (.register "😀" {}) ∧
        decode (register "😀" {}).encode = .ok (.register "😀" {}) := by
  intro r line
  have read : decode line = .ok (.register "😀" {}) := by decide +kernel
  exact ⟨read_back.1 r "\u00a0\r" "\u2029" (by decide) (by decide),
    read, read_back.2 line _ read⟩

end Request

end Keymap
