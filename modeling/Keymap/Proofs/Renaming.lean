import Keymap.Proofs.Firings
import Keymap.Proofs.History
import Keymap.Proofs.Naming
import Mathlib.Data.List.Forall2

/-! Keys by other names. A keyboard looks at nothing of a key but its canonical name, so a surface may
give a key by that name, in another case or with blanks around it: the same hotkeys fire and the same
keys are held, at once and in whatever follows. -/
namespace Keymap

/-- Other ways to name a key. Blanks around a name do not count unless there is nothing else. -/
inductive Key.Renamed (raw : String) : String → Prop where
  | canonical : Renamed raw (canonical raw)
  | recased {name : String} (same : Text.lower name = Text.lower raw) : Renamed raw name
  | padded {name : String} (dark : Text.trim raw ≠ "") (pads : Text.Padded raw name) :
      Renamed raw name

theorem Key.Renamed.same {raw name : String} (renamed : Renamed raw name) :
    Key.canonical name = Key.canonical raw := by
  cases renamed with
  | canonical => exact canonical_canonical raw
  | recased same => exact canonical_of_lower_eq same
  | padded dark pads => exact canonical_of_trim_eq pads.trim dark

variable {κ : Type} {event : KeyboardEvent} {key : String}

theorem Hotkey.firing_renamed (same : Key.canonical key = Key.canonical event.key)
    (hotkeys : List Hotkey) (policy : MatchPolicy) :
    firing hotkeys policy { event with key := key } = firing hotkeys policy event := by
  have fires (h : Hotkey) :
      h.firesFor policy { event with key := key } = h.firesFor policy event := by
    simp only [firesFor, KeyboardEvent.modifiers, KeyboardEvent.canonicalKey, same]
  simp only [firing, fires]

def Dispatch.withKey (d : Dispatch κ) (key : String) : Dispatch κ :=
  { d with calls := d.calls.map fun c => { c with event := { c.event with key := key } } }

theorem Registry.dispatch_renamed (same : Key.canonical key = Key.canonical event.key)
    (r : Registry κ) : r.dispatch { event with key := key } = (r.dispatch event).withKey key := by
  have firings : r.firings { event with key := key } = r.firings event := by
    have each : r.firingsOf { event with key := key } = r.firingsOf event := by
      funext id
      simp only [firingsOf, Hotkey.firing_renamed same]
    rw [Registry.firings, each, Registry.firings]
  apply Dispatch.ext
  · rw [dispatch_calls, firings, Dispatch.withKey, dispatch_calls, List.map_map]
    rfl
  · rw [dispatch_fired, firings, Dispatch.withKey, dispatch_fired]

/-- The same answer, but for the name of the key in the event that the callbacks were handed. -/
inductive Answer.Renamed : Answer κ → Answer κ → Prop where
  | same (a : Answer κ) : Renamed a a
  | fired (d : Dispatch κ) (key : String) : Renamed (.fired d) (.fired (d.withKey key))

inductive Operation.Renamed : Operation κ → Operation κ → Prop where
  | same (op : Operation κ) : Renamed op op
  | handle {event : KeyboardEvent} {key : String} (renamed : Key.Renamed event.key key) :
      Renamed (.handle event) (.handle { event with key := key })

namespace Keyboard

variable {k : Keyboard κ}

theorem heldAfter_renamed (same : Key.canonical key = Key.canonical event.key)
    (held : List String) :
    heldAfter held { event with key := key } = heldAfter held event := by
  have named : ({ event with key := key } : KeyboardEvent).canonicalKey = event.canonicalKey := same
  rw [heldAfter, named, heldAfter]

/-- Nothing of an event's key counts but its canonical name; only the callbacks see the key itself. -/
theorem handle_of_canonical (k : Keyboard κ) (same : Key.canonical key = Key.canonical event.key) :
    k.handle { event with key := key } =
      { k.handle event with answer := (k.handle event).answer.withKey key } := by
  rw [handle, handle, Registry.dispatch_renamed same, heldAfter_renamed same]
  rfl

theorem perform_renamed (k : Keyboard κ) {op other : Operation κ} (renamed : op.Renamed other) :
    (k.perform other).state = (k.perform op).state ∧
    (k.perform other).notices = (k.perform op).notices ∧
    (k.perform op).answer.Renamed (k.perform other).answer := by
  cases renamed with
  | same => exact ⟨rfl, rfl, .same _⟩
  | handle renamed =>
    rw [perform, perform, k.handle_of_canonical renamed.same]
    exact ⟨rfl, rfl, .fired _ _⟩

theorem execute_renamed {ops others : List (Operation κ)}
    (renamed : List.Forall₂ Operation.Renamed ops others) (k : Keyboard κ) :
    k.execute others = k.execute ops := by
  induction renamed generalizing k with
  | nil => rfl
  | cons first _ ih => rw [execute, execute, (k.perform_renamed first).1, ih]

/-- A canonical name is the canonical name of itself, of every name that is written in another case
and of every name with blanks around it that is not blank. So it does not matter to a keyboard which
of these names an event gives: what fires, the notices and the state it leaves are the same, and so
they are behind every run in which any keys were named in other ways. Only the callbacks are handed
the event with the name that it gives. -/
theorem names_interchangeable :
    (∀ raw, Key.canonical (Key.canonical raw) = Key.canonical raw) ∧
    (∀ raw name, Text.trim raw ≠ "" → Text.Padded raw name →
      Key.canonical name = Key.canonical raw) ∧
    (∀ raw, Key.canonical (Text.lower raw) = Key.canonical raw) ∧
    (∀ (k : Keyboard κ) event key, Key.Renamed event.key key →
      k.handle { event with key := key } =
        { k.handle event with answer := (k.handle event).answer.withKey key }) ∧
    ∀ (k : Keyboard κ) ops others, List.Forall₂ Operation.Renamed ops others →
      ∀ op other, op.Renamed other →
        let o := (k.execute ops).perform op
        let renamed := (k.execute others).perform other
        renamed.state = o.state ∧ renamed.notices = o.notices ∧ o.answer.Renamed renamed.answer := by
  refine ⟨Key.canonical_canonical, ?_, Key.canonical_lower, ?_, ?_⟩
  · intro raw name dark pads
    exact Key.canonical_of_trim_eq pads.trim dark
  · intro k event key renamed
    exact k.handle_of_canonical renamed.same
  · intro k ops others renamed op other last
    rw [execute_renamed renamed]
    exact perform_renamed _ last

/-- The sigma at the end of a word is final, also with blanks behind it. -/
theorem names_interchangeable_sample :
    let k := (Keyboard.new [] .other).execute [.register "οδος, ctrl+esc" 7 {}]
    let ops : List (Operation Nat) := [.handle (.ofDown "Shift"), .handle (.ofDown "Esc")]
    let others : List (Operation Nat) := [.handle (.ofDown " Shift"), .handle (.ofDown "esc")]
    Text.trim "ΟΔΟΣ" ≠ "" ∧ Text.Padded "ΟΔΟΣ" "\tΟΔΟΣ " ∧
      Key.canonical "\tΟΔΟΣ " = "οδος" ∧
      (k.handle (.ofDown "\tΟΔΟΣ ")).answer.fired.map (·.id) = [⟨0⟩] ∧
      List.Forall₂ Operation.Renamed ops others ∧
      ((k.execute others).perform (.handle (.ofUp "Escape"))).state.held = ["shift"] := by
  intro k ops others
  obtain ⟨-, padded, -, event, run⟩ := names_interchangeable (κ := Nat)
  have dark : Text.trim "ΟΔΟΣ" ≠ "" := by decide
  have pads : Text.Padded "ΟΔΟΣ" "\tΟΔΟΣ " := ⟨"\t", " ", by decide, by decide, rfl⟩
  have named : Key.canonical "\tΟΔΟΣ " = "οδος" :=
    (padded _ _ dark pads).trans (by decide +kernel)
  have fires := event k (.ofDown "ΟΔΟΣ") _ (.padded dark pads)
  have shift : Key.Renamed "Shift" " Shift" :=
    .padded (by decide) ⟨" ", "", by decide, by decide, rfl⟩
  have escape : Key.Renamed "Esc" "esc" := .recased (by decide)
  have release : Key.Renamed "ESCAPE" "Escape" := .canonical
  have renamed : List.Forall₂ Operation.Renamed ops others :=
    .cons (.handle shift) (.cons (.handle escape) .nil)
  have later := run k ops others renamed (.handle (.ofUp "ESCAPE")) _ (.handle release)
  refine ⟨dark, pads, named, ?_, renamed, ?_⟩
  · exact (congrArg (·.answer.fired.map (·.id)) fires).trans rfl
  · exact (congrArg (·.held) later.1).trans rfl

end Keyboard

end Keymap
