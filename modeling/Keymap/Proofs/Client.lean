import Keymap.Proofs.Identity
import Mathlib.Data.List.Nodup

/-! Clients of a keyboard. A client names registrations by the handles that it received for them,
the first one, the second one and so on, whatever ids they stand for; other registrations it sets
apart, and can only end them all together. -/
namespace Keymap

variable {κ : Type} {platform : Platform}

def Operation.isRegistration : Operation κ → Bool
  | .register .. | .update .. | .unregister _ => true
  | _ => false

def requests (texts : List String) (callback : κ) (options : Options) : List (Operation κ) :=
  texts.map (.register · callback options)

theorem registrations_requests (texts : List String) (callback : κ) (options : Options) :
    registrations (requests texts callback options) = texts.length := by
  simp [registrations, requests, List.countP_map, Operation.isRegister, Function.comp_def]

theorem requests_registrations (texts : List String) (callback : κ) (options : Options) :
    ∀ op ∈ requests texts callback options, op.isRegistration := by
  intro op member
  obtain ⟨text, _, rfl⟩ := List.mem_map.mp member
  rfl

/-- Without a registration nothing new stands. -/
theorem standing_eq_nil {ops : List (Operation κ)} (none : registrations ops = 0) (made : Nat) :
    standing made ops = [] := by
  rw [List.eq_nil_iff_forall_not_mem]
  intro s member
  obtain ⟨n, low, high, _⟩ := standing_id member
  omega

namespace Keyboard

theorem issued_length (k : Keyboard κ) (ops : List (Operation κ)) :
    (k.issued ops).length = registrations ops := by
  induction ops generalizing k with
  | nil => rfl
  | cons op ops ih =>
    rw [issued, List.length_append, ih, ← List.singleton_append, registrations_append]
    cases op <;> rfl

/-- Whatever stands has an id that was issued. -/
theorem standing_issued {k : Keyboard κ} {made : Nat} (counter : k.registry.nextId = .ofNat made)
    {ops : List (Operation κ)} {s : Standing κ} (stands : s ∈ standing made ops) :
    s.id ∈ k.issued ops := by
  obtain ⟨n, low, high, same⟩ := standing_id stands
  rw [issued_eq made counter, same]
  exact List.mem_map_of_mem (List.mem_range'_1.mpr ⟨low, high⟩)

theorem changeScopes_held (k : Keyboard κ) (scope : String) (activated : Bool)
    (change : ActiveScopes × Bool) :
    (k.changeScopes scope activated change).state.held = k.held := by
  unfold changeScopes
  dsimp only
  split <;> rfl

/-- Registering, updating and unregistering leave the scopes and the held keys alone. -/
theorem execute_registrations {k : Keyboard κ} {ops : List (Operation κ)}
    (only : ∀ op ∈ ops, op.isRegistration) :
    (k.execute ops).scopes = k.scopes ∧ (k.execute ops).held = k.held := by
  induction ops generalizing k with
  | nil => exact ⟨rfl, rfl⟩
  | cons op ops ih =>
    obtain ⟨first, only⟩ := List.forall_mem_cons.mp only
    have frame : (k.perform op).state.scopes = k.scopes ∧ (k.perform op).state.held = k.held := by
      cases op with
      | register text callback options => exact ⟨rfl, rfl⟩
      | update id text options =>
        rw [perform, update_state]
        split <;> exact ⟨rfl, rfl⟩
      | unregister id =>
        rw [perform, unregister_state]
        split <;> exact ⟨rfl, rfl⟩
      | _ => simp [Operation.isRegistration] at first
    have rest := ih (k := (k.perform op).state) only
    exact ⟨rest.1.trans frame.1, rest.2.trans frame.2⟩

end Keyboard

/-- What a client can ask for. With a handle that it has not received it asks for nothing. -/
inductive Command (κ : Type) where
  | register (text : String) (callback : κ) (options : Options)
  | update (handle : Nat) (text : String) (options : Options)
  | unregister (handle : Nat)
  /-- Ends the registrations that are set apart. -/
  | withdraw
  | activate (scope : String)
  | deactivate (scope : String)
  | toggle (scope : String)
  | handle (event : KeyboardEvent)
  | clearHeld

namespace Command

def isRegister : Command κ → Bool
  | .register .. => true
  | _ => false

def operations (handles apart : List HotkeyId) : Command κ → List (Operation κ)
  | .register text callback options => [.register text callback options]
  | .update n text options => (handles[n]?.map (.update · text options)).toList
  | .unregister n => (handles[n]?.map .unregister).toList
  | .withdraw => apart.map .unregister
  | .activate scope => [.activate scope]
  | .deactivate scope => [.deactivate scope]
  | .toggle scope => [.toggle scope]
  | .handle event => [.handle event]
  | .clearHeld => [.clearHeld]

theorem registrations_operations (handles apart : List HotkeyId) (command : Command κ) :
    registrations (command.operations handles apart) = [command].countP isRegister := by
  cases command with
  | update n text options =>
    cases named : handles[n]? <;>
      simp [operations, named, registrations, Operation.isRegister, isRegister]
  | unregister n =>
    cases named : handles[n]? <;>
      simp [operations, named, registrations, Operation.isRegister, isRegister]
  | withdraw =>
    simp [operations, registrations, Operation.isRegister, isRegister, List.countP_map]
  | _ => rfl

variable {handles apart : List HotkeyId} {s : Standing κ}

theorem afterAll_unregister (s : Standing κ) (ids : List HotkeyId) :
    s.afterAll (ids.map .unregister) = if s.id ∈ ids then none else some s := by
  induction ids with
  | nil => rfl
  | cons id ids ih =>
    simp only [List.map_cons, Standing.afterAll, Standing.after, List.mem_cons]
    by_cases same : id = s.id
    · simp [same]
    · simp [same, Ne.symm same, ih]

/-- Different handles stand for different ids. -/
theorem handle_eq (distinct : handles.Nodup) {number n : Nat} {id other : HotkeyId}
    (named : handles[number]? = some id) (asked : handles[n]? = some other) :
    other = id ↔ n = number := by
  constructor
  · rintro rfl
    obtain ⟨bound, _⟩ := List.getElem?_eq_some_iff.mp asked
    exact (List.getElem?_inj bound distinct).mp (asked.trans named.symm)
  · rintro rfl
    exact Option.some.inj (asked.symm.trans named)

section asked

variable {op : HotkeyId → Operation κ} (others : ∀ id, id ≠ s.id → s.after (op id) = some s)
include others

/-- Only its own handle reaches a registration. -/
theorem afterAll_asked (distinct : handles.Nodup) {number : Nat}
    (named : handles[number]? = some s.id) (n : Nat) :
    s.afterAll (handles[n]?.map op).toList = if n = number then s.after (op s.id) else some s := by
  by_cases own : n = number
  · subst own
    simp [named, Standing.afterAll_single]
  · rw [if_neg own]
    cases asked : handles[n]? with
    | none => rfl
    | some id =>
      have other : id ≠ s.id := fun same => own ((handle_eq distinct named asked).mp same)
      exact (Standing.afterAll_single s (op id)).trans (others id other)

theorem afterAll_unasked (unnamed : s.id ∉ handles) (n : Nat) :
    s.afterAll (handles[n]?.map op).toList = some s := by
  cases asked : handles[n]? with
  | none => rfl
  | some id =>
    have other : id ≠ s.id := by
      rintro rfl
      exact unnamed (List.mem_of_getElem? asked)
    exact (Standing.afterAll_single s (op id)).trans (others id other)

end asked

theorem after_update_other (s : Standing κ) (text : String) (options : Options) (id : HotkeyId)
    (other : id ≠ s.id) : s.after (.update id text options) = some s := by
  simp [Standing.after, other]

theorem after_unregister_other (s : Standing κ) (id : HotkeyId) (other : id ≠ s.id) :
    s.after (.unregister id) = some s := by
  simp [Standing.after, other]

def change (number : Nat) (s : Standing κ) : Command κ → Option (Standing κ)
  | .update n text options =>
    if n = number then some { s with text := text, options := options } else some s
  | .unregister n => if n = number then none else some s
  | _ => some s

theorem afterAll_named (distinct : (apart ++ handles).Nodup) {number : Nat}
    (named : handles[number]? = some s.id) (command : Command κ) :
    s.afterAll (command.operations handles apart) = command.change number s := by
  obtain ⟨_, different, disjoint⟩ := List.nodup_append.mp distinct
  cases command with
  | update n text options =>
    rw [operations, afterAll_asked (after_update_other s text options) different named]
    simp [Standing.after, change]
  | unregister n =>
    rw [operations, afterAll_asked (after_unregister_other s) different named]
    simp [Standing.after, change]
  | withdraw =>
    have other : s.id ∉ apart := fun member =>
      disjoint _ member _ (List.mem_of_getElem? named) rfl
    rw [operations, afterAll_unregister, if_neg other]
    rfl
  | _ => rfl

def isWithdraw : Command κ → Bool
  | .withdraw => true
  | _ => false

/-- The registrations that are set apart are out of reach for the other commands. -/
theorem afterAll_apart (distinct : (apart ++ handles).Nodup) (member : s.id ∈ apart)
    (command : Command κ) :
    s.afterAll (command.operations handles apart) =
      if command.isWithdraw then none else some s := by
  have unnamed : s.id ∉ handles := fun named =>
    (List.nodup_append.mp distinct).2.2 _ member _ named rfl
  cases command with
  | update n text options => exact afterAll_unasked (after_update_other s text options) unnamed n
  | unregister n => exact afterAll_unasked (after_unregister_other s) unnamed n
  | withdraw => rw [operations, afterAll_unregister, if_pos member, isWithdraw, if_pos rfl]
  | _ => rfl

end Command

structure Client (κ : Type) where
  keyboard : Keyboard κ
  /-- The ids behind its handles, in the order in which it received them. -/
  handles : List HotkeyId
  /-- The ids of the registrations that it has set apart. -/
  apart : List HotkeyId

namespace Client

/-- A client that holds the handles of all registrations of a run, and has then registered some texts
one after the other and set these registrations apart. -/
def settingApart (initialScopes : List String) (platform : Platform) (past : List (Operation κ))
    (texts : List String) (callback : κ) (options : Options) : Client κ :=
  let k := (Keyboard.new initialScopes platform).execute past
  let ops := requests texts callback options
  ⟨k.execute ops, (Keyboard.new initialScopes platform).issued past, k.issued ops⟩

def perform (c : Client κ) (command : Command κ) : Client κ :=
  let ops := command.operations c.handles c.apart
  { c with
    keyboard := c.keyboard.execute ops
    handles := c.handles ++ c.keyboard.issued ops }

def follow (c : Client κ) : List (Command κ) → Client κ
  | [] => c
  | command :: commands => (c.perform command).follow commands

/-- The hotkeys that an event fires, without ids, and the calls that are made for them. -/
def fired (c : Client κ) (event : KeyboardEvent) : List Hotkey × List (Call κ) :=
  let dispatch := (c.keyboard.handle event).answer
  (dispatch.fired.map (·.hotkey), dispatch.calls)

structure Kept (initialScopes : List String) (platform : Platform) (past : List (Operation κ))
    (c : Client κ) : Prop where
  keyboard : c.keyboard = (Keyboard.new initialScopes platform).execute past
  issued : ∀ id ∈ c.apart ++ c.handles, id ∈ (Keyboard.new initialScopes platform).issued past
  distinct : (c.apart ++ c.handles).Nodup

variable {initialScopes : List String} {past : List (Operation κ)} {c : Client κ}

theorem issued_distinct (initialScopes : List String) (platform : Platform)
    (few : registrations past ≤ UInt64.size) :
    ((Keyboard.new initialScopes platform).issued past).Nodup :=
  (Keyboard.run_issued_ascending initialScopes platform few).imp fun below =>
    (Table.number_irrefl below).symm

theorem settingApart_kept (initialScopes : List String) (platform : Platform)
    (past : List (Operation κ)) (texts : List String) (callback : κ) (options : Options)
    (few : registrations past + texts.length ≤ UInt64.size) :
    Kept initialScopes platform (past ++ requests texts callback options)
      (settingApart initialScopes platform past texts callback options) := by
  refine ⟨(Keyboard.execute_append ..).symm, ?_, ?_⟩
  · intro id member
    rw [Keyboard.issued_append, List.mem_append, or_comm, ← List.mem_append]
    exact member
  · rw [settingApart, List.nodup_append_comm, ← Keyboard.issued_append]
    apply issued_distinct
    rw [registrations_append, registrations_requests]
    exact few

theorem Kept.handles_register (kept : c.Kept initialScopes platform past) (text : String)
    (callback : κ) (options : Options) :
    (c.perform (.register text callback options)).handles =
      c.handles ++ [⟨.ofNat (registrations past)⟩] := by
  have answer := Keyboard.run_answer initialScopes platform past text callback options
  rw [← kept.keyboard] at answer
  rw [← answer]
  rfl

theorem Kept.perform (kept : c.Kept initialScopes platform past) (command : Command κ)
    (few : registrations (past ++ command.operations c.handles c.apart) ≤ UInt64.size) :
    (c.perform command).Kept initialScopes platform
      (past ++ command.operations c.handles c.apart) := by
  have all := issued_distinct initialScopes platform few
  rw [Keyboard.issued_append, ← kept.keyboard] at all
  obtain ⟨_, new, fresh⟩ := List.nodup_append.mp all
  refine ⟨?_, ?_, ?_⟩
  · rw [Client.perform, kept.keyboard, Keyboard.execute_append]
  · intro id member
    rw [Client.perform, ← List.append_assoc] at member
    rw [Keyboard.issued_append, ← kept.keyboard]
    rcases List.mem_append.mp member with held | given
    · exact List.mem_append_left _ (kept.issued id held)
    · exact List.mem_append_right _ given
  · rw [Client.perform, ← List.append_assoc]
    refine List.nodup_append.mpr ⟨kept.distinct, new, ?_⟩
    intro id held other given
    exact fresh id (kept.issued id held) other given

section surroundings

variable {d : Client κ} (scopes : c.keyboard.scopes = d.keyboard.scopes)
  (held : c.keyboard.held = d.keyboard.held)
include scopes held

theorem changeScopes_surroundings (scope : String) (activated : ActiveScopes → Bool)
    (change : ActiveScopes → ActiveScopes × Bool) :
    let after (k : Keyboard κ) :=
      (k.changeScopes scope (activated k.scopes) (change k.scopes)).state
    (after c.keyboard).scopes = (after d.keyboard).scopes ∧
    (after c.keyboard).held = (after d.keyboard).held := by
  simp only [Keyboard.changeScopes_scopes, Keyboard.changeScopes_held, scopes, held, and_self]

/-- What becomes of the scopes and the held keys does not depend on the registrations. -/
theorem perform_surroundings (command : Command κ) :
    (c.perform command).keyboard.scopes = (d.perform command).keyboard.scopes ∧
    (c.perform command).keyboard.held = (d.perform command).keyboard.held := by
  have unmoved (only : ∀ handles apart, ∀ op ∈ command.operations handles apart,
      op.isRegistration) :
      (c.perform command).keyboard.scopes = (d.perform command).keyboard.scopes ∧
      (c.perform command).keyboard.held = (d.perform command).keyboard.held := by
    obtain ⟨left, leftHeld⟩ :=
      Keyboard.execute_registrations (k := c.keyboard) (only c.handles c.apart)
    obtain ⟨right, rightHeld⟩ :=
      Keyboard.execute_registrations (k := d.keyboard) (only d.handles d.apart)
    exact ⟨left.trans (scopes.trans right.symm), leftHeld.trans (held.trans rightHeld.symm)⟩
  cases command with
  | register text callback options => exact ⟨scopes, held⟩
  | update n text options =>
    apply unmoved
    intro handles apart op member
    obtain ⟨id, _, rfl⟩ := Option.map_eq_some_iff.mp (Option.mem_toList.mp member)
    rfl
  | unregister n =>
    apply unmoved
    intro handles apart op member
    obtain ⟨id, _, rfl⟩ := Option.map_eq_some_iff.mp (Option.mem_toList.mp member)
    rfl
  | withdraw =>
    apply unmoved
    intro handles apart op member
    obtain ⟨id, _, rfl⟩ := List.mem_map.mp member
    rfl
  | activate scope =>
    exact changeScopes_surroundings scopes held scope (fun _ => true) (·.activate scope)
  | deactivate scope =>
    exact changeScopes_surroundings scopes held scope (fun _ => false) (·.deactivate scope)
  | toggle scope =>
    exact changeScopes_surroundings scopes held scope
      (fun active => (active.toggle scope).1.isActive scope) (·.toggle scope)
  | handle event => exact ⟨scopes, congrArg (Keyboard.heldAfter · event) held⟩
  | clearHeld => exact ⟨scopes, rfl⟩

end surroundings

end Client

end Keymap
