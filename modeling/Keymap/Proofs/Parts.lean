import Keymap.Proofs.Client
import Keymap.Proofs.Splitting

/-! A registration of several combinations behaves as registrations of the single combinations.
A client that registers a text as a whole and one that registers its combinations one by one see the
same for ever after, whatever else the two do, and also when each withdraws what it registered. -/
namespace Keymap

variable {κ : Type} {platform : Platform}

namespace Standing

def fired (platform : Platform) (active : ActiveScopes) (event : KeyboardEvent)
    (s : Standing κ) : List (Hotkey × κ) :=
  (s.firings platform active event).map fun f => (f.triggered.hotkey, f.callback)

theorem fired_id (active : ActiveScopes) (event : KeyboardEvent) (s : Standing κ) (id : HotkeyId) :
    Standing.fired platform active event { s with id := id } = s.fired platform active event := by
  simp only [fired, firings, hotkeys]
  split <;> simp

/-- Registrations that together list the same hotkeys and fire the same ones. -/
structure Equivalent (platform : Platform) (ss ts : List (Standing κ)) : Prop where
  listed : ∀ active, ss.flatMap (·.listed platform active) = ts.flatMap (·.listed platform active)
  fired : ∀ active event,
    ss.flatMap (·.fired platform active event) = ts.flatMap (·.fired platform active event)

theorem listed_segments (id : HotkeyId) (text : String) (options : Options) (callback : κ)
    (active : ActiveScopes) :
    Standing.listed platform active ⟨id, text, options, callback⟩ =
      (Hotkey.split text options.splitAt).flatMap fun segment =>
        Standing.listed platform active ⟨id, segment, options, callback⟩ := by
  simp only [listed, hotkeys]
  by_cases enabled : options.enabled
  · simp only [if_pos enabled, options.compile_segments platform text, List.filter_flatMap]
  · simp [enabled]

theorem fired_segments (id : HotkeyId) (text : String) (options : Options) (callback : κ)
    (active : ActiveScopes) (event : KeyboardEvent) :
    Standing.fired platform active event ⟨id, text, options, callback⟩ =
      (Hotkey.split text options.splitAt).flatMap fun segment =>
        Standing.fired platform active event ⟨id, segment, options, callback⟩ := by
  simp only [fired, firings, hotkeys]
  by_cases live : options.enabled && active.admits options.effectiveScopes
  · simp only [if_pos live, options.compile_segments platform text, List.filter_flatMap,
      List.map_flatMap]
  · simp [live]

end Standing

section requests

variable {callback : κ} {options : Options}

theorem afterAll_requests (s : Standing κ) (texts : List String) :
    s.afterAll (requests texts callback options) = some s := by
  induction texts with
  | nil => rfl
  | cons text texts ih => exact ih

/-- What does not show ids shows of the registrations what it shows of their texts. -/
theorem flatMap_requests {view : Standing κ → List β}
    (blind : ∀ (s : Standing κ) id, view { s with id := id } = view s) (made : Nat)
    (texts : List String) :
    (standing made (requests texts callback options)).flatMap view =
      texts.flatMap fun text => view ⟨⟨0⟩, text, options, callback⟩ := by
  induction texts generalizing made with
  | nil => rfl
  | cons text texts ih =>
    have first : standing made (requests (text :: texts) callback options) =
        (Standing.afterAll ⟨⟨.ofNat made⟩, text, options, callback⟩
          (requests texts callback options)).toList ++
        standing (made + 1) (requests texts callback options) := rfl
    rw [first, afterAll_requests, List.flatMap_append, ih, List.flatMap_cons, Option.toList_some,
      List.flatMap_singleton]
    exact congrArg (· ++ _) (blind ⟨⟨0⟩, text, options, callback⟩ _)

/-- A text registers what its combinations register one by one. -/
theorem equivalent_parts (made : Nat) (text : String) :
    Standing.Equivalent platform (standing made (requests [text] callback options))
      (standing made (requests (Hotkey.split text options.splitAt) callback options)) where
  listed active := by
    have blind (s : Standing κ) (id : HotkeyId) :
        Standing.listed platform active { s with id := id } = s.listed platform active := rfl
    rw [flatMap_requests blind, flatMap_requests blind, List.flatMap_singleton]
    exact Standing.listed_segments ..
  fired active event := by
    have blind (s : Standing κ) (id : HotkeyId) :
        Standing.fired platform active event { s with id := id } = s.fired platform active event :=
      Standing.fired_id active event s id
    rw [flatMap_requests blind, flatMap_requests blind, List.flatMap_singleton]
    exact Standing.fired_segments ..

end requests

namespace Client

variable {c d : Client κ} {ss ts : List (Standing κ)}

/-- Two registrations that say the same, and that two clients name by the same handle. -/
structure Twin (c d : Client κ) (s t : Standing κ) : Prop where
  named : ∃ number : Nat, c.handles[number]? = some s.id ∧ d.handles[number]? = some t.id
  text : t.text = s.text
  options : t.options = s.options
  callback : t.callback = s.callback

/-- The registrations of two keyboards agree one by one, but for those that the clients have set
apart: these only show the same, in the same places. -/
inductive Aligned (platform : Platform) (c d : Client κ) :
    List (Standing κ) → List (Standing κ) → Prop where
  | nil : Aligned platform c d [] []
  | twin {s t : Standing κ} {ss ts : List (Standing κ)} (first : Twin c d s t)
      (rest : Aligned platform c d ss ts) : Aligned platform c d (s :: ss) (t :: ts)
  | apart {own parts ss ts : List (Standing κ)} (same : Standing.Equivalent platform own parts)
      (left : ∀ s ∈ own, s.id ∈ c.apart) (right : ∀ t ∈ parts, t.id ∈ d.apart)
      (rest : Aligned platform c d ss ts) : Aligned platform c d (own ++ ss) (parts ++ ts)

theorem Aligned.append {more others : List (Standing κ)} (aligned : Aligned platform c d ss ts)
    (behind : Aligned platform c d more others) :
    Aligned platform c d (ss ++ more) (ts ++ others) := by
  induction aligned with
  | nil => exact behind
  | twin first rest ih => exact .twin first ih
  | apart same left right rest ih =>
    rw [List.append_assoc, List.append_assoc]
    exact .apart same left right ih

theorem Aligned.equivalent (aligned : Aligned platform c d ss ts) :
    Standing.Equivalent platform ss ts := by
  induction aligned with
  | nil => exact ⟨fun _ => rfl, fun _ _ => rfl⟩
  | @twin s t ss ts first rest ih =>
    obtain ⟨_, _, _, _⟩ := s
    obtain ⟨_, text, options, callback⟩ := t
    obtain ⟨_, rfl, rfl, rfl⟩ := first
    refine ⟨fun active => ?_, fun active event => ?_⟩
    · rw [List.flatMap_cons, List.flatMap_cons, ih.listed]
      rfl
    · rw [List.flatMap_cons, List.flatMap_cons, ih.fired]
      exact congrArg (· ++ _) (Standing.fired_id active event ⟨_, text, options, callback⟩ _).symm
  | apart same left right rest ih =>
    refine ⟨fun active => ?_, fun active event => ?_⟩
    · rw [List.flatMap_append, List.flatMap_append, same.listed, ih.listed]
    · rw [List.flatMap_append, List.flatMap_append, same.fired, ih.fired]

theorem perform_handle (command : Command κ) {number : Nat} {id : HotkeyId}
    (named : c.handles[number]? = some id) : (c.perform command).handles[number]? = some id := by
  obtain ⟨bound, _⟩ := List.getElem?_eq_some_iff.mp named
  rw [Client.perform, List.getElem?_append_left bound, named]

/-- A command does the same to twins. -/
theorem Twin.perform {s t : Standing κ} (twin : Twin c d s t) (command : Command κ)
    (distinct : (c.apart ++ c.handles).Nodup) (other : (d.apart ++ d.handles).Nodup) :
    Option.Rel (Twin (c.perform command) (d.perform command))
      (s.afterAll (command.operations c.handles c.apart))
      (t.afterAll (command.operations d.handles d.apart)) := by
  obtain ⟨⟨number, here, there⟩, text, options, callback⟩ := twin
  have kept : Twin (c.perform command) (d.perform command) s t :=
    ⟨⟨number, perform_handle command here, perform_handle command there⟩, text, options, callback⟩
  rw [Command.afterAll_named distinct here, Command.afterAll_named other there]
  cases command with
  | update n text options =>
    simp only [Command.change]
    split
    · exact .some ⟨kept.named, rfl, rfl, callback⟩
    · exact .some kept
  | unregister n =>
    simp only [Command.change]
    split
    · exact .none
    · exact .some kept
  | _ => exact .some kept

/-- A command ends all registrations that are set apart, or none of them. -/
theorem filterMap_apart (command : Command κ) (distinct : (c.apart ++ c.handles).Nodup)
    (members : ∀ s ∈ ss, s.id ∈ c.apart) :
    ss.filterMap (·.afterAll (command.operations c.handles c.apart)) =
      if command.isWithdraw then [] else ss := by
  induction ss with
  | nil => simp
  | cons s ss ih =>
    obtain ⟨first, members⟩ := List.forall_mem_cons.mp members
    rw [List.filterMap_cons, Command.afterAll_apart distinct first, ih members]
    cases command.isWithdraw <;> rfl

theorem Aligned.perform (aligned : Aligned platform c d ss ts) (command : Command κ)
    (distinct : (c.apart ++ c.handles).Nodup) (other : (d.apart ++ d.handles).Nodup) :
    Aligned platform (c.perform command) (d.perform command)
      (ss.filterMap (·.afterAll (command.operations c.handles c.apart)))
      (ts.filterMap (·.afterAll (command.operations d.handles d.apart))) := by
  induction aligned with
  | nil => exact .nil
  | @twin s t ss ts first rest ih =>
    have left := first.perform command distinct other
    rw [List.filterMap_cons, List.filterMap_cons]
    generalize s.afterAll _ = here at left ⊢
    generalize t.afterAll _ = there at left ⊢
    cases left with
    | none => exact ih
    | some twin => exact .twin twin ih
  | @apart own parts ss ts same left right rest ih =>
    rw [List.filterMap_append, List.filterMap_append, filterMap_apart command distinct left,
      filterMap_apart command other right]
    cases command.isWithdraw with
    | true => exact ih
    | false => exact .apart same left right ih

/-- Two clients that cannot be told apart, each with the run that its keyboard has made. -/
structure Matched (initialScopes : List String) (platform : Platform)
    (past other : List (Operation κ)) (c d : Client κ) : Prop where
  left : c.Kept initialScopes platform past
  right : d.Kept initialScopes platform other
  handles : c.handles.length = d.handles.length
  aligned : Aligned platform c d (standing 0 past) (standing 0 other)
  scopes : c.keyboard.scopes = d.keyboard.scopes
  held : c.keyboard.held = d.keyboard.held

variable {initialScopes : List String} {past other : List (Operation κ)}

/-- What a command registers, both clients name by their next handle. -/
theorem Matched.aligned_new (matched : Matched initialScopes platform past other c d)
    (command : Command κ) :
    Aligned platform (c.perform command) (d.perform command)
      (standing (registrations past) (command.operations c.handles c.apart))
      (standing (registrations other) (command.operations d.handles d.apart)) := by
  cases command with
  | register text callback options =>
    refine .twin ⟨⟨c.handles.length, ?_, ?_⟩, rfl, rfl, rfl⟩ .nil
    · rw [matched.left.handles_register]
      exact List.getElem?_concat_length
    · rw [matched.right.handles_register, matched.handles]
      exact List.getElem?_concat_length
  | _ =>
    rw [standing_eq_nil, standing_eq_nil]
    · exact .nil
    · rw [Command.registrations_operations]
      rfl
    · rw [Command.registrations_operations]
      rfl

theorem Matched.perform (matched : Matched initialScopes platform past other c d)
    (command : Command κ)
    (few : registrations (past ++ command.operations c.handles c.apart) ≤ UInt64.size)
    (fewOther : registrations (other ++ command.operations d.handles d.apart) ≤ UInt64.size) :
    Matched initialScopes platform (past ++ command.operations c.handles c.apart)
      (other ++ command.operations d.handles d.apart) (c.perform command) (d.perform command) := by
  obtain ⟨scopes, held⟩ := perform_surroundings matched.scopes matched.held command
  refine ⟨matched.left.perform command few, matched.right.perform command fewOther, ?_, ?_, scopes,
    held⟩
  · simp only [Client.perform, List.length_append, Keyboard.issued_length,
      Command.registrations_operations, matched.handles]
  · rw [standing_append, standing_append, Nat.zero_add, Nat.zero_add]
    exact (matched.aligned.perform command matched.left.distinct matched.right.distinct).append
      (matched.aligned_new command)

theorem Matched.follow (matched : Matched initialScopes platform past other c d)
    (commands : List (Command κ))
    (few : registrations past + commands.countP Command.isRegister ≤ UInt64.size)
    (fewOther : registrations other + commands.countP Command.isRegister ≤ UInt64.size) :
    ∃ past' other', registrations past' ≤ UInt64.size ∧ registrations other' ≤ UInt64.size ∧
      Matched initialScopes platform past' other' (c.follow commands) (d.follow commands) := by
  -- The two runs may grow by a different number of operations, but by the same registrations.
  induction commands generalizing past other c d with
  | nil => exact ⟨past, other, few, fewOther, matched⟩
  | cons command commands ih =>
    have count (ops : List (Operation κ)) (handles apart : List HotkeyId) :
        registrations (ops ++ command.operations handles apart) +
          commands.countP Command.isRegister =
        registrations ops + (command :: commands).countP Command.isRegister := by
      rw [registrations_append, Command.registrations_operations, Nat.add_assoc,
        ← List.countP_append]
      rfl
    rw [← count _ c.handles c.apart] at few
    rw [← count _ d.handles d.apart] at fewOther
    exact ih (matched.perform command (Nat.le_of_add_right_le few)
      (Nat.le_of_add_right_le fewOther)) few fewOther

/-- What stands behind a handle of the one client stands behind that of the other. -/
theorem Aligned.stands (aligned : Aligned platform c d ss ts)
    (distinct : (c.apart ++ c.handles).Nodup) (other : (d.apart ++ d.handles).Nodup) {number : Nat}
    {id mate : HotkeyId} (named : c.handles[number]? = some id)
    (mateNamed : d.handles[number]? = some mate) :
    (∃ s ∈ ss, s.id = id) ↔ ∃ t ∈ ts, t.id = mate := by
  obtain ⟨_, different, disjoint⟩ := List.nodup_append.mp distinct
  obtain ⟨_, mateDifferent, mateDisjoint⟩ := List.nodup_append.mp other
  induction aligned with
  | nil => simp
  | @twin s t ss ts first rest ih =>
    obtain ⟨n, here, there⟩ := first.named
    have same : s.id = id ↔ t.id = mate :=
      (Command.handle_eq different named here).trans
        (Command.handle_eq mateDifferent mateNamed there).symm
    rw [List.exists_mem_cons_iff, List.exists_mem_cons_iff, same, ih]
  | @apart own parts ss ts same left right rest ih =>
    have leftOther : ¬∃ s ∈ own, s.id = id := by
      rintro ⟨s, member, rfl⟩
      exact disjoint _ (left s member) _ (List.mem_of_getElem? named) rfl
    have rightOther : ¬∃ t ∈ parts, t.id = mate := by
      rintro ⟨t, member, rfl⟩
      exact mateDisjoint _ (right t member) _ (List.mem_of_getElem? mateNamed) rfl
    simp only [List.mem_append, or_and_right, exists_or, leftOther, rightOther, false_or, ih]

section seen

variable (few : registrations past ≤ UInt64.size)
include few

theorem Kept.hotkeys (kept : c.Kept initialScopes platform past) : c.keyboard.hotkeys =
    (standing 0 past).flatMap (·.listed platform c.keyboard.scopes) := by
  rw [kept.keyboard]
  exact (Keyboard.run_mirrors initialScopes platform past few).hotkeys
    (Keyboard.run_fresh initialScopes platform past)

theorem Kept.fired (kept : c.Kept initialScopes platform past) (event : KeyboardEvent) :
    let walk := (standing 0 past).flatMap (·.fired platform c.keyboard.scopes event)
    c.fired event = (walk.map (·.1), walk.map fun f => ⟨f.2, event, f.1⟩) := by
  have firings := (Keyboard.run_mirrors initialScopes platform past few).firings
    (Keyboard.run_fresh initialScopes platform past) event
  rw [← kept.keyboard] at firings
  simp only [Client.fired, Keyboard.handle, Registry.dispatch_fired, Registry.dispatch_calls,
    firings, Standing.fired, ← List.map_flatMap, List.map_map]
  rfl

theorem Kept.contains (kept : c.Kept initialScopes platform past) (id : HotkeyId) :
    c.keyboard.registry.contains id ↔ ∃ s ∈ standing 0 past, s.id = id := by
  rw [kept.keyboard]
  exact (Keyboard.run_mirrors initialScopes platform past few).contains id

variable (fewOther : registrations other ≤ UInt64.size)
  (matched : Matched initialScopes platform past other c d)
include fewOther matched

theorem Matched.hotkeys : c.keyboard.hotkeys = d.keyboard.hotkeys := by
  rw [matched.left.hotkeys few, matched.right.hotkeys fewOther, matched.scopes]
  exact matched.aligned.equivalent.listed _

theorem Matched.fired (event : KeyboardEvent) : c.fired event = d.fired event := by
  simp only [matched.left.fired few, matched.right.fired fewOther, matched.scopes,
    matched.aligned.equivalent.fired]

theorem Matched.stands (number : Nat) :
    c.handles[number]?.map c.keyboard.registry.contains =
      d.handles[number]?.map d.keyboard.registry.contains := by
  by_cases bound : number < c.handles.length
  · have named := List.getElem?_eq_getElem bound
    have mateNamed := List.getElem?_eq_getElem (matched.handles ▸ bound)
    rw [named, mateNamed, Option.map_some, Option.map_some, Option.some_inj, Bool.eq_iff_iff,
      matched.left.contains few, matched.right.contains fewOther]
    exact matched.aligned.stands matched.left.distinct matched.right.distinct named mateNamed
  · rw [List.getElem?_eq_none (Nat.le_of_not_lt bound),
      List.getElem?_eq_none (matched.handles ▸ Nat.le_of_not_lt bound)]
    rfl

end seen

/-- Registrations that both clients name by the same handles. -/
theorem aligned_self (handles : c.handles = d.handles) (named : ∀ s ∈ ss, s.id ∈ c.handles) :
    Aligned platform c d ss ss := by
  induction ss with
  | nil => exact .nil
  | cons s ss ih =>
    obtain ⟨first, named⟩ := List.forall_mem_cons.mp named
    obtain ⟨number, here⟩ := List.getElem?_of_mem first
    exact .twin ⟨⟨number, here, handles ▸ here⟩, rfl, rfl, rfl⟩ (ih named)

theorem settingApart_matched (initialScopes : List String) (platform : Platform)
    (past : List (Operation κ)) (text : String) (callback : κ) (options : Options)
    (few : registrations past + 1 ≤ UInt64.size)
    (fewParts : registrations past + (Hotkey.split text options.splitAt).length ≤ UInt64.size) :
    let parts := Hotkey.split text options.splitAt
    Matched initialScopes platform (past ++ requests [text] callback options)
      (past ++ requests parts callback options)
      (settingApart initialScopes platform past [text] callback options)
      (settingApart initialScopes platform past parts callback options) := by
  intro parts
  have bound : registrations past ≤ UInt64.size := Nat.le_of_add_right_le few
  have mirrors := Keyboard.run_mirrors initialScopes platform past bound
  have frame (texts : List String) := Keyboard.execute_registrations
    (k := (Keyboard.new initialScopes platform).execute past)
    (requests_registrations texts callback options)
  refine ⟨settingApart_kept initialScopes platform past [text] callback options few,
    settingApart_kept initialScopes platform past parts callback options fewParts, rfl, ?_,
    (frame [text]).1.trans (frame parts).1.symm, (frame [text]).2.trans (frame parts).2.symm⟩
  simp only [standing_append, afterAll_requests, List.filterMap_some, Nat.zero_add]
  refine .append (aligned_self rfl ?_) ?_
  · exact fun s stands => Keyboard.standing_issued rfl stands
  · have behind : Aligned platform
        (settingApart initialScopes platform past [text] callback options)
        (settingApart initialScopes platform past parts callback options)
        (standing (registrations past) (requests [text] callback options) ++ [])
        (standing (registrations past) (requests parts callback options) ++ []) :=
      .apart (equivalent_parts _ text) (fun _ => Keyboard.standing_issued mirrors.nextId)
        (fun _ => Keyboard.standing_issued mirrors.nextId) .nil
    rwa [List.append_nil, List.append_nil] at behind

/-- A registration of several combinations behaves as registrations of the single combinations with
the same options and callback: in every state that a run reaches, a client that registers a text at
once and one that registers its combinations one after the other list and fire the same hotkeys for
ever after, whatever they register, update and unregister beside it, and also when each of them has
withdrawn what it registered. Ids are told apart by their order, so neither counter may wrap. -/
theorem registered_in_parts (initialScopes : List String) (platform : Platform)
    (past : List (Operation κ)) (text : String) (callback : κ) (options : Options)
    (commands : List (Command κ))
    (few : registrations past + max 1 (Hotkey.split text options.splitAt).length +
      commands.countP Command.isRegister ≤ UInt64.size) :
    let client (texts : List String) : Client κ :=
      (settingApart initialScopes platform past texts callback options).follow commands
    let whole := client [text]
    let parts := client (Hotkey.split text options.splitAt)
    whole.keyboard.hotkeys = parts.keyboard.hotkeys ∧
    (∀ event, whole.fired event = parts.fired event) ∧
    whole.keyboard.scopes = parts.keyboard.scopes ∧ whole.keyboard.held = parts.keyboard.held ∧
    (∀ number : Nat, whole.handles[number]?.map whole.keyboard.registry.contains =
      parts.handles[number]?.map parts.keyboard.registry.contains) := by
  intro client whole parts
  have start := settingApart_matched initialScopes platform past text callback options (by omega)
    (by omega)
  have count (texts : List String) :
      registrations (past ++ requests texts callback options) =
        registrations past + texts.length := by
    rw [registrations_append, registrations_requests]
  have single : registrations (past ++ requests [text] callback options) = registrations past + 1 :=
    count [text]
  have several := count (Hotkey.split text options.splitAt)
  obtain ⟨wholePast, partsPast, few, fewParts, matched⟩ :=
    start.follow commands (by omega) (by omega)
  exact ⟨matched.hotkeys few fewParts, matched.fired few fewParts, matched.scopes, matched.held,
    matched.stands few fewParts⟩

/-- A separator that overlaps itself, and registrations in front and behind. -/
theorem registered_in_parts_sample :
    let past : List (Operation Nat) := [.register "z" 1 {}]
    let text := "a::: b ::::A"
    let options : Options := { splitAt := "::" }
    let parts := Hotkey.split text options.splitAt
    let client (texts : List String) (commands : List (Command Nat)) : Client Nat :=
      (settingApart [] .other past texts 2 options).follow commands
    let commands : List (Command Nat) := [.update 0 "a" {}, .register "a" 3 {}]
    let event : KeyboardEvent := .ofDown "a"
    registrations past + max 1 parts.length + commands.countP Command.isRegister ≤ UInt64.size ∧
    parts = ["a", ": b", "A"] ∧
    (client [text] commands).fired event = (client parts commands).fired event ∧
    ((client parts commands).fired event).2.map (·.callback) = [1, 2, 2, 3] ∧
    (client [text] (commands ++ [.withdraw])).fired event =
      (client parts (commands ++ [.withdraw])).fired event ∧
    ((client parts (commands ++ [.withdraw])).fired event).2.map (·.callback) = [1, 3] := by
  intro past text options parts client commands event
  have few : registrations past + max 1 parts.length + commands.countP Command.isRegister ≤
      UInt64.size := by decide +kernel
  have same := registered_in_parts [] .other past text 2 options commands few
  have withdrawn := registered_in_parts [] .other past text 2 options (commands ++ [.withdraw]) few
  exact ⟨few, by decide +kernel, same.2.1 event, by decide +kernel, withdrawn.2.1 event,
    by decide +kernel⟩

end Client

end Keymap
