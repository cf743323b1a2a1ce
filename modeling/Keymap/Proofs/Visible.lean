import Keymap.Proofs.Activation
import Keymap.Proofs.Firings
import Keymap.Proofs.History
import Keymap.Proofs.Table

/-! The cached list of visible registrations is invisible: after every run the keyboard lists and
fires what a walk over the standing registrations gives, which knows neither ids in use nor a
cache. -/
namespace Keymap

variable {κ : Type} {platform : Platform}

namespace Standing

def hotkeys (platform : Platform) (s : Standing κ) : List Hotkey :=
  s.options.compile platform s.text

def entry (platform : Platform) (s : Standing κ) : HotkeyId × Registration κ :=
  (s.id, ⟨s.hotkeys platform, s.options, s.callback⟩)

/-- The hotkeys of an enabled registration that pass the scope filter, each by its own scopes. -/
def listed (platform : Platform) (active : ActiveScopes) (s : Standing κ) : List Hotkey :=
  if s.options.enabled then (s.hotkeys platform).filter fun h => active.admits h.scopes else []

/-- What an event fires in a registration whose options are enabled and pass the scope filter. -/
def firings (platform : Platform) (active : ActiveScopes) (event : KeyboardEvent)
    (s : Standing κ) : List (Firing κ) :=
  if s.options.enabled && active.admits s.options.effectiveScopes then
    ((s.hotkeys platform).filter (·.firesFor s.options.policy event)).map fun h =>
      ⟨⟨s.id, h⟩, s.callback⟩
  else []

end Standing

namespace Keyboard

/-- The list of visible registrations is the one that the scopes and registrations call for. -/
def IsFresh (k : Keyboard κ) : Prop :=
  k.registry.visible = (k.registry.recompute k.scopes).visible

theorem refresh_fresh (k : Keyboard κ) : k.refresh.IsFresh := rfl

theorem changeScopes_frame (k : Keyboard κ) (scope : String) (activated : Bool)
    (change : ActiveScopes × Bool) :
    (k.changeScopes scope activated change).state.registry.entries = k.registry.entries ∧
    (k.changeScopes scope activated change).state.registry.nextId = k.registry.nextId ∧
    (k.changeScopes scope activated change).state.platform = k.platform := by
  unfold changeScopes
  dsimp only
  split <;> exact ⟨rfl, rfl, rfl⟩

theorem changeScopes_scopes (k : Keyboard κ) (scope : String) (activated : Bool)
    (change : ActiveScopes × Bool) :
    (k.changeScopes scope activated change).state.scopes = change.1 := by
  unfold changeScopes
  dsimp only
  split <;> rfl

/-- A change that is reported only where the scopes differ leaves no list out of date. -/
theorem changeScopes_fresh {k : Keyboard κ} (fresh : k.IsFresh) {scope : String}
    {activated : Bool} {change : ActiveScopes × Bool}
    (honest : change.2 = decide (change.1.names ≠ k.scopes.names)) :
    (k.changeScopes scope activated change).state.IsFresh := by
  unfold changeScopes
  dsimp only
  split
  next => exact refresh_fresh _
  next unchanged =>
    have same : change.1 = k.scopes := ActiveScopes.ext (by simpa [honest] using unchanged)
    rw [same]
    exact fresh

theorem update_state (k : Keyboard κ) (id : HotkeyId) (text : String) (options : Options) :
    (k.update id text options).state =
      if k.registry.contains id then
        refresh { k with registry :=
          (k.registry.replace id (options.compile k.platform text) options).1 }
      else k := by
  by_cases found : k.registry.contains id <;> simp [update, Registry.replace, found]

theorem unregister_state (k : Keyboard κ) (id : HotkeyId) :
    (k.unregister id).state =
      if k.registry.contains id then refresh { k with registry := (k.registry.remove id).1 }
      else k := by
  by_cases found : k.registry.contains id <;> simp [unregister, Registry.remove, found]

theorem update_answer (k : Keyboard κ) (id : HotkeyId) (text : String) (options : Options) :
    (k.update id text options).answer = k.registry.contains id := by
  by_cases found : k.registry.contains id <;> simp [update, Registry.replace, found]

theorem unregister_answer (k : Keyboard κ) (id : HotkeyId) :
    (k.unregister id).answer = k.registry.contains id := by
  by_cases found : k.registry.contains id <;> simp [unregister, Registry.remove, found]

/-- Operations that change nothing leave the list as it was; all others compute it anew. -/
theorem perform_fresh {k : Keyboard κ} (fresh : k.IsFresh) (op : Operation κ) :
    (k.perform op).state.IsFresh := by
  cases op with
  | register text callback options => exact refresh_fresh _
  | update id text options =>
    simp only [perform, update_state]
    split
    · exact refresh_fresh _
    · exact fresh
  | unregister id =>
    simp only [perform, unregister_state]
    split
    · exact refresh_fresh _
    · exact fresh
  | activate scope => exact changeScopes_fresh fresh (k.scopes.activate_changed scope)
  | deactivate scope => exact changeScopes_fresh fresh (k.scopes.deactivate_changed scope)
  | toggle scope => exact changeScopes_fresh fresh (k.scopes.toggle_changed scope)
  | handle event => exact fresh
  | clearHeld => exact fresh

theorem execute_fresh {k : Keyboard κ} (fresh : k.IsFresh) (ops : List (Operation κ)) :
    (k.execute ops).IsFresh := by
  induction ops generalizing k with
  | nil => exact fresh
  | cons op ops ih => exact ih (perform_fresh fresh op)

theorem update_frame (k : Keyboard κ) (id : HotkeyId) (text : String) (options : Options) :
    let t := (k.update id text options).state
    t.registry.entries = k.registry.entries.modify id (fun old =>
      ⟨options.compile k.platform text, options, old.callback⟩) ∧
    t.registry.nextId = k.registry.nextId ∧ t.platform = k.platform := by
  rw [update_state]
  by_cases found : k.registry.contains id
  · simp [found, Registry.replace, refresh, Registry.recompute]
  · rw [Table.modify_absent (by simpa [Registry.contains] using found)]
    simp [found]

theorem unregister_frame (k : Keyboard κ) (id : HotkeyId) :
    let t := (k.unregister id).state
    t.registry.entries = k.registry.entries.erase id ∧
    t.registry.nextId = k.registry.nextId ∧ t.platform = k.platform := by
  rw [unregister_state]
  by_cases found : k.registry.contains id
  · simp [found, Registry.remove, refresh, Registry.recompute]
  · rw [Table.erase_absent (by simpa [Registry.contains] using found)]
    simp [found]

structure Mirrors (platform : Platform) (past : List (Operation κ)) (k : Keyboard κ) : Prop where
  entries : k.registry.entries.toList = (standing 0 past).map (Standing.entry platform)
  nextId : k.registry.nextId = .ofNat (registrations past)
  platform : k.platform = platform

/-- Operations that make no registration change every standing one by itself. -/
theorem Mirrors.keep {past : List (Operation κ)} {op : Operation κ} {k t : Keyboard κ}
    (mirrors : Mirrors platform past k) (other : op.isRegister = false)
    (entries : t.registry.entries.toList =
      (standing 0 past).filterMap fun s => (s.after op).map (Standing.entry platform))
    (frame : t.registry.nextId = k.registry.nextId ∧ t.platform = k.platform) :
    Mirrors platform (past ++ [op]) t := by
  have none : standing (registrations past) [op] = [] := by cases op <;> trivial
  have count : registrations [op] = 0 := by simp [registrations, other]
  refine ⟨?_, ?_, frame.2.trans mirrors.platform⟩
  · rw [entries, standing_snoc, Nat.zero_add, none, List.append_nil, List.map_filterMap]
  · rw [frame.1, mirrors.nextId, registrations_append, count, Nat.add_zero]

theorem Mirrors.changeScopes {past : List (Operation κ)} {op : Operation κ} {k : Keyboard κ}
    (mirrors : Mirrors platform past k) (other : op.isRegister = false)
    (keeps : ∀ s : Standing κ, s.after op = some s) (scope : String) (activated : Bool)
    (change : ActiveScopes × Bool) :
    Mirrors platform (past ++ [op]) (k.changeScopes scope activated change).state := by
  obtain ⟨entries, frame⟩ := changeScopes_frame k scope activated change
  apply mirrors.keep other _ frame
  rw [entries, mirrors.entries]
  simp [keeps]

/-- A registration gets the next number, which is above all numbers given before. -/
theorem Mirrors.register {past : List (Operation κ)} {k : Keyboard κ}
    (mirrors : Mirrors platform past k) (text : String) (callback : κ) (options : Options)
    (few : registrations past < UInt64.size) :
    Mirrors platform (past ++ [.register text callback options])
      (k.register text callback options).state := by
  have above : ∀ entry ∈ k.registry.entries.toList, entry.1.number < k.registry.nextId := by
    intro entry member
    rw [mirrors.entries] at member
    obtain ⟨s, stands, rfl⟩ := List.mem_map.mp member
    obtain ⟨n, _, high, eq⟩ := standing_id stands
    rw [mirrors.nextId, Standing.entry, eq, UInt64.ofNat_lt_iff_lt (by omega) (by omega)]
    omega
  refine ⟨?_, ?_, mirrors.platform⟩
  · have inserted : (k.register text callback options).state.registry.entries =
        k.registry.entries.insert ⟨k.registry.nextId⟩
          ⟨options.compile k.platform text, options, callback⟩ := rfl
    rw [inserted, Table.insert_above above, mirrors.entries, standing_snoc, mirrors.nextId,
      mirrors.platform, Nat.zero_add]
    simp [standing, Standing.afterAll, Standing.after, Standing.entry, Standing.hotkeys]
  · have counted : (k.register text callback options).state.registry.nextId =
        k.registry.nextId + 1 := rfl
    rw [counted, mirrors.nextId, registrations_append]
    simp [registrations, Operation.isRegister, UInt64.ofNat_add]

theorem Mirrors.update {past : List (Operation κ)} {k : Keyboard κ}
    (mirrors : Mirrors platform past k) (id : HotkeyId) (text : String) (options : Options) :
    Mirrors platform (past ++ [.update id text options]) (k.update id text options).state := by
  obtain ⟨entries, frame⟩ := update_frame k id text options
  refine mirrors.keep rfl ?_ frame
  rw [entries, Table.modify_toList, mirrors.entries, mirrors.platform, List.map_map,
    ← List.filterMap_eq_map]
  congr 1
  funext s
  by_cases same : id = s.id
  · simp [Standing.after, Standing.entry, Standing.hotkeys, same]
  · simp [Standing.after, Standing.entry, same, Ne.symm same]

theorem Mirrors.unregister {past : List (Operation κ)} {k : Keyboard κ}
    (mirrors : Mirrors platform past k) (id : HotkeyId) :
    Mirrors platform (past ++ [.unregister id]) (k.unregister id).state := by
  obtain ⟨entries, frame⟩ := unregister_frame k id
  refine mirrors.keep rfl ?_ frame
  rw [entries, Table.erase_toList, mirrors.entries, ← List.filterMap_eq_filter, List.filterMap_map]
  congr 1
  funext s
  by_cases same : id = s.id
  · simp [Standing.after, Standing.entry, Option.guard, same]
  · simp [Standing.after, Standing.entry, Option.guard, same, Ne.symm same]

theorem perform_mirrors {past : List (Operation κ)} {k : Keyboard κ}
    (mirrors : Mirrors platform past k) (op : Operation κ)
    (few : registrations (past ++ [op]) ≤ UInt64.size) :
    Mirrors platform (past ++ [op]) (k.perform op).state := by
  rw [registrations_append] at few
  cases op with
  | register text callback options =>
    rw [registrations_register] at few
    exact mirrors.register text callback options (by omega)
  | update id text options => exact mirrors.update id text options
  | unregister id => exact mirrors.unregister id
  | activate scope => exact mirrors.changeScopes rfl (fun _ => rfl) ..
  | deactivate scope => exact mirrors.changeScopes rfl (fun _ => rfl) ..
  | toggle scope => exact mirrors.changeScopes rfl (fun _ => rfl) ..
  | handle event =>
    refine mirrors.keep rfl ?_ ⟨rfl, rfl⟩
    simp [Standing.after, mirrors.entries, perform, handle]
  | clearHeld =>
    refine mirrors.keep rfl ?_ ⟨rfl, rfl⟩
    simp [Standing.after, mirrors.entries, perform, Keyboard.clearHeld]

theorem execute_mirrors {past ops : List (Operation κ)} {k : Keyboard κ}
    (mirrors : Mirrors platform past k) (few : registrations (past ++ ops) ≤ UInt64.size) :
    Mirrors platform (past ++ ops) (k.execute ops) := by
  induction ops generalizing past k with
  | nil => simpa [execute] using mirrors
  -- The past grows by the operation that is made, and the bound covers every prefix of the run.
  | cons op ops ih =>
    rw [List.append_cons] at few ⊢
    have first : registrations (past ++ [op]) ≤ UInt64.size := by
      rw [registrations_append] at few
      omega
    exact ih (perform_mirrors mirrors op first) few

/-- After every run the registry holds the standing registrations, compiled. -/
theorem run_mirrors (initialScopes : List String) (platform : Platform) (ops : List (Operation κ))
    (few : registrations ops ≤ UInt64.size) :
    Mirrors platform ops ((Keyboard.new initialScopes platform).execute ops) := by
  have start : Mirrors platform ([] : List (Operation κ)) (Keyboard.new initialScopes platform) :=
    ⟨rfl, rfl, rfl⟩
  exact execute_mirrors start few

theorem run_fresh (initialScopes : List String) (platform : Platform) (ops : List (Operation κ)) :
    ((Keyboard.new initialScopes platform).execute ops).IsFresh := by
  have start : (Keyboard.new initialScopes platform : Keyboard κ).IsFresh := rfl
  exact execute_fresh start ops

end Keyboard

/-- A registration is visible as soon as it has any hotkey at all, since the scope filter treats
its hotkeys alike. -/
theorem Standing.isVisible_eq (s : Standing κ) (active : ActiveScopes) :
    (s.entry platform).2.isVisible active =
      (s.options.enabled && active.admits s.options.effectiveScopes &&
        !(s.hotkeys platform).isEmpty) := by
  have alike : ∀ h ∈ s.hotkeys platform, (h.isGlobal || active.intersects h.scopes) =
      active.admits s.options.effectiveScopes := by
    intro h member
    rw [active.admits_eq]
    exact Options.compile_admits member active
  simp only [Registration.isVisible, Standing.entry, Bool.and_assoc]
  congr 1
  cases hotkeys : s.hotkeys platform with
  | nil => simp
  | cons h rest =>
    rw [hotkeys] at alike
    cases admitted : active.admits s.options.effectiveScopes with
    | true => simp [alike h List.mem_cons_self, admitted]
    | false =>
      rw [admitted] at alike
      simpa using alike

theorem Standing.listed_eq (s : Standing κ) (active : ActiveScopes) :
    s.listed platform active =
      if (s.entry platform).2.isVisible active then s.hotkeys platform else [] := by
  have alike (h : Hotkey) (member : h ∈ s.hotkeys platform) :=
    Options.compile_admits member active
  have kept : (s.hotkeys platform).filter (fun h => active.admits h.scopes) =
      if active.admits s.options.effectiveScopes then s.hotkeys platform else [] := by
    split
    next admitted => exact List.filter_eq_self.mpr fun h member => (alike h member).trans admitted
    next rejected =>
      apply List.filter_eq_nil_iff.mpr
      intro h member
      rwa [alike h member]
  rw [Standing.isVisible_eq, Standing.listed, kept]
  cases s.options.enabled <;> cases active.admits s.options.effectiveScopes <;>
    cases s.hotkeys platform <;> simp

theorem Standing.firings_eq (s : Standing κ) (active : ActiveScopes) (event : KeyboardEvent) :
    s.firings platform active event =
      if (s.entry platform).2.isVisible active then
        (Hotkey.firing (s.hotkeys platform) s.options.policy event).map fun h =>
          ⟨⟨s.id, h⟩, s.callback⟩
      else [] := by
  rw [Standing.isVisible_eq, Standing.firings, Hotkey.firing]
  cases s.options.enabled <;> cases active.admits s.options.effectiveScopes <;>
    cases s.hotkeys platform <;> simp

namespace Keyboard

theorem hotkeys_eq {k : Keyboard κ} (fresh : k.IsFresh) :
    k.hotkeys = k.registry.entries.toList.flatMap fun entry =>
      if entry.2.isVisible k.scopes then entry.2.hotkeys else [] := by
  rw [hotkeys, Registry.visibleHotkeys, fresh]
  exact k.registry.entries.flatMap_find? _ fun _ r => r.hotkeys

theorem firings_eq {k : Keyboard κ} (fresh : k.IsFresh) (event : KeyboardEvent) :
    k.registry.firings event = k.registry.entries.toList.flatMap fun entry =>
      if entry.2.isVisible k.scopes then
        (Hotkey.firing entry.2.hotkeys entry.2.options.policy event).map fun h =>
          ⟨⟨entry.1, h⟩, entry.2.callback⟩
      else [] := by
  have lookup : k.registry.firingsOf event = fun id =>
      ((k.registry.entries.find? id).map fun r =>
        (Hotkey.firing r.hotkeys r.options.policy event).map fun h =>
          Firing.mk ⟨id, h⟩ r.callback).getD [] := by
    funext id
    unfold Registry.firingsOf
    cases k.registry.entries.find? id <;> rfl
  rw [Registry.firings, lookup, fresh]
  exact k.registry.entries.flatMap_find? _ fun id r =>
    (Hotkey.firing r.hotkeys r.options.policy event).map fun h => Firing.mk ⟨id, h⟩ r.callback

theorem Mirrors.hotkeys {past : List (Operation κ)} {k : Keyboard κ}
    (mirrors : Mirrors platform past k) (fresh : k.IsFresh) :
    k.hotkeys = (standing 0 past).flatMap (·.listed platform k.scopes) := by
  rw [hotkeys_eq fresh, mirrors.entries, List.flatMap_map]
  congr 1
  funext s
  exact (s.listed_eq k.scopes).symm

theorem Mirrors.firings {past : List (Operation κ)} {k : Keyboard κ}
    (mirrors : Mirrors platform past k) (fresh : k.IsFresh) (event : KeyboardEvent) :
    k.registry.firings event = (standing 0 past).flatMap (·.firings platform k.scopes event) := by
  rw [firings_eq fresh, mirrors.entries, List.flatMap_map]
  congr 1
  funext s
  exact (s.firings_eq k.scopes event).symm

def sampleRun : List (Operation Nat) := [
  .register "a, ctrl+b" 7 { scopes := ["editor"] },
  .register "b" 8 { enabled := false },
  .update ⟨0⟩ "b, a" { scopes := ["editor", "menu"] },
  .register "a" 9 {},
  .unregister ⟨5⟩,
  .activate "menu"]

/-- An event fires what a walk over the standing registrations finds, in the order in which they
were made: the latest combinations and policy of each. For every item of the list one call is made,
in the same order, of the callback that the registration was made with. -/
theorem handle_eq_walk (initialScopes : List String) (platform : Platform)
    (ops : List (Operation κ)) (few : registrations ops < UInt64.size) (event : KeyboardEvent) :
    let k := (Keyboard.new initialScopes platform).execute ops
    let walk := (standing 0 ops).flatMap (·.firings platform k.scopes event)
    (k.handle event).answer.fired = walk.map (·.triggered) ∧
    (k.handle event).answer.calls = walk.map fun f => ⟨f.callback, event, f.triggered.hotkey⟩ := by
  intro k walk
  have found : k.registry.firings event = walk :=
    (run_mirrors initialScopes platform ops (Nat.le_of_lt few)).firings
      (run_fresh initialScopes platform ops) event
  exact ⟨found ▸ k.registry.dispatch_fired event, found ▸ k.registry.dispatch_calls event⟩

theorem handle_eq_walk_sample :
    let d := (((Keyboard.new [] .other).execute sampleRun).handle (.ofDown "A")).answer
    registrations sampleRun < UInt64.size ∧
    d.fired.map (fun t => (t.id.number, t.hotkey.keys)) = [(0, ["a"]), (2, ["a"])] ∧
    d.calls.map (fun c => (c.callback, c.event.key, c.hotkey.keys)) =
      [(7, "A", ["a"]), (9, "A", ["a"])] := by
  intro d
  have few : registrations sampleRun < UInt64.size := by decide
  obtain ⟨fired, calls⟩ := handle_eq_walk [] .other sampleRun few (.ofDown "A")
  exact ⟨few, (congrArg _ fired).trans (by rfl), (congrArg _ calls).trans (by rfl)⟩

/-- The cached list of visible registrations is never out of date, and with it neither is the
listing of hotkeys: it holds what each hotkey's own scopes call for. -/
theorem visible_up_to_date (initialScopes : List String) (platform : Platform)
    (ops : List (Operation κ)) (few : registrations ops < UInt64.size) :
    let k := (Keyboard.new initialScopes platform).execute ops
    k.registry.visible = (k.registry.recompute k.scopes).visible ∧
    k.registry.visible.Pairwise (fun id later => id.number < later.number) ∧
    (∀ id ∈ k.registry.visible, k.registry.contains id) ∧
    k.registry.entries.toList = (standing 0 ops).map (Standing.entry platform) ∧
    k.hotkeys = (standing 0 ops).flatMap (·.listed platform k.scopes) ∧
    (∀ entry ∈ k.registry.entries.toList, ∀ h ∈ entry.2.hotkeys,
      h.scopes = (if entry.2.options.scopes = [] then [wildcard]
        else entry.2.options.scopes.eraseDups) ∧
      (entry.2.isVisible k.scopes ↔ entry.2.options.enabled ∧ k.scopes.admits h.scopes)) := by
  intro k
  have mirrors := run_mirrors initialScopes platform ops (Nat.le_of_lt few)
  have fresh : k.IsFresh := run_fresh initialScopes platform ops
  refine ⟨fresh, ?_, ?_, mirrors.entries, mirrors.hotkeys fresh, ?_⟩
  · rw [fresh, Registry.recompute, List.pairwise_map]
    exact k.registry.entries.ascending.filter _
  · intro id member
    rw [fresh, Registry.recompute] at member
    obtain ⟨entry, kept, rfl⟩ := List.mem_map.mp member
    exact Table.contains_iff.mpr ⟨entry.2, (List.mem_filter.mp kept).1⟩
  · intro entry held h member
    rw [mirrors.entries] at held
    obtain ⟨s, _, rfl⟩ := List.mem_map.mp held
    refine ⟨Options.compile_scopes member, ?_⟩
    have some : (s.hotkeys platform).isEmpty = false := by
      cases empty : s.hotkeys platform with
      | nil =>
        have gone : h ∈ s.hotkeys platform := member
        simp [empty] at gone
      | cons => rfl
    rw [s.isVisible_eq, Options.compile_admits member, some]
    simp [Standing.entry]

theorem visible_up_to_date_sample :
    registrations sampleRun < UInt64.size ∧
    ((Keyboard.new [] .other).execute sampleRun).registry.visible = [⟨0⟩, ⟨2⟩] ∧
    ((Keyboard.new [] .other).execute sampleRun).hotkeys.map (fun h => (h.keys, h.scopes)) =
      [(["b"], ["editor", "menu"]), (["a"], ["editor", "menu"]), (["a"], ["*"])] := by
  have few : registrations sampleRun < UInt64.size := by decide
  obtain ⟨fresh, _, _, _, listed, _⟩ := visible_up_to_date [] .other sampleRun few
  exact ⟨few, fresh.trans (by rfl), (congrArg _ listed).trans (by rfl)⟩

end Keyboard

end Keymap
