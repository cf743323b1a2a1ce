import Keymap.Proofs.Visible

/-! The notices of a keyboard as a journal. An observer that was there from the start and lost none
of them knows the active scopes, the live registrations and the numbers of their hotkeys. -/
namespace Keymap

variable {κ : Type} {platform : Platform}

/-- What can be known of a keyboard from its notices alone. -/
@[ext]
structure Journal where
  active : List String
  /-- The live registrations in their order, with the numbers of their hotkeys. -/
  live : List (HotkeyId × UInt64)
  deriving DecidableEq, Repr

namespace Journal

/-- Before the first notice only the settings are known. -/
def start (initialScopes : List String) : Journal := ⟨scopesOrWildcard initialScopes, []⟩

def note (j : Journal) : Notice → Journal
  | .scopeActivated _ active => { j with active := active }
  | .scopeDeactivated _ active => { j with active := active }
  | .registered id count => { j with live := j.live ++ [(id, count)] }
  | .updated id count =>
    { j with live := j.live.map fun entry => if entry.1 = id then (id, count) else entry }
  | .unregistered id => { j with live := j.live.filter fun entry => entry.1 ≠ id }
  | .triggered _ _ => j

def noteAll (j : Journal) (notices : List Notice) : Journal := notices.foldl note j

theorem noteAll_triggered (j : Journal) {notices : List Notice}
    (only : ∀ notice ∈ notices, ∃ id combination, notice = .triggered id combination) :
    j.noteAll notices = j := by
  induction notices with
  | nil => rfl
  | cons notice notices ih =>
    obtain ⟨id, combination, rfl⟩ := only notice List.mem_cons_self
    exact ih fun later member => only later (List.mem_cons_of_mem _ member)

end Journal

namespace Keyboard

def journal (k : Keyboard κ) : Journal where
  active := k.scopes.names
  live := k.registry.entries.toList.map fun entry => (entry.1, .ofNat entry.2.hotkeys.length)

def notices (k : Keyboard κ) : List (Operation κ) → List Notice
  | [] => []
  | op :: ops => (k.perform op).notices ++ (k.perform op).state.notices ops

/-- A change of scopes is announced once, by what has become of the scope that was named. -/
def scopeNotices (scope : String) (before after : Keyboard κ) : List Notice :=
  if after.scopes.names = before.scopes.names then []
  else if scope ∈ after.scopes.names then [.scopeActivated scope after.scopes.names]
  else [.scopeDeactivated scope after.scopes.names]

variable {k : Keyboard κ}

theorem changeScopes_notices {change : ActiveScopes × Bool} {scope : String} {activated : Bool}
    (honest : change.2 = decide (change.1.names ≠ k.scopes.names))
    (named : change.1.names ≠ k.scopes.names → (activated = true ↔ scope ∈ change.1.names)) :
    (k.changeScopes scope activated change).notices =
      scopeNotices scope k (k.changeScopes scope activated change).state := by
  rw [scopeNotices, changeScopes_scopes]
  by_cases same : change.1.names = k.scopes.names
  · simp [changeScopes, honest, same]
  · by_cases active : scope ∈ change.1.names <;>
      simp [changeScopes, honest, same, named same, active]

theorem activate_notices (k : Keyboard κ) (scope : String) :
    (k.activate scope).notices = scopeNotices scope k (k.activate scope).state :=
  changeScopes_notices (k.scopes.activate_changed scope)
    fun _ => by simpa using k.scopes.activate_isActive scope

theorem deactivate_notices (k : Keyboard κ) (scope : String) :
    (k.deactivate scope).notices = scopeNotices scope k (k.deactivate scope).state := by
  apply changeScopes_notices (k.scopes.deactivate_changed scope)
  intro changed
  have gone : scope ∉ (k.scopes.deactivate scope).1.names := by
    intro member
    obtain ⟨rfl, same⟩ := (k.scopes.deactivate_isActive scope).mp member
    apply changed
    rw [ActiveScopes.deactivate_names, same]
    simp
  simpa using gone

theorem toggle_notices (k : Keyboard κ) (scope : String) :
    (k.toggle scope).notices = scopeNotices scope k (k.toggle scope).state :=
  changeScopes_notices (k.scopes.toggle_changed scope)
    fun _ => by simp [ActiveScopes.isActive]

theorem update_notices (k : Keyboard κ) (id : HotkeyId) (text : String) (options : Options) :
    (k.update id text options).notices = if k.registry.contains id then
      [.updated id (.ofNat (options.compile k.platform text).length)] else [] := by
  by_cases found : k.registry.contains id <;> simp [update, Registry.replace, found]

theorem unregister_notices (k : Keyboard κ) (id : HotkeyId) :
    (k.unregister id).notices = if k.registry.contains id then [.unregistered id] else [] := by
  by_cases found : k.registry.contains id <;> simp [unregister, Registry.remove, found]

/-- A change of scopes is all that its notice says. -/
theorem noteAll_scopeNotices {scope : String} {after : Keyboard κ}
    (entries : after.registry.entries = k.registry.entries) :
    k.journal.noteAll (scopeNotices scope k after) = after.journal := by
  unfold scopeNotices
  split
  next same => simp [Journal.noteAll, journal, same, entries]
  next => split <;> simp [Journal.noteAll, Journal.note, journal, entries]

def journalEntry (platform : Platform) (s : Standing κ) : HotkeyId × UInt64 :=
  (s.id, .ofNat (s.hotkeys platform).length)

theorem Mirrors.live {past : List (Operation κ)} (mirrors : Mirrors platform past k) :
    k.journal.live = (standing 0 past).map (journalEntry platform) := by
  rw [journal, mirrors.entries, List.map_map]
  rfl

/-- What an update makes of the standing registrations is what its notice makes of the journal. -/
theorem live_updated (ss : List (Standing κ)) (id : HotkeyId) (text : String) (options : Options) :
    (ss.filterMap (·.after (.update id text options))).map (journalEntry platform) =
      (ss.map (journalEntry platform)).map fun entry =>
        if entry.1 = id then (id, .ofNat (options.compile platform text).length) else entry := by
  rw [List.map_map, List.map_filterMap, ← List.filterMap_eq_map]
  congr 1
  funext s
  by_cases same : s.id = id
  · simp [Standing.after, journalEntry, Standing.hotkeys, same]
  · simp [Standing.after, journalEntry, same, Ne.symm same]

theorem live_unregistered (ss : List (Standing κ)) (id : HotkeyId) :
    (ss.filterMap (·.after (.unregister id))).map (journalEntry platform) =
      (ss.map (journalEntry platform)).filter fun entry => entry.1 ≠ id := by
  rw [List.filter_map, List.map_filterMap, ← List.filterMap_eq_filter, List.map_filterMap]
  congr 1
  funext s
  by_cases same : s.id = id
  · simp [Standing.after, journalEntry, Option.guard, same]
  · simp [Standing.after, journalEntry, Option.guard, same, Ne.symm same]

/-- The notice of an operation tells an observer all that the operation changed. -/
theorem noteAll_perform {past : List (Operation κ)} (mirrors : Mirrors platform past k)
    (op : Operation κ) (few : registrations (past ++ [op]) ≤ UInt64.size) :
    k.journal.noteAll (k.perform op).notices = (k.perform op).state.journal := by
  have later := (perform_mirrors mirrors op few).live
  rw [standing_snoc] at later
  cases op with
  | activate scope =>
    rw [perform, activate_notices]
    exact noteAll_scopeNotices (changeScopes_frame ..).1
  | deactivate scope =>
    rw [perform, deactivate_notices]
    exact noteAll_scopeNotices (changeScopes_frame ..).1
  | toggle scope =>
    rw [perform, toggle_notices]
    exact noteAll_scopeNotices (changeScopes_frame ..).1
  | register text callback options =>
    have noted : (k.perform (.register text callback options)).notices =
        [.registered ⟨k.registry.nextId⟩ (.ofNat (options.compile k.platform text).length)] := rfl
    refine Journal.ext (by rfl) ?_
    rw [later, noted, mirrors.nextId, mirrors.platform]
    simp [Journal.noteAll, Journal.note, mirrors.live, standing, Standing.after,
      Standing.afterAll, journalEntry, Standing.hotkeys]
  | update id text options =>
    have noted := update_notices k id text options
    have state := update_state k id text options
    by_cases found : k.registry.contains id
    · simp only [found, if_true] at noted state
      apply Journal.ext
      · simp [perform, noted, state, Journal.noteAll, Journal.note, journal, refresh]
      · have new : standing (0 + registrations past) [.update (κ := κ) id text options] = [] := rfl
        rw [later, perform, noted, mirrors.platform, new, List.append_nil, live_updated,
          ← mirrors.live]
        rfl
    · simp [perform, noted, state, found, Journal.noteAll]
  | unregister id =>
    have noted := unregister_notices k id
    have state := unregister_state k id
    by_cases found : k.registry.contains id
    · simp only [found, if_true] at noted state
      apply Journal.ext
      · simp [perform, noted, state, Journal.noteAll, Journal.note, journal, refresh]
      · have new : standing (0 + registrations past) [.unregister (κ := κ) id] = [] := rfl
        rw [later, perform, noted, new, List.append_nil, live_unregistered, ← mirrors.live]
        rfl
    · simp [perform, noted, state, found, Journal.noteAll]
  | handle event =>
    apply Journal.noteAll_triggered
    intro notice member
    obtain ⟨f, _, rfl⟩ := List.mem_map.mp member
    exact ⟨_, _, rfl⟩
  | clearHeld => rfl

theorem noteAll_notices {past ops : List (Operation κ)} (mirrors : Mirrors platform past k)
    (few : registrations (past ++ ops) ≤ UInt64.size) :
    k.journal.noteAll (k.notices ops) = (k.execute ops).journal := by
  induction ops generalizing past k with
  | nil => rfl
  -- The past grows by the operation that is made, and the bound covers every prefix of the run.
  | cons op ops ih =>
    rw [List.append_cons] at few
    have first : registrations (past ++ [op]) ≤ UInt64.size := by
      rw [registrations_append] at few
      omega
    have rest := ih (perform_mirrors mirrors op first) few
    rw [notices, Journal.noteAll, List.foldl_append, ← Journal.noteAll, ← Journal.noteAll,
      noteAll_perform mirrors op first]
    exact rest

/-- Every operation that changes something announces it once and truthfully, and one that changes
nothing announces nothing. So an observer that notes all notices from the start on knows the active
scopes, the live registrations and the numbers of their hotkeys at every point of a run. -/
theorem notices_complete (initialScopes : List String) (platform : Platform)
    (ops : List (Operation κ)) (few : registrations ops < UInt64.size) :
    let start : Keyboard κ := Keyboard.new initialScopes platform
    let k := start.execute ops
    (∀ scope, (k.activate scope).notices = scopeNotices scope k (k.activate scope).state ∧
      (k.deactivate scope).notices = scopeNotices scope k (k.deactivate scope).state ∧
      (k.toggle scope).notices = scopeNotices scope k (k.toggle scope).state) ∧
    (∀ text callback options, (k.register text callback options).notices =
      [.registered (k.register text callback options).answer
        (.ofNat (options.compile platform text).length)]) ∧
    (∀ id text options, (k.update id text options).notices =
      if (k.update id text options).answer then
        [.updated id (.ofNat (options.compile platform text).length)] else []) ∧
    (∀ id, (k.unregister id).notices =
      if (k.unregister id).answer then [.unregistered id] else []) ∧
    (∀ before, before <+: ops →
      (Journal.start initialScopes).noteAll (start.notices before) =
        (start.execute before).journal) := by
  intro start k
  have mirrors := run_mirrors initialScopes platform ops (Nat.le_of_lt few)
  have sameForm : k.platform = platform := mirrors.platform
  refine ⟨?_, ?_, ?_, ?_, ?_⟩
  · intro scope
    exact ⟨activate_notices k scope, deactivate_notices k scope, toggle_notices k scope⟩
  · intro text callback options
    rw [← sameForm]
    rfl
  · intro id text options
    rw [update_answer, update_notices, sameForm]
  · intro id
    rw [unregister_answer, unregister_notices]
  · rintro before ⟨later, rfl⟩
    have none : Mirrors platform ([] : List (Operation κ)) start := ⟨rfl, rfl, rfl⟩
    have fewer : registrations ([] ++ before) ≤ UInt64.size := by
      rw [registrations_append] at few
      simpa using Nat.le_of_lt (Nat.lt_of_le_of_lt (Nat.le_add_right ..) few)
    exact noteAll_notices none fewer

theorem notices_complete_sample :
    registrations sampleRun < UInt64.size ∧
    (Journal.start ["menu"]).noteAll ((Keyboard.new ["menu"] .other).notices sampleRun) =
      ((Keyboard.new ["menu"] .other).execute sampleRun).journal ∧
    ((Keyboard.new ["menu"] .other).execute sampleRun).journal =
      ⟨["menu"], [(⟨0⟩, 2), (⟨1⟩, 1), (⟨2⟩, 1)]⟩ := by
  have few : registrations sampleRun < UInt64.size := by decide
  obtain ⟨_, _, _, _, journal⟩ := notices_complete ["menu"] .other sampleRun few
  exact ⟨few, journal sampleRun (List.prefix_refl _), by rfl⟩

end Keyboard

end Keymap
