import Keymap.Proofs.Firings
import Keymap.Proofs.Table
import Mathlib.Data.List.Sort

/-! A registry by itself, whose list of visible registrations may be out of date. Whatever was
inserted, replaced or removed since the list was computed, an event fires registrations of the list
that still stand, as they stand now; no id is given twice, so none takes the place of another. -/
namespace Keymap.Registry

variable {κ : Type}

inductive Change (κ : Type) where
  | insert (hotkeys : List Hotkey) (options : Options) (callback : κ)
  | replace (id : HotkeyId) (hotkeys : List Hotkey) (options : Options)
  | remove (id : HotkeyId)
  | recompute (scopes : ActiveScopes)
  | dispatch (event : KeyboardEvent)

def perform (r : Registry κ) : Change κ → Registry κ
  | .insert hotkeys options callback => (r.insert hotkeys options callback).1
  | .replace id hotkeys options => (r.replace id hotkeys options).1
  | .remove id => (r.remove id).1
  | .recompute scopes => r.recompute scopes
  | .dispatch _ => r

/-- The registry behind a history, in which the latest change stands first. -/
def after : List (Change κ) → Registry κ
  | [] => .empty
  | change :: past => (after past).perform change

def Change.isInsert : Change κ → Bool
  | .insert .. => true
  | _ => false

def insertions (past : List (Change κ)) : Nat := past.countP Change.isInsert

def issued (past : List (Change κ)) : List HotkeyId :=
  (List.range (insertions past)).map fun n => ⟨.ofNat n⟩

/-- What a history says of an id: the registration as the latest changes have left it, with the
callback that it was inserted with. -/
def current : List (Change κ) → HotkeyId → Option (Registration κ)
  | [], _ => none
  | .insert hotkeys options callback :: past, id =>
    if id = ⟨.ofNat (insertions past)⟩ then some ⟨hotkeys, options, callback⟩ else current past id
  | .replace other hotkeys options :: past, id =>
    if id = other then (current past id).map fun old => ⟨hotkeys, options, old.callback⟩
    else current past id
  | .remove other :: past, id => if id = other then none else current past id
  | .recompute _ :: past, id | .dispatch _ :: past, id => current past id

/-- The ids that were visible when the list was computed last. -/
def shown : List (Change κ) → List HotkeyId
  | [] => []
  | .recompute scopes :: past =>
    (issued past).filter fun id => (current past id).any (·.isVisible scopes)
  | _ :: past => shown past

def currentFirings (past : List (Change κ)) (event : KeyboardEvent) (id : HotkeyId) :
    List (Firing κ) :=
  match current past id with
  | none => []
  | some r => (Hotkey.firing r.hotkeys r.options.policy event).map fun h => ⟨⟨id, h⟩, r.callback⟩

variable {past later before : List (Change κ)} {id : HotkeyId} {registration : Registration κ}

theorem insertions_cons (change : Change κ) (past : List (Change κ)) :
    insertions (change :: past) = insertions past + if change.isInsert then 1 else 0 :=
  List.countP_cons

theorem insertions_le_cons (change : Change κ) (past : List (Change κ)) :
    insertions past ≤ insertions (change :: past) := by
  rw [insertions_cons]
  exact Nat.le_add_right _ _

theorem insertions_append (later before : List (Change κ)) :
    insertions (later ++ before) = insertions later + insertions before :=
  List.countP_append

theorem mem_issued : id ∈ issued past ↔ ∃ n < insertions past, id = ⟨.ofNat n⟩ := by
  simp [issued, eq_comm]

theorem issued_subset (later before : List (Change κ)) :
    ∀ id ∈ issued before, id ∈ issued (later ++ before) := by
  intro id given
  obtain ⟨n, low, rfl⟩ := mem_issued.mp given
  refine mem_issued.mpr ⟨n, ?_, rfl⟩
  rw [insertions_append]
  omega

/-- Ids count up, as long as the counter does not wrap. -/
theorem issued_ascending (few : insertions past ≤ UInt64.size) :
    (issued past).Pairwise fun id later => id.number < later.number := by
  rw [issued, List.pairwise_map]
  refine List.pairwise_lt_range.imp_of_mem fun first second below => ?_
  have := List.mem_range.mp second
  exact (UInt64.ofNat_lt_iff_lt (by omega) (by omega)).mpr below

/-- The id of an insertion was not given before. -/
theorem next_not_issued (few : insertions past < UInt64.size) :
    ⟨.ofNat (insertions past)⟩ ∉ issued past := by
  intro given
  obtain ⟨n, low, same⟩ := mem_issued.mp given
  have below := (UInt64.ofNat_lt_iff_lt (by omega) few).mpr low
  rw [HotkeyId.mk.inj same] at below
  exact UInt64.lt_irrefl _ below

theorem shown_ascending (few : insertions past ≤ UInt64.size) :
    (shown past).Pairwise fun id later => id.number < later.number := by
  induction past with
  | nil => exact List.Pairwise.nil
  | cons change past ih =>
    have fewer := Nat.le_trans (insertions_le_cons change past) few
    cases change with
    | recompute scopes => exact (issued_ascending fewer).filter _
    | _ => exact ih fewer

/-- What the list shows was inserted before it was computed. -/
theorem shown_split (listed : id ∈ shown past) :
    ∃ later scopes before, past = later ++ .recompute scopes :: before ∧ id ∈ issued before := by
  induction past with
  | nil => contradiction
  | cons change past ih =>
    have earlier (listed : id ∈ shown past) : ∃ later scopes before,
        change :: past = later ++ .recompute scopes :: before ∧ id ∈ issued before := by
      obtain ⟨later, scopes, before, rfl, given⟩ := ih listed
      exact ⟨change :: later, scopes, before, rfl, given⟩
    cases change with
    | recompute scopes => exact ⟨[], scopes, past, rfl, (List.mem_filter.mp listed).1⟩
    | _ => exact earlier listed

theorem shown_issued (listed : id ∈ shown past) : id ∈ issued past := by
  obtain ⟨later, scopes, before, rfl, given⟩ := shown_split listed
  rw [List.append_cons]
  exact issued_subset _ before id given

/-- A registration that stands goes back to its insertion, and was not removed since. -/
theorem current_origin (found : current past id = some registration) :
    ∃ later hotkeys options before,
      past = later ++ .insert hotkeys options registration.callback :: before ∧
      id = ⟨.ofNat (insertions before)⟩ ∧ .remove id ∉ later := by
  induction past generalizing registration with
  | nil => contradiction
  | cons change past ih =>
    have earlier (old : Registration κ) (found : current past id = some old)
        (kept : .remove id ≠ change) : ∃ later hotkeys options before,
        change :: past = later ++ .insert hotkeys options old.callback :: before ∧
        id = ⟨.ofNat (insertions before)⟩ ∧ .remove id ∉ later := by
      obtain ⟨later, hotkeys, options, before, rfl, number, left⟩ := ih found
      refine ⟨change :: later, hotkeys, options, before, rfl, number, ?_⟩
      rw [List.mem_cons, not_or]
      exact ⟨kept, left⟩
    cases change with
    | insert hotkeys options callback =>
      rw [current] at found
      split at found
      next new =>
        obtain rfl := Option.some.inj found
        exact ⟨[], hotkeys, options, past, rfl, new, nofun⟩
      next => exact earlier registration found nofun
    | replace other hotkeys options =>
      rw [current] at found
      split at found
      next =>
        obtain ⟨old, held, rfl⟩ := Option.map_eq_some_iff.mp found
        exact earlier old held nofun
      next => exact earlier registration found nofun
    | remove other =>
      rw [current] at found
      split at found
      · contradiction
      next differ => exact earlier registration found fun same => differ (Change.remove.inj same)
    | _ => exact earlier registration found nofun

theorem current_issued (found : current past id = some registration) : id ∈ issued past := by
  obtain ⟨later, hotkeys, options, before, rfl, number, _⟩ := current_origin found
  refine mem_issued.mpr ⟨insertions before, ?_, number⟩
  rw [insertions_append, insertions_cons, Change.isInsert, if_pos rfl]
  omega

/-- Behind its removal an id never stands again, for later insertions get other ids. -/
theorem current_removed (few : insertions (later ++ .remove id :: before) ≤ UInt64.size)
    (given : id ∈ issued before) : current (later ++ .remove id :: before) id = none := by
  induction later with
  | nil => exact if_pos rfl
  | cons change later ih =>
    rw [List.cons_append, insertions_cons] at few
    have left := ih (by omega)
    cases change with
    | insert hotkeys options callback =>
      have fewer : insertions (later ++ .remove id :: before) < UInt64.size := by
        rw [Change.isInsert, if_pos rfl] at few
        exact Nat.lt_of_succ_le few
      have old : id ∈ issued (later ++ .remove id :: before) := by
        rw [List.append_cons]
        exact issued_subset _ before id given
      have differ : id ≠ ⟨.ofNat (insertions (later ++ .remove id :: before))⟩ := by
        intro same
        have new := next_not_issued fewer
        rw [← same] at new
        exact new old
      rw [List.cons_append, current, if_neg differ, left]
    | replace other hotkeys options => simp [current, left]
    | remove other => simp [current, left]
    | recompute scopes => exact left
    | dispatch event => exact left

/-- A registry that holds what its history says, and lists what the history shows. -/
structure Recalls (past : List (Change κ)) (r : Registry κ) : Prop where
  entries : ∀ id, r.entries.find? id = current past id
  nextId : r.nextId = .ofNat (insertions past)
  visible : r.visible = shown past

variable {r : Registry κ}

theorem Recalls.contains_absent (recalls : Recalls past r) (absent : r.contains id = false) :
    current past id = none := by
  rw [← recalls.entries]
  simpa [Registry.contains, Table.contains] using absent

theorem Recalls.insert (recalls : Recalls past r) (hotkeys : List Hotkey) (options : Options)
    (callback : κ) : Recalls (.insert hotkeys options callback :: past)
      (r.insert hotkeys options callback).1 := by
  refine ⟨?_, ?_, recalls.visible⟩
  · intro id
    simp only [Registry.insert, Table.find?_insert, recalls.entries, recalls.nextId, current]
  · simp [Registry.insert, recalls.nextId, insertions_cons, Change.isInsert, UInt64.ofNat_add]

theorem Recalls.replace (recalls : Recalls past r) (id : HotkeyId) (hotkeys : List Hotkey)
    (options : Options) :
    Recalls (.replace id hotkeys options :: past) (r.replace id hotkeys options).1 := by
  rw [Registry.replace]
  split
  next =>
    refine ⟨?_, recalls.nextId, recalls.visible⟩
    intro other
    simp only [Table.find?_modify, recalls.entries, current]
    by_cases same : other = id
    · simp [same]
    · simp [same]
  next absent =>
    refine ⟨?_, recalls.nextId, recalls.visible⟩
    intro other
    rw [recalls.entries, current]
    split
    next same =>
      rw [same, recalls.contains_absent (by simpa using absent)]
      rfl
    next => rfl

theorem Recalls.remove (recalls : Recalls past r) (id : HotkeyId) :
    Recalls (.remove id :: past) (r.remove id).1 := by
  rw [Registry.remove]
  split
  next =>
    refine ⟨?_, recalls.nextId, recalls.visible⟩
    intro other
    simp only [Table.find?_erase, recalls.entries, current]
  next absent =>
    refine ⟨?_, recalls.nextId, recalls.visible⟩
    intro other
    rw [recalls.entries, current]
    split
    next same => rw [same, recalls.contains_absent (by simpa using absent)]
    next => rfl

/-- Computing the list takes the ids from the table, where they ascend as they were given. -/
theorem Recalls.recompute (recalls : Recalls past r) (scopes : ActiveScopes)
    (few : insertions past ≤ UInt64.size) :
    Recalls (.recompute scopes :: past) (r.recompute scopes) := by
  refine ⟨recalls.entries, recalls.nextId, ?_⟩
  have ascending : ((r.recompute scopes).visible).Pairwise fun id later =>
      id.number < later.number := by
    rw [Registry.recompute, List.pairwise_map]
    exact r.entries.ascending.filter _
  have : Std.Irrefl fun id later : HotkeyId => id.number < later.number :=
    ⟨fun id => UInt64.lt_irrefl id.number⟩
  have : Std.Antisymm fun id later : HotkeyId => id.number < later.number :=
    ⟨fun id later below above => absurd above (UInt64.lt_asymm below)⟩
  refine ascending.eq_of_mem_iff ((issued_ascending few).filter _) fun id => ?_
  rw [Registry.recompute, List.mem_map]
  constructor
  · rintro ⟨⟨_, registration⟩, member, rfl⟩
    obtain ⟨held, visible⟩ := List.mem_filter.mp member
    have found := recalls.entries _ ▸ Table.find?_eq_some.mpr held
    exact List.mem_filter.mpr ⟨current_issued found, by simpa [found] using visible⟩
  · intro listed
    obtain ⟨registration, found, visible⟩ :=
      (Option.any_eq_true _ _).mp (List.mem_filter.mp listed).2
    rw [← recalls.entries] at found
    exact ⟨(id, registration), List.mem_filter.mpr ⟨Table.find?_eq_some.mp found, visible⟩, rfl⟩

theorem after_recalls (few : insertions past ≤ UInt64.size) : Recalls past (after past) := by
  induction past with
  | nil => exact ⟨fun _ => rfl, rfl, rfl⟩
  | cons change past ih =>
    have fewer := Nat.le_trans (insertions_le_cons change past) few
    have recalls := ih fewer
    cases change with
    | insert hotkeys options callback => exact recalls.insert hotkeys options callback
    | replace id hotkeys options => exact recalls.replace id hotkeys options
    | remove id => exact recalls.remove id
    | recompute scopes => exact recalls.recompute scopes fewer
    | dispatch event => exact ⟨recalls.entries, recalls.nextId, recalls.visible⟩

theorem Recalls.firings (recalls : Recalls past r) (event : KeyboardEvent) :
    r.firings event = (shown past).flatMap (currentFirings past event) := by
  rw [Registry.firings, recalls.visible]
  congr 1
  funext id
  cases here : current past id <;> simp [firingsOf, currentFirings, recalls.entries, here]

variable {event : KeyboardEvent} {f : Firing κ}

theorem mem_currentFirings : f ∈ currentFirings past event id ↔ ∃ r, current past id = some r ∧
    ∃ h ∈ Hotkey.firing r.hotkeys r.options.policy event, ⟨⟨id, h⟩, r.callback⟩ = f := by
  rw [currentFirings]
  cases current past id <;> simp

theorem currentFirings_id (fired : f ∈ currentFirings past event id) : f.triggered.id = id := by
  obtain ⟨r, _, h, _, rfl⟩ := mem_currentFirings.mp fired
  rfl

theorem currentFirings_hotkeys (found : current past id = some registration) (event : KeyboardEvent) :
    ((currentFirings past event id).map (·.triggered.hotkey)).Sublist registration.hotkeys := by
  have same : (currentFirings past event id).map (·.triggered.hotkey) =
      Hotkey.firing registration.hotkeys registration.options.policy event := by
    simp [currentFirings, found, Function.comp_def]
  rw [same]
  exact List.filter_sublist

theorem mem_walk {ids : List HotkeyId} (fires : f ∈ ids.flatMap (currentFirings past event)) :
    f.triggered.id ∈ ids ∧ ∃ registration, current past f.triggered.id = some registration ∧
      registration.callback = f.callback := by
  obtain ⟨id, listed, fires⟩ := List.mem_flatMap.mp fires
  obtain ⟨registration, found, h, _, rfl⟩ := mem_currentFirings.mp fires
  exact ⟨listed, registration, found, rfl⟩

theorem walk_ascending {ids : List HotkeyId}
    (ascending : ids.Pairwise fun id later => id.number < later.number) (event : KeyboardEvent) :
    ((ids.flatMap (currentFirings past event)).map (·.triggered.id.number)).Pairwise (· ≤ ·) := by
  rw [List.pairwise_map, List.pairwise_flatMap]
  constructor
  · intro id _
    refine List.pairwise_of_forall_mem_list fun f fires g fires' => ?_
    rw [currentFirings_id fires, currentFirings_id fires']
    exact UInt64.le_refl _
  · refine ascending.imp fun below f fires g fires' => ?_
    rw [currentFirings_id fires, currentFirings_id fires']
    exact UInt64.le_of_lt below

/-- In a walk over distinct ids, the firings of one id are those of its only visit. -/
theorem filter_walk {ids : List HotkeyId} (distinct : ids.Nodup) (id : HotkeyId) :
    (ids.flatMap (currentFirings past event)).filter (·.triggered.id = id) =
      if id ∈ ids then currentFirings past event id else [] := by
  induction ids with
  | nil => rfl
  | cons first ids ih =>
    obtain ⟨fresh, distinct⟩ := List.nodup_cons.mp distinct
    rw [List.flatMap_cons, List.filter_append, ih distinct]
    by_cases here : first = id
    · subst here
      rw [if_neg fresh, List.append_nil, if_pos List.mem_cons_self, List.filter_eq_self]
      intro f fired
      simpa using currentFirings_id fired
    · have none : (currentFirings past event first).filter (·.triggered.id = id) = [] := by
        rw [List.filter_eq_nil_iff]
        intro f fired same
        exact here ((currentFirings_id fired).symm.trans (by simpa using same))
      rw [none, List.nil_append]
      simp [Ne.symm here]

/-- What was listed was inserted before the list was computed. -/
theorem recomputed_since (few : insertions past < UInt64.size) {hotkeys : List Hotkey}
    {options : Options} {callback : κ}
    (split : past = later ++ .insert hotkeys options callback :: before)
    (listed : ⟨.ofNat (insertions before)⟩ ∈ shown past) : ∃ scopes, .recompute scopes ∈ later := by
  obtain ⟨newer, scopes, older, cut, given⟩ := shown_split listed
  refine ⟨scopes, ?_⟩
  rw [cut] at split
  rcases List.append_eq_append_iff.mp split with ⟨middle, rfl, behind⟩ | ⟨middle, rfl, behind⟩
  · cases middle with
    | nil => exact absurd (List.cons.inj behind).1 nofun
    | cons change middle =>
      obtain ⟨rfl, _⟩ := List.cons.inj behind
      simp
  -- An insertion behind the computation got an id that was not given before.
  · cases middle with
    | nil => exact absurd (List.cons.inj behind).1 nofun
    | cons change middle =>
      obtain ⟨rfl, rfl⟩ := List.cons.inj behind
      have fewer : insertions (middle ++ .recompute scopes :: older) < UInt64.size := by
        rw [cut, List.append_assoc, insertions_append, List.cons_append, insertions_cons] at few
        omega
      have early := issued_subset (middle ++ [.recompute scopes]) older _ given
      rw [← List.append_cons] at early
      exact absurd early (next_not_issued fewer)

/-- An out-of-date list is harmless. It holds ids that were given, in ascending order; an event
fires the registrations of the list that still stand, by their hotkeys and policy of now, each
hotkey once and with one call of the callback of its own insertion. What was removed never fires
again, and what was inserted does not fire before the list is computed anew. -/
theorem outdated_list_safe (past : List (Change κ)) (few : insertions past < UInt64.size) :
    let r := after past
    r.visible = shown past ∧
    r.visible.Pairwise (fun id later => id.number < later.number) ∧
    (∀ id ∈ r.visible, id ∈ issued past) ∧
    ∀ event,
      let walk := (shown past).flatMap (currentFirings past event)
      (r.dispatch event).fired = walk.map (·.triggered) ∧
      (r.dispatch event).calls = walk.map (fun f => ⟨f.callback, event, f.triggered.hotkey⟩) ∧
      ((r.dispatch event).fired.map (·.id.number)).Pairwise (· ≤ ·) ∧
      (∀ id registration, current past id = some registration →
        (((r.dispatch event).fired.filter (·.id = id)).map (·.hotkey)).Sublist
          registration.hotkeys) ∧
      (∀ f ∈ walk, f.triggered.id ∈ shown past ∧
        ∃ later hotkeys options before,
          past = later ++ .insert hotkeys options f.callback :: before ∧
          f.triggered.id = ⟨.ofNat (insertions before)⟩ ∧ .remove f.triggered.id ∉ later ∧
          ∃ scopes, .recompute scopes ∈ later) ∧
      (∀ later id before, past = later ++ .remove id :: before → id ∈ issued before →
        ∀ t ∈ (r.dispatch event).fired, t.id ≠ id) := by
  intro r
  have bound : insertions past ≤ UInt64.size := Nat.le_of_lt few
  have recalls : Recalls past r := after_recalls bound
  have ascending := shown_ascending bound
  have distinct : (shown past).Nodup := by
    refine ascending.imp fun below => ?_
    rintro rfl
    exact UInt64.lt_irrefl _ below
  refine ⟨recalls.visible, recalls.visible ▸ ascending, ?_, fun event => ?_⟩
  · intro id listed
    rw [recalls.visible] at listed
    exact shown_issued listed
  intro walk
  have fired : (r.dispatch event).fired = walk.map (·.triggered) := by
    rw [dispatch_fired, recalls.firings]
  have calls : (r.dispatch event).calls = walk.map (Firing.call event) := by
    rw [dispatch_calls, recalls.firings]
  refine ⟨fired, calls, ?_, ?_, ?_, ?_⟩
  · rw [fired, List.map_map]
    exact walk_ascending ascending event
  · intro id registration found
    rw [fired, List.filter_map, List.map_map]
    change ((walk.filter (·.triggered.id = id)).map (·.triggered.hotkey)).Sublist _
    rw [filter_walk distinct]
    split
    · exact currentFirings_hotkeys found event
    · exact List.nil_sublist _
  · intro f fires
    obtain ⟨listed, registration, found, own⟩ := mem_walk fires
    obtain ⟨later, hotkeys, options, before, split, number, kept⟩ := current_origin found
    rw [own] at split
    exact ⟨listed, later, hotkeys, options, before, split, number, kept,
      recomputed_since few split (number ▸ listed)⟩
  · rintro later id before rfl given t taken rfl
    rw [fired] at taken
    obtain ⟨f, fires, rfl⟩ := List.mem_map.mp taken
    obtain ⟨_, registration, found, _⟩ := mem_walk fires
    rw [current_removed bound given] at found
    contradiction

/-- Of two visible registrations the first is removed and the second changed; a third one comes
before the list is computed again. -/
def sampleHistory : List (Change Nat) := [
  .insert [Hotkey.compile .other "c" "+" none] {} 9,
  .remove ⟨0⟩,
  .replace ⟨1⟩ [Hotkey.compile .other "c" "+" none] {},
  .recompute (.ofList ["x"]),
  .insert [Hotkey.compile .other "b" "+" none] {} 8,
  .insert [Hotkey.compile .other "c" "+" none] {} 7]

theorem outdated_list_safe_sample :
    insertions sampleHistory < UInt64.size ∧ (after sampleHistory).visible = [⟨0⟩, ⟨1⟩] ∧
    ((after sampleHistory).dispatch (.ofDown "c")).fired.map (·.id) = [⟨1⟩] ∧
    ((after sampleHistory).dispatch (.ofDown "c")).calls.map (·.callback) = [8] ∧
    ⟨0⟩ ∈ issued (sampleHistory.drop 2) ∧
    ∀ t ∈ ((after sampleHistory).dispatch (.ofDown "c")).fired, t.id ≠ ⟨0⟩ := by
  have few : insertions sampleHistory < UInt64.size := by decide
  have given : ⟨0⟩ ∈ issued (sampleHistory.drop 2) := by decide
  obtain ⟨_, _, _, each⟩ := outdated_list_safe sampleHistory few
  obtain ⟨_, _, _, _, _, removed⟩ := each (.ofDown "c")
  exact ⟨few, by decide +kernel, by decide +kernel, by decide +kernel, given,
    removed (sampleHistory.take 1) ⟨0⟩ (sampleHistory.drop 2) rfl given⟩

end Registry

end Keymap
