import Keymap.Proofs.Journal

/-! Registration ids. An id names one registration for ever: ids count up, an id stands from its
registration to the first unregistration that follows, and an operation on an id that does not stand
changes nothing. -/
namespace Keymap

variable {κ : Type} {platform : Platform}

namespace Standing

theorem after_eq_none {s : Standing κ} {op : Operation κ} :
    s.after op = none ↔ op = .unregister s.id := by
  cases op with
  | update id text options =>
    simp only [after]
    split <;> simp
  | unregister id => simp [after]
  | _ => simp [after]

/-- A registration is left over as long as nothing unregisters its id. -/
theorem afterAll_isSome (s : Standing κ) (ops : List (Operation κ)) :
    (s.afterAll ops).isSome ↔ .unregister s.id ∉ ops := by
  induction ops generalizing s with
  | nil => simp [afterAll]
  | cons op ops ih =>
    rw [afterAll, List.mem_cons, not_or]
    cases left : s.after op with
    | none => simp [after_eq_none.mp left]
    | some t =>
      have other : .unregister s.id ≠ op := fun same => by
        simp [after_eq_none.mpr same.symm] at left
      simp [ih t, (after_fixed left).1, other]

end Standing

/-- A registration stands for the operation that made it, as far as the later ones left it. -/
theorem mem_standing {made : Nat} {ops : List (Operation κ)} {s : Standing κ} :
    s ∈ standing made ops ↔ ∃ before text callback options later,
      ops = before ++ .register text callback options :: later ∧
      Standing.afterAll ⟨⟨.ofNat (made + registrations before)⟩, text, options, callback⟩ later =
        some s := by
  induction ops generalizing made with
  | nil => simp [standing]
  | cons op ops ih =>
    have count (before : List (Operation κ)) :
        made + registrations (op :: before) = made + registrations [op] + registrations before := by
      rw [← List.singleton_append, registrations_append, Nat.add_assoc]
    constructor
    · intro member
      have cases : (∃ text callback options, op = .register text callback options ∧
            Standing.afterAll ⟨⟨.ofNat made⟩, text, options, callback⟩ ops = some s) ∨
          s ∈ standing (made + registrations [op]) ops := by
        cases op with
        | register text callback options =>
          rcases List.mem_append.mp member with here | later
          · exact .inl ⟨text, callback, options, rfl, Option.mem_toList.mp here⟩
          · exact .inr later
        | _ => exact .inr member
      rcases cases with ⟨text, callback, options, rfl, left⟩ | stands
      · exact ⟨[], text, callback, options, ops, rfl, left⟩
      · obtain ⟨before, text, callback, options, later, rfl, left⟩ := ih.mp stands
        refine ⟨op :: before, text, callback, options, later, rfl, ?_⟩
        rwa [count]
    · rintro ⟨before, text, callback, options, later, split, left⟩
      cases before with
      | nil =>
        obtain ⟨rfl, rfl⟩ := List.cons.inj split
        exact List.mem_append_left _ (Option.mem_toList.mpr left)
      | cons first before =>
        obtain ⟨rfl, rfl⟩ := List.cons.inj split
        rw [count] at left
        have stands := ih.mpr ⟨before, text, callback, options, later, rfl, left⟩
        cases op with
        | register => exact List.mem_append_right _ stands
        | _ => exact stands

/-- The id that an operation returns, if it is a registration. -/
def Answer.issued? : Answer κ → Option HotkeyId
  | .registered id => some id
  | _ => .none

namespace Keyboard

def issued (k : Keyboard κ) : List (Operation κ) → List HotkeyId
  | [] => []
  | op :: ops => (k.perform op).answer.issued?.toList ++ (k.perform op).state.issued ops

theorem issued_append (k : Keyboard κ) (before later : List (Operation κ)) :
    k.issued (before ++ later) = k.issued before ++ (k.execute before).issued later := by
  induction before generalizing k with
  | nil => rfl
  | cons op before ih => simp only [List.cons_append, issued, execute, ih, List.append_assoc]

/-- Only a registration moves the counter on. -/
theorem perform_nextId (k : Keyboard κ) (op : Operation κ) :
    (k.perform op).state.registry.nextId = k.registry.nextId + .ofNat (registrations [op]) := by
  have same (n : UInt64) : n = n + .ofNat 0 := (UInt64.add_zero n).symm
  cases op with
  | register text callback options => rfl
  | update id text options => exact (update_frame k id text options).2.1.trans (same _)
  | unregister id => exact (unregister_frame k id).2.1.trans (same _)
  | activate scope => exact (changeScopes_frame k ..).2.1.trans (same _)
  | deactivate scope => exact (changeScopes_frame k ..).2.1.trans (same _)
  | toggle scope => exact (changeScopes_frame k ..).2.1.trans (same _)
  | handle event => exact same _
  | clearHeld => exact same _

theorem issued_eq {k : Keyboard κ} (made : Nat) (counter : k.registry.nextId = .ofNat made)
    (ops : List (Operation κ)) :
    k.issued ops = (List.range' made (registrations ops)).map fun n => ⟨.ofNat n⟩ := by
  induction ops generalizing k made with
  | nil => rfl
  | cons op ops ih =>
    have next : (k.perform op).state.registry.nextId = .ofNat (made + registrations [op]) := by
      rw [perform_nextId, counter, UInt64.ofNat_add]
    rw [issued, ih _ next]
    cases op with
    | register text callback options =>
      have first : (k.perform (.register text callback options)).answer.issued?.toList =
          [⟨k.registry.nextId⟩] := rfl
      have one : registrations [.register text callback options] = 1 := rfl
      rw [first, counter, one, registrations_register, List.range'_succ, List.map_cons,
        List.singleton_append]
    | _ => simp [perform, Answer.issued?, registrations, Operation.isRegister]

theorem run_issued (initialScopes : List String) (platform : Platform)
    (ops : List (Operation κ)) :
    (Keyboard.new initialScopes platform).issued ops =
      (List.range (registrations ops)).map fun n => ⟨.ofNat n⟩ := by
  rw [List.range_eq_range', issued_eq 0 rfl]

theorem run_issued_ascending (initialScopes : List String) (platform : Platform)
    {ops : List (Operation κ)} (few : registrations ops ≤ UInt64.size) :
    ((Keyboard.new initialScopes platform).issued ops).Pairwise
      fun id later => id.number < later.number := by
  rw [run_issued, List.pairwise_map]
  refine List.pairwise_lt_range.imp_of_mem fun first second below => ?_
  have := List.mem_range.mp second
  exact (UInt64.ofNat_lt_iff_lt (by omega) (by omega)).mpr below

theorem Mirrors.contains {past : List (Operation κ)} {k : Keyboard κ}
    (mirrors : Mirrors platform past k) (id : HotkeyId) :
    k.registry.contains id ↔ ∃ s ∈ standing 0 past, s.id = id := by
  rw [Registry.contains, Table.contains_iff, mirrors.entries]
  constructor
  · rintro ⟨r, member⟩
    obtain ⟨s, stands, same⟩ := List.mem_map.mp member
    exact ⟨s, stands, congrArg Prod.fst same⟩
  · rintro ⟨s, stands, rfl⟩
    exact ⟨(s.entry platform).2, List.mem_map_of_mem stands⟩

/-- The answer to a registration is what the run issues next. -/
theorem issued_register (k : Keyboard κ) (before : List (Operation κ)) (text : String)
    (callback : κ) (options : Options) :
    k.issued (before ++ [.register text callback options]) =
      k.issued before ++ [((k.execute before).register text callback options).answer] := by
  rw [issued_append]
  rfl

theorem run_answer (initialScopes : List String) (platform : Platform)
    (ops : List (Operation κ)) (text : String) (callback : κ) (options : Options) :
    (((Keyboard.new initialScopes platform).execute ops).register text callback options).answer =
      ⟨.ofNat (registrations ops)⟩ := by
  have issued := issued_register (Keyboard.new initialScopes platform) ops text callback options
  rw [run_issued, run_issued, registrations_append] at issued
  have one : registrations [.register text callback options] = 1 := rfl
  rw [one, List.range_succ, List.map_append] at issued
  exact (List.singleton_inj.mp (List.append_cancel_left issued)).symm

theorem visible_contains {k : Keyboard κ} (fresh : k.IsFresh) {id : HotkeyId}
    (visible : id ∈ k.registry.visible) : k.registry.contains id := by
  rw [fresh, Registry.recompute] at visible
  obtain ⟨entry, kept, rfl⟩ := List.mem_map.mp visible
  exact Table.contains_iff.mpr ⟨entry.2, (List.mem_filter.mp kept).1⟩

theorem dispatch_visible {r : Registry κ} {event : KeyboardEvent} {t : Triggered}
    (fired : t ∈ (r.dispatch event).fired) : t.id ∈ r.visible := by
  rw [r.dispatch_fired] at fired
  obtain ⟨f, member, rfl⟩ := List.mem_map.mp fired
  obtain ⟨id, visible, fires⟩ := List.mem_flatMap.mp member
  rwa [Registry.firingsOf_id fires]

/-- Behind an unregistration of its id no registration stands, and none gets the id again. -/
theorem gone_for_ever (initialScopes : List String) (platform : Platform)
    {before later : List (Operation κ)} {id : HotkeyId}
    (few : registrations (before ++ .unregister id :: later) ≤ UInt64.size)
    (issued : id ∈ (Keyboard.new initialScopes platform).issued before) :
    ¬∃ s ∈ standing 0 (before ++ .unregister id :: later), s.id = id := by
  rintro ⟨s, stands, rfl⟩
  obtain ⟨first, text, callback, options, last, split, left⟩ := mem_standing.mp stands
  have kept : .unregister s.id ∉ last := by
    rw [(Standing.afterAll_fixed left).1]
    exact (Standing.afterAll_isSome _ last).mp (left ▸ rfl)
  have given := (Standing.afterAll_fixed left).1
  rw [Nat.zero_add, ← run_answer initialScopes platform first text callback options] at given
  rcases List.append_eq_append_iff.mp split with ⟨middle, rfl, behind⟩ | ⟨middle, rfl, behind⟩
  -- The registration comes later, where a smaller id cannot be given.
  · rw [split, List.append_cons, registrations_append] at few
    have ascending := run_issued_ascending initialScopes platform (Nat.le_of_add_right_le few)
    rw [issued_register, List.pairwise_append] at ascending
    have below := ascending.2.2 s.id (by rw [issued_append]; exact List.mem_append_left _ issued)
      _ (List.mem_singleton_self _)
    rw [given] at below
    exact UInt64.lt_irrefl _ below
  -- The registration comes earlier, and the unregistration is behind it.
  · cases middle with
    | nil => exact absurd (List.cons.inj behind).1 nofun
    | cons op middle =>
      obtain ⟨rfl, rfl⟩ := List.cons.inj behind
      exact kept (by simp)

/-- No id is ever given to a second registration: ids ascend in the order in which they are
returned, an id stands exactly from its registration to the first unregistration of it that follows,
and once it was taken back it neither stands nor fires again. What is asked of an id that does not
stand is refused, and changes and announces nothing. -/
theorem ids_never_reused (initialScopes : List String) (platform : Platform)
    (ops : List (Operation κ)) (few : registrations ops < UInt64.size) :
    let start : Keyboard κ := Keyboard.new initialScopes platform
    let k := start.execute ops
    (start.issued ops).Pairwise (fun id later => id.number < later.number) ∧
    (∀ id, k.registry.contains id ↔ ∃ before text callback options later,
      ops = before ++ .register text callback options :: later ∧
      ((start.execute before).register text callback options).answer = id ∧
      .unregister id ∉ later) ∧
    (∀ id text options, (k.update id text options).answer = k.registry.contains id ∧
      ((k.update id text options).answer = false →
        (k.update id text options).state = k ∧ (k.update id text options).notices = [])) ∧
    (∀ id, (k.unregister id).answer = k.registry.contains id ∧
      ((k.unregister id).answer = false →
        (k.unregister id).state = k ∧ (k.unregister id).notices = [])) ∧
    (∀ before id later, ops = before ++ .unregister id :: later → id ∈ start.issued before →
      k.registry.contains id = false ∧ id ∉ k.registry.visible ∧
      ∀ event, ∀ t ∈ (k.handle event).answer.fired, t.id ≠ id) := by
  intro start k
  have bound : registrations ops ≤ UInt64.size := Nat.le_of_lt few
  have mirrors := run_mirrors initialScopes platform ops bound
  have fresh : k.IsFresh := run_fresh initialScopes platform ops
  refine ⟨run_issued_ascending initialScopes platform bound, ?_, ?_, ?_, ?_⟩
  · intro id
    rw [mirrors.contains]
    constructor
    · rintro ⟨s, stands, rfl⟩
      obtain ⟨before, text, callback, options, later, split, left⟩ := mem_standing.mp stands
      have given := (Standing.afterAll_fixed left).1
      refine ⟨before, text, callback, options, later, split, ?_, ?_⟩
      · rw [run_answer, given, Nat.zero_add]
      · rw [given]
        exact (Standing.afterAll_isSome _ later).mp (left ▸ rfl)
    · rintro ⟨before, text, callback, options, later, split, rfl, kept⟩
      rw [run_answer] at kept ⊢
      obtain ⟨s, left⟩ := Option.isSome_iff_exists.mp
        ((Standing.afterAll_isSome ⟨_, text, options, callback⟩ later).mpr kept)
      refine ⟨s, mem_standing.mpr ⟨before, text, callback, options, later, split, ?_⟩,
        (Standing.afterAll_fixed left).1⟩
      rwa [Nat.zero_add]
  · intro id text options
    rw [update_answer, update_state, update_notices]
    refine ⟨rfl, fun missing => ?_⟩
    simp [missing]
  · intro id
    rw [unregister_answer, unregister_state, unregister_notices]
    refine ⟨rfl, fun missing => ?_⟩
    simp [missing]
  · rintro before id later rfl issued
    have dead : ¬k.registry.contains id := by
      rw [mirrors.contains]
      exact gone_for_ever initialScopes platform bound issued
    have hidden : id ∉ k.registry.visible := fun visible =>
      dead (visible_contains fresh visible)
    refine ⟨by simpa using dead, hidden, ?_⟩
    rintro event t fired rfl
    exact hidden (dispatch_visible fired)

def sampleRemoval : List (Operation Nat) := [
  .register "a" 7 {}, .register "b" 8 {}, .unregister ⟨0⟩, .register "a" 9 {}]

theorem ids_never_reused_sample :
    let start : Keyboard Nat := Keyboard.new [] .other
    let k := start.execute sampleRemoval
    registrations sampleRemoval < UInt64.size ∧
    start.issued sampleRemoval = [⟨0⟩, ⟨1⟩, ⟨2⟩] ∧
    (start.issued sampleRemoval).Pairwise (fun id later => id.number < later.number) ∧
    ⟨0⟩ ∈ start.issued (sampleRemoval.take 2) ∧ k.registry.contains ⟨0⟩ = false ∧
    (k.update ⟨0⟩ "b" {}).answer = false ∧ (k.update ⟨0⟩ "b" {}).state = k ∧
    (k.handle (.ofDown "a")).answer.fired.map (·.id) = [⟨2⟩] := by
  intro start k
  have few : registrations sampleRemoval < UInt64.size := by decide
  have issued : ⟨0⟩ ∈ start.issued (sampleRemoval.take 2) := by decide
  obtain ⟨ascending, _, updates, _, gone⟩ := ids_never_reused [] .other sampleRemoval few
  obtain ⟨dead, _, _⟩ := gone (sampleRemoval.take 2) ⟨0⟩ (sampleRemoval.drop 3) rfl issued
  have refused : (k.update ⟨0⟩ "b" {}).answer = false := (updates ⟨0⟩ "b" {}).1.trans dead
  obtain ⟨same, _⟩ := (updates ⟨0⟩ "b" {}).2 refused
  exact ⟨few, by decide, ascending, issued, dead, refused, same, by rfl⟩

end Keyboard

end Keymap
