import Keymap.Proofs.Visible

/-! What an id stands for. After every run, also after one that has used up all ids, the registry
holds under an id what the operations on this id have left, compiled. -/
namespace Keymap.Keyboard

variable {κ : Type} {platform : Platform}

def made? (k : Keyboard κ) : Operation κ → Option (Standing κ)
  | .register text callback options =>
    some ⟨(k.register text callback options).answer, text, options, callback⟩
  | _ => none

/-- The registration that an id stands for after one more operation: a new one under this id, or
what is left of the one before. -/
def standsAfter (k : Keyboard κ) (id : HotkeyId) (known : Option (Standing κ))
    (op : Operation κ) : Option (Standing κ) :=
  ((k.made? op).filter (·.id = id)).or (known.bind (·.after op))

def standsFor (k : Keyboard κ) (id : HotkeyId) (known : Option (Standing κ)) :
    List (Operation κ) → Option (Standing κ)
  | [] => known
  | op :: ops => (k.perform op).state.standsFor id (k.standsAfter id known op) ops

structure Records (system : Platform) (id : HotkeyId) (known : Option (Standing κ))
    (k : Keyboard κ) : Prop where
  platform : k.platform = system
  own : ∀ s ∈ known, s.id = id
  entry : k.registry.entries.find? id = known.map fun s => (s.entry system).2

variable {k t : Keyboard κ} {id : HotkeyId} {known : Option (Standing κ)}

theorem standsAfter_own (own : ∀ s ∈ known, s.id = id) (op : Operation κ) :
    ∀ s ∈ k.standsAfter id known op, s.id = id := by
  intro s left
  rcases Option.or_eq_some_iff.mp left with made | ⟨-, kept⟩
  · simpa using (Option.filter_eq_some_iff.mp made).2
  · obtain ⟨before, held, after⟩ := Option.bind_eq_some_iff.mp kept
    exact (Standing.after_fixed after).1.trans (own before held)

/-- What changes scopes or held keys leaves the registrations alone. -/
theorem Records.keep (records : Records platform id known k) {op : Operation κ}
    (keeps : ∀ s : Standing κ, s.after op = some s) (none : k.made? op = none)
    (frame : t.registry.entries = k.registry.entries ∧ t.registry.nextId = k.registry.nextId ∧
      t.platform = k.platform) : Records platform id (k.standsAfter id known op) t := by
  have same : k.standsAfter id known op = known := by
    simp [standsAfter, none, keeps]
  rw [same]
  exact ⟨frame.2.2.trans records.platform, records.own, frame.1 ▸ records.entry⟩

theorem Records.register (records : Records platform id known k) (text : String) (callback : κ)
    (options : Options) :
    Records platform id (k.standsAfter id known (.register text callback options))
      (k.register text callback options).state := by
  have inserted : (k.register text callback options).state.registry.entries =
      k.registry.entries.insert ⟨k.registry.nextId⟩
        ⟨options.compile k.platform text, options, callback⟩ := rfl
  have answer : (k.register text callback options).answer = ⟨k.registry.nextId⟩ := rfl
  refine ⟨records.platform, standsAfter_own records.own _, ?_⟩
  rw [inserted, Table.find?_insert, records.entry, standsAfter, made?, answer, records.platform]
  -- Once the counter has wrapped the id may be one that stands, and the new registration replaces it.
  by_cases same : id = ⟨k.registry.nextId⟩
  · simp [same, Option.filter_some, Standing.entry, Standing.hotkeys]
  · cases known <;> simp [same, Ne.symm same, Option.filter_some, Standing.after]

theorem Records.update (records : Records platform id known k) (other : HotkeyId) (text : String)
    (options : Options) :
    Records platform id (k.standsAfter id known (.update other text options))
      (k.update other text options).state := by
  obtain ⟨entries, -, kept⟩ := update_frame k other text options
  have none : k.made? (.update other text options) = none := rfl
  refine ⟨kept.trans records.platform, standsAfter_own records.own _, ?_⟩
  rw [entries, Table.find?_modify, standsAfter, none, records.platform]
  by_cases same : id = other
  · subst same
    rw [if_pos rfl, records.entry]
    cases known with
    | none => rfl
    | some s => simp [records.own s rfl, Standing.after, Standing.entry, Standing.hotkeys]
  · rw [if_neg same, records.entry]
    cases known with
    | none => rfl
    | some s => simp [records.own s rfl, Ne.symm same, Standing.after]

theorem Records.unregister (records : Records platform id known k) (other : HotkeyId) :
    Records platform id (k.standsAfter id known (.unregister other))
      (k.unregister other).state := by
  obtain ⟨entries, -, kept⟩ := unregister_frame k other
  have none : k.made? (.unregister other) = none := rfl
  refine ⟨kept.trans records.platform, standsAfter_own records.own _, ?_⟩
  rw [entries, Table.find?_erase, records.entry, standsAfter, none]
  cases known with
  | none => simp
  | some s =>
    have own := records.own s rfl
    by_cases same : id = other
    · simp [same, own, Standing.after]
    · simp [same, own, Ne.symm same, Standing.after]

theorem perform_records (records : Records platform id known k) (op : Operation κ) :
    Records platform id (k.standsAfter id known op) (k.perform op).state := by
  cases op with
  | register text callback options => exact records.register text callback options
  | update other text options => exact records.update other text options
  | unregister other => exact records.unregister other
  | activate scope => exact records.keep (fun _ => rfl) rfl (changeScopes_frame ..)
  | deactivate scope => exact records.keep (fun _ => rfl) rfl (changeScopes_frame ..)
  | toggle scope => exact records.keep (fun _ => rfl) rfl (changeScopes_frame ..)
  | handle event => exact records.keep (fun _ => rfl) rfl ⟨rfl, rfl, rfl⟩
  | clearHeld => exact records.keep (fun _ => rfl) rfl ⟨rfl, rfl, rfl⟩

theorem execute_records (records : Records platform id known k) (ops : List (Operation κ)) :
    Records platform id (k.standsFor id known ops) (k.execute ops) := by
  induction ops generalizing k known with
  | nil => exact records
  | cons op ops ih => exact ih (perform_records records op)

theorem run_records (initialScopes : List String) (platform : Platform) (id : HotkeyId)
    (ops : List (Operation κ)) :
    Records platform id ((Keyboard.new initialScopes platform).standsFor id none ops)
      ((Keyboard.new initialScopes platform).execute ops) := by
  have start : Records platform id none (Keyboard.new initialScopes platform : Keyboard κ) :=
    ⟨rfl, fun s none => absurd none (Option.not_mem_none s), rfl⟩
  exact execute_records start ops

end Keymap.Keyboard
