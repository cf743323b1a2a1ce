import Keymap.Registry.Table

/-! Looking things up in a table, after a change of it and along its entries. A new highest id goes
to the end. -/
namespace Keymap.Table

variable {α β γ : Type} {id : HotkeyId} {a : α} {table : Table α} {entry : HotkeyId × α}

theorem number_irrefl {other : HotkeyId} (below : id.number < other.number) : other ≠ id := by
  rintro rfl
  exact absurd below (UInt64.lt_irrefl _)

/-- Two entries with the same id are one. -/
theorem eq_of_fst_eq {other : HotkeyId × α} (member : entry ∈ table.toList)
    (second : other ∈ table.toList) (same : entry.1 = other.1) : entry = other := by
  obtain ⟨entries, ascending⟩ := table
  induction entries with
  | nil => exact absurd member List.not_mem_nil
  | cons first rest ih =>
    obtain ⟨above, later⟩ := List.pairwise_cons.mp ascending
    rcases List.mem_cons.mp member with rfl | inside
    · rcases List.mem_cons.mp second with rfl | behind
      · rfl
      · exact absurd same.symm (number_irrefl (above _ behind))
    · rcases List.mem_cons.mp second with rfl | behind
      · exact absurd same (number_irrefl (above _ inside))
      · exact ih later inside behind

theorem find?_eq_some : table.find? id = some a ↔ (id, a) ∈ table.toList := by
  rw [find?, Option.map_eq_some_iff]
  constructor
  · rintro ⟨⟨other, b⟩, found, rfl⟩
    have same : other = id := by simpa using List.find?_some found
    exact same ▸ List.mem_of_find?_eq_some found
  · intro member
    have held : ∃ entry ∈ table.toList, decide (entry.1 = id) = true := ⟨_, member, by simp⟩
    obtain ⟨entry, found⟩ := Option.isSome_iff_exists.mp (List.find?_isSome.mpr held)
    have same : entry.1 = id := by simpa using List.find?_some found
    have one := eq_of_fst_eq (List.mem_of_find?_eq_some found) member same
    exact ⟨entry, found, by rw [one]⟩

theorem contains_iff : table.contains id = true ↔ ∃ a, (id, a) ∈ table.toList := by
  simp only [contains, Option.isSome_iff_exists, find?_eq_some]

theorem insert_above (above : ∀ entry ∈ table.toList, entry.1.number < id.number) :
    (table.insert id a).toList = table.toList ++ [(id, a)] := by
  have all : table.toList.filter (·.1.number < id.number) = table.toList :=
    List.filter_eq_self.mpr fun entry member => by simpa using above entry member
  have none : table.toList.filter (id.number < ·.1.number) = [] :=
    List.filter_eq_nil_iff.mpr fun entry member => by
      simpa using UInt64.le_of_lt (above entry member)
  simp only [insert, all, none]

theorem mem_insert (member : entry ∈ (table.insert id a).toList) :
    entry = (id, a) ∨ entry ∈ table.toList := by
  rcases List.mem_append.mp member with below | new
  · exact .inr (List.mem_filter.mp below).1
  rcases List.mem_cons.mp new with same | above
  · exact .inl same
  · exact .inr (List.mem_filter.mp above).1

theorem mem_modify {f : α → α} (member : entry ∈ (table.modify id f).toList) :
    entry ∈ table.toList ∨ ∃ old, entry = (id, f old) := by
  obtain ⟨old, held, rfl⟩ := List.mem_map.mp member
  split
  next same => exact .inr ⟨old.2, by rw [same]⟩
  next => exact .inl held

/-- Among entries that are kept by their ids, the look-up goes by the id too. -/
theorem find?_filter (keep : HotkeyId → Bool) (entries : List (HotkeyId × α)) (id : HotkeyId) :
    (entries.filter (keep ·.1)).find? (·.1 = id) =
      if keep id then entries.find? (·.1 = id) else none := by
  rw [List.find?_filter]
  split
  next kept =>
    congr 1
    funext entry
    by_cases same : entry.1 = id <;> simp [same, kept]
  next out =>
    rw [List.find?_eq_none]
    intro entry _
    by_cases same : entry.1 = id <;> simp [same, out]

theorem find?_insert (table : Table α) (id : HotkeyId) (a : α) (other : HotkeyId) :
    (table.insert id a).find? other = if other = id then some a else table.find? other := by
  simp only [find?, insert, List.find?_append, List.find?_cons,
    find?_filter (fun key => key.number < id.number), find?_filter (fun key => id.number < key.number)]
  by_cases same : other = id
  · subst same
    simp
  · rw [if_neg same]
    by_cases below : other.number < id.number
    · have notAbove : ¬id.number < other.number := UInt64.not_lt.mpr (UInt64.le_of_lt below)
      simp [below, notAbove, Ne.symm same]
    · have unlike : other.number ≠ id.number := fun equal => same (HotkeyId.ext equal)
      have above : id.number < other.number :=
        UInt64.lt_of_le_of_ne (UInt64.not_lt.mp below) unlike.symm
      simp [below, above, Ne.symm same]

theorem find?_modify (table : Table α) (id : HotkeyId) (f : α → α) (other : HotkeyId) :
    (table.modify id f).find? other =
      if other = id then (table.find? id).map f else table.find? other := by
  have key : (fun entry : HotkeyId × α => decide (entry.1 = other)) ∘
      (fun entry => if entry.1 = id then (entry.1, f entry.2) else entry) =
      fun entry => decide (entry.1 = other) := by
    funext entry
    rw [Function.comp_apply]
    split <;> rfl
  rw [find?, modify, List.find?_map, key, Option.map_map]
  by_cases same : other = id
  · subst same
    rw [if_pos rfl, find?, Option.map_map]
    refine Option.map_congr fun entry found => ?_
    have here : entry.1 = other := by simpa using List.find?_some found
    simp [here]
  · rw [if_neg same]
    refine Option.map_congr fun entry found => ?_
    have here : entry.1 = other := by simpa using List.find?_some found
    simp [here, same]

theorem find?_erase (table : Table α) (id other : HotkeyId) :
    (table.erase id).find? other = if other = id then none else table.find? other := by
  rw [find?, erase, find?_filter (· ≠ id)]
  by_cases same : other = id <;> simp [same, find?]

theorem fst_ne_of_absent (absent : table.contains id = false) (member : entry ∈ table.toList) :
    entry.1 ≠ id := by
  rintro rfl
  rw [contains_iff.mpr ⟨entry.2, member⟩] at absent
  contradiction

/-- A change of an entry that is not there changes nothing, and neither does its removal. -/
theorem modify_absent {f : α → α} (absent : table.contains id = false) :
    table.modify id f = table := by
  apply Table.ext
  rw [modify]
  conv => rhs; rw [← List.map_id table.toList]
  exact List.map_congr_left fun entry member => if_neg (fst_ne_of_absent absent member)

theorem erase_absent (absent : table.contains id = false) : table.erase id = table :=
  Table.ext (List.filter_eq_self.mpr fun entry member => by
    simpa using fst_ne_of_absent absent member)

/-- What is left out anyway can be removed. -/
theorem filter_erase (keep : HotkeyId × α → Bool)
    (out : ∀ a, table.find? id = some a → keep (id, a) = false) :
    (table.erase id).toList.filter keep = table.toList.filter keep := by
  rw [erase, List.filter_filter]
  apply List.filter_congr
  intro entry member
  by_cases same : entry.1 = id
  · subst same
    simp [out entry.2 (find?_eq_some.mpr member)]
  · simp [same]

theorem flatMap_filter (keep : γ → Bool) (view : γ → List β) (xs : List γ) :
    (xs.filter keep).flatMap view = xs.flatMap fun x => if keep x then view x else [] := by
  induction xs with
  | nil => rfl
  | cons x xs ih => by_cases kept : keep x <;> simp [kept, ih]

/-- Looking up the ids of some entries one after the other gives these entries. -/
theorem flatMap_find? (table : Table α) (keep : HotkeyId × α → Bool)
    (view : HotkeyId → α → List β) :
    ((table.toList.filter keep).map Prod.fst).flatMap
        (fun id => ((table.find? id).map (view id)).getD []) =
      table.toList.flatMap fun entry => if keep entry then view entry.1 entry.2 else [] := by
  rw [← flatMap_filter, List.flatMap_map, List.flatMap_def, List.flatMap_def]
  congr 1
  apply List.map_congr_left
  intro entry member
  rw [find?_eq_some.mpr (List.mem_filter.mp member).1]
  rfl

end Keymap.Table
