/-! A table keyed by registration ids, kept in ascending order of the ids. -/
namespace Keymap

/-- The identity of one registration. -/
@[ext] structure HotkeyId where
  number : UInt64
  deriving DecidableEq, Repr

namespace HotkeyId

def display (id : HotkeyId) : String := "#" ++ Nat.repr id.number.toNat

end HotkeyId

@[ext] structure Table (α : Type) where
  toList : List (HotkeyId × α)
  ascending : toList.Pairwise fun entry later => entry.1.number < later.1.number

namespace Table

variable {α : Type}

def empty : Table α := ⟨[], .nil⟩

def find? (table : Table α) (id : HotkeyId) : Option α :=
  (table.toList.find? (·.1 = id)).map Prod.snd

def contains (table : Table α) (id : HotkeyId) : Bool := (table.find? id).isSome

/-- Takes the place of an entry with the same id. -/
def insert (table : Table α) (id : HotkeyId) (a : α) : Table α where
  toList :=
    table.toList.filter (·.1.number < id.number) ++
      (id, a) :: table.toList.filter (id.number < ·.1.number)
  ascending := by
    refine List.pairwise_append.mpr ⟨table.ascending.filter _,
      List.pairwise_cons.mpr ⟨fun later above => ?_, table.ascending.filter _⟩,
      fun entry below later above => ?_⟩
    · simpa using (List.mem_filter.mp above).2
    · have lower : entry.1.number < id.number := by simpa using (List.mem_filter.mp below).2
      rcases List.mem_cons.mp above with rfl | above
      · exact lower
      · exact UInt64.lt_trans lower (by simpa using (List.mem_filter.mp above).2)

def modify (table : Table α) (id : HotkeyId) (f : α → α) : Table α where
  toList := table.toList.map fun entry => if entry.1 = id then (entry.1, f entry.2) else entry
  ascending := by
    have keys (entry : HotkeyId × α) :
        (if entry.1 = id then (entry.1, f entry.2) else entry).1 = entry.1 := by split <;> rfl
    simpa only [List.pairwise_map, keys] using table.ascending

@[simp] theorem modify_toList (table : Table α) (id : HotkeyId) (f : α → α) :
    (table.modify id f).toList =
      table.toList.map fun entry => if entry.1 = id then (entry.1, f entry.2) else entry := rfl

def erase (table : Table α) (id : HotkeyId) : Table α where
  toList := table.toList.filter (·.1 ≠ id)
  ascending := table.ascending.filter _

@[simp] theorem erase_toList (table : Table α) (id : HotkeyId) :
    (table.erase id).toList = table.toList.filter (·.1 ≠ id) := rfl

end Table

end Keymap
