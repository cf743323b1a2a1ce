/-! Lists that keep the first occurrence of every element, in order. -/
namespace Keymap

/-- Appends an element that the list does not hold yet. -/
def addDistinct [DecidableEq α] (xs : List α) (x : α) : List α :=
  if x ∈ xs then xs else xs ++ [x]

def distinct [DecidableEq α] (xs : List α) : List α := xs.foldl addDistinct []

theorem mem_addDistinct [DecidableEq α] {xs : List α} {x y : α} :
    y ∈ addDistinct xs x ↔ y ∈ xs ∨ y = x := by
  unfold addDistinct
  split
  next held =>
    constructor
    · exact Or.inl
    · rintro (member | rfl)
      · exact member
      · exact held
  next => simp

theorem mem_distinct [DecidableEq α] {xs : List α} {x : α} : x ∈ distinct xs ↔ x ∈ xs := by
  have general (kept : List α) : x ∈ xs.foldl addDistinct kept ↔ x ∈ kept ∨ x ∈ xs := by
    induction xs generalizing kept with
    | nil => simp
    | cons y ys ih =>
      rw [List.foldl_cons, ih, mem_addDistinct, List.mem_cons, or_assoc]
  simpa [distinct] using general []

theorem distinct_eq_nil [DecidableEq α] {xs : List α} : distinct xs = [] ↔ xs = [] := by
  simp only [List.eq_nil_iff_forall_not_mem, mem_distinct]

theorem addDistinct_nodup [DecidableEq α] {xs : List α} (unique : xs.Nodup) (x : α) :
    (addDistinct xs x).Nodup := by
  unfold addDistinct
  split
  next held => exact unique
  next fresh =>
    rw [List.nodup_append]
    refine ⟨unique, by simp, ?_⟩
    rintro y member z single rfl
    rw [List.mem_singleton.mp single] at member
    exact fresh member

theorem distinct_nodup [DecidableEq α] (xs : List α) : (distinct xs).Nodup := by
  have general (kept : List α) (unique : kept.Nodup) : (xs.foldl addDistinct kept).Nodup := by
    induction xs generalizing kept with
    | nil => exact unique
    | cons x xs ih => exact ih _ (addDistinct_nodup unique x)
  exact general [] List.nodup_nil

end Keymap
