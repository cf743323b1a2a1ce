import Keymap.Distinct
import Mathlib.Data.List.Basic
import Mathlib.Data.List.Induction

/-! Lists without repetitions. Taking over what is new, element by element, keeps the first
occurrence of every element and nothing else. -/
namespace Keymap

theorem foldl_addDistinct [DecidableEq α] (kept xs : List α) :
    xs.foldl addDistinct kept = kept ++ (xs.filter (· ∉ kept)).eraseDups := by
  induction xs generalizing kept with
  | nil => simp
  | cons x xs ih =>
    rw [List.foldl_cons, ih]
    by_cases held : x ∈ kept
    · simp [addDistinct, held]
    · have behind (y : α) : (y ∉ kept ++ [x]) = (y ≠ x ∧ y ∉ kept) := by simp [and_comm]
      have same : xs.filter (· ∉ kept ++ [x]) = (xs.filter (· ∉ kept)).filter (· ≠ x) := by
        simp only [behind, List.filter_filter, Bool.decide_and]
      simp only [addDistinct, if_neg held, same]
      simp [held, List.eraseDups_cons, Bool.beq_eq_decide_eq]

/-- Keeping what is new from left to right keeps the first occurrence of every element. -/
theorem distinct_eq_eraseDups [DecidableEq α] (xs : List α) : distinct xs = xs.eraseDups := by
  rw [distinct, foldl_addDistinct]
  simp [List.filter_eq_self.mpr]

theorem distinct_append_cons [DecidableEq α] {before : List α} {x : α} (held : x ∈ before)
    (behind : List α) : distinct (before ++ x :: behind) = distinct (before ++ behind) := by
  have known : addDistinct (distinct before) x = distinct before := if_pos (mem_distinct.mpr held)
  unfold distinct at known ⊢
  rw [List.foldl_append, List.foldl_append, List.foldl_cons, known]

theorem distinct_concat [DecidableEq α] (xs : List α) (x : α) :
    distinct (xs ++ [x]) = addDistinct (distinct xs) x := by
  rw [distinct, List.foldl_append]
  rfl

theorem distinct_of_nodup [DecidableEq α] {xs : List α} (unique : xs.Nodup) :
    distinct xs = xs := by
  induction xs using List.reverseRecOn with
  | nil => rfl
  | append_singleton xs x ih =>
    obtain ⟨unique, -, apart⟩ := List.nodup_append.mp unique
    have fresh : x ∉ xs := fun member => apart x member x (List.mem_singleton_self x) rfl
    rw [distinct_concat, ih unique, addDistinct, if_neg fresh]

/-- An element that follows itself counts once. -/
theorem distinct_flatMap [DecidableEq α] {f : α → List α} {xs : List α}
    (same : ∀ x ∈ xs, f x = [x] ∨ f x = [x, x]) : distinct (xs.flatMap f) = distinct xs := by
  rw [distinct, List.foldl_flatMap, distinct]
  apply List.foldl_ext
  intro kept x member
  rcases same x member with single | double
  · rw [single, List.foldl_cons, List.foldl_nil]
  · have again : addDistinct (addDistinct kept x) x = addDistinct kept x :=
      if_pos (mem_addDistinct.mpr (.inr rfl))
    rw [double, List.foldl_cons, List.foldl_cons, List.foldl_nil, again]

/-- Leaving elements out commutes with keeping first occurrences. -/
theorem distinct_filter [DecidableEq α] (p : α → Bool) (xs : List α) :
    (distinct xs).filter p = distinct (xs.filter p) := by
  have general (kept : List α) :
      (xs.foldl addDistinct kept).filter p = (xs.filter p).foldl addDistinct (kept.filter p) := by
    induction xs generalizing kept with
    | nil => rfl
    | cons x xs ih =>
      rw [List.foldl_cons, ih]
      by_cases kind : p x
      · by_cases held : x ∈ kept <;> simp [addDistinct, kind, held]
      · by_cases held : x ∈ kept <;> simp [addDistinct, kind, held]
  exact general []

end Keymap
