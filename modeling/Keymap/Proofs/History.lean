import Keymap.Keyboard

/-! Runs of a keyboard, and what a run says about registrations without any keyboard: which of them
still stand, and what the latest operation on each of them asked for. -/
namespace Keymap

inductive Operation (κ : Type) where
  | register (text : String) (callback : κ) (options : Options)
  | update (id : HotkeyId) (text : String) (options : Options)
  | unregister (id : HotkeyId)
  | activate (scope : String)
  | deactivate (scope : String)
  | toggle (scope : String)
  | handle (event : KeyboardEvent)
  | clearHeld

inductive Answer (κ : Type) where
  | none
  | registered (id : HotkeyId)
  /-- Whether there was such a registration. -/
  | changed (found : Bool)
  | fired (dispatch : Dispatch κ)

variable {κ : Type}

namespace Keyboard

def perform (k : Keyboard κ) : Operation κ → Outcome κ (Answer κ)
  | .register text callback options =>
    let o := k.register text callback options
    ⟨o.state, o.notices, .registered o.answer⟩
  | .update id text options =>
    let o := k.update id text options
    ⟨o.state, o.notices, .changed o.answer⟩
  | .unregister id =>
    let o := k.unregister id
    ⟨o.state, o.notices, .changed o.answer⟩
  | .activate scope => ⟨(k.activate scope).state, (k.activate scope).notices, .none⟩
  | .deactivate scope => ⟨(k.deactivate scope).state, (k.deactivate scope).notices, .none⟩
  | .toggle scope => ⟨(k.toggle scope).state, (k.toggle scope).notices, .none⟩
  | .handle event =>
    let o := k.handle event
    ⟨o.state, o.notices, .fired o.answer⟩
  | .clearHeld => ⟨k.clearHeld, [], .none⟩

def execute (k : Keyboard κ) : List (Operation κ) → Keyboard κ
  | [] => k
  | op :: ops => execute (k.perform op).state ops

theorem execute_append (k : Keyboard κ) (before later : List (Operation κ)) :
    k.execute (before ++ later) = (k.execute before).execute later := by
  induction before generalizing k with
  | nil => rfl
  | cons op before ih => exact ih _

end Keyboard

def Operation.isRegister : Operation κ → Bool
  | .register .. => true
  | _ => false

def registrations (ops : List (Operation κ)) : Nat := ops.countP Operation.isRegister

@[simp] theorem registrations_register (text : String) (callback : κ) (options : Options)
    (ops : List (Operation κ)) :
    registrations (.register text callback options :: ops) = registrations ops + 1 := by
  simp [registrations, List.countP_cons, Operation.isRegister]

theorem registrations_append (before after : List (Operation κ)) :
    registrations (before ++ after) = registrations before + registrations after :=
  List.countP_append

/-- A registration as the operations so far have left it. -/
structure Standing (κ : Type) where
  id : HotkeyId
  text : String
  options : Options
  callback : κ

namespace Standing

def after (s : Standing κ) : Operation κ → Option (Standing κ)
  | .update id text options =>
    if id = s.id then some { s with text := text, options := options } else some s
  | .unregister id => if id = s.id then none else some s
  | _ => some s

def afterAll (s : Standing κ) : List (Operation κ) → Option (Standing κ)
  | [] => some s
  | op :: ops => (s.after op).bind (·.afterAll ops)

theorem afterAll_single (s : Standing κ) (op : Operation κ) : s.afterAll [op] = s.after op := by
  simp [afterAll]

theorem afterAll_append (s : Standing κ) (before later : List (Operation κ)) :
    s.afterAll (before ++ later) = (s.afterAll before).bind (·.afterAll later) := by
  induction before generalizing s with
  | nil => rfl
  | cons op before ih =>
    simp only [List.cons_append, afterAll]
    cases s.after op with
    | none => rfl
    | some t => exact ih t

/-- No operation gives a registration another id or callback. -/
theorem after_fixed {s t : Standing κ} {op : Operation κ} (left : s.after op = some t) :
    t.id = s.id ∧ t.callback = s.callback := by
  cases op with
  | update id text options =>
    simp only [after] at left
    split at left <;> (obtain rfl := Option.some.inj left; exact ⟨rfl, rfl⟩)
  | unregister id =>
    simp only [after] at left
    split at left
    · contradiction
    · obtain rfl := Option.some.inj left
      exact ⟨rfl, rfl⟩
  | _ =>
    obtain rfl := Option.some.inj left
    exact ⟨rfl, rfl⟩

theorem afterAll_fixed {s t : Standing κ} {ops : List (Operation κ)}
    (left : s.afterAll ops = some t) : t.id = s.id ∧ t.callback = s.callback := by
  induction ops generalizing s with
  | nil =>
    obtain rfl := Option.some.inj left
    exact ⟨rfl, rfl⟩
  | cons op ops ih =>
    obtain ⟨middle, first, rest⟩ := Option.bind_eq_some_iff.mp left
    have early := after_fixed first
    have late := ih rest
    exact ⟨late.1.trans early.1, late.2.trans early.2⟩

end Standing

/-- The registrations that were made and not removed, in the order in which they were made. The
first one of the operations gets the number `made`. -/
def standing (made : Nat) : List (Operation κ) → List (Standing κ)
  | [] => []
  | .register text callback options :: ops =>
    (Standing.afterAll ⟨⟨.ofNat made⟩, text, options, callback⟩ ops).toList ++
      standing (made + 1) ops
  | _ :: ops => standing made ops

/-- Later operations change every registration by itself, and may make new ones. -/
theorem standing_append (made : Nat) (ops later : List (Operation κ)) :
    standing made (ops ++ later) =
      (standing made ops).filterMap (·.afterAll later) ++
        standing (made + registrations ops) later := by
  induction ops generalizing made with
  | nil => simp [standing, registrations]
  | cons first ops ih =>
    cases first with
    | register text callback options =>
      have count : made + registrations (.register text callback options :: ops) =
          made + 1 + registrations ops := by
        rw [registrations_register]
        omega
      simp only [List.cons_append, standing, ih, Standing.afterAll_append, List.filterMap_append,
        count, List.append_assoc]
      congr 1
      cases Standing.afterAll ⟨⟨.ofNat made⟩, text, options, callback⟩ ops with
      | none => rfl
      | some s => cases left : s.afterAll later <;> simp [left]
    | _ => simpa [standing, registrations, Operation.isRegister] using ih made

theorem standing_snoc (made : Nat) (ops : List (Operation κ)) (op : Operation κ) :
    standing made (ops ++ [op]) =
      (standing made ops).filterMap (·.after op) ++ standing (made + registrations ops) [op] := by
  simp only [standing_append, Standing.afterAll_single]

/-- The ids of registrations count up from the first one. -/
theorem standing_id {made : Nat} {ops : List (Operation κ)} {s : Standing κ}
    (member : s ∈ standing made ops) :
    ∃ n, made ≤ n ∧ n < made + registrations ops ∧ s.id = ⟨.ofNat n⟩ := by
  induction ops generalizing made with
  | nil => simp [standing] at member
  | cons op ops ih =>
    cases op with
    | register text callback options =>
      have count := registrations_register text callback options ops
      rcases List.mem_append.mp member with here | later
      · refine ⟨made, Nat.le_refl _, by omega, ?_⟩
        exact (Standing.afterAll_fixed (Option.mem_toList.mp here)).1
      · obtain ⟨n, low, high, eq⟩ := ih later
        exact ⟨n, by omega, by omega, eq⟩
    | _ =>
      obtain ⟨n, low, high, eq⟩ := ih member
      exact ⟨n, low, by simpa [registrations, Operation.isRegister] using high, eq⟩

end Keymap
