import Keymap.Json.Tagged
import Mathlib.Data.List.DropRight

/-! Taking up the parts of a list or an object as they come, or reading all of them as values and
taking those up at the end: both succeed on the same texts and leave the same rest, although they do
not fail at the same place. -/
namespace Keymap.Json

variable {σ τ α β ε : Type}

section Results

@[simp]
theorem toOption_ok (a : α) : (Except.ok a : Except ε α).toOption = some a := rfl

@[simp]
theorem toOption_error (e : ε) : (Except.error e : Except ε α).toOption = none := rfl

@[simp]
theorem toOption_map (x : Except ε α) (f : α → β) : (x.map f).toOption = x.toOption.map f := by
  cases x <;> rfl

theorem toOption_eq_some {x : Except ε α} {a : α} : x.toOption = some a ↔ x = .ok a := by
  cases x <;> simp

theorem exists_of_map {x : Except ε α} {f : α → β} {b : β} (made : x.map f = .ok b) :
    ∃ a, x = .ok a ∧ f a = b := by
  cases x with
  | error e => contradiction
  | ok a => exact ⟨a, rfl, Except.ok.inj made⟩

theorem toOption_match (x : Except Failure (σ × List Char))
    (more : σ → List Char → Except Failure α) :
    (match x with
      | .error e => .error e
      | .ok (s, rest) => more s rest : Except Failure α).toOption =
      x.toOption.bind fun result => (more result.1 result.2).toOption := by
  rcases x with e | ⟨s, rest⟩ <;> rfl

end Results

/-- One scan makes of the view of a state what is the view of what the other one makes of the
state. Where there is no view there is nothing to go on from. -/
def Keeps (view : τ → Option σ) (t : τ) (one : σ → Except Failure (σ × List Char))
    (two : Except Failure (τ × List Char)) : Prop :=
  ((view t).bind fun s => (one s).toOption) =
    two.toOption.bind fun result => (view result.1).map (·, result.2)

section Folds

variable {view : τ → Option σ}

theorem keeps_error {t : τ} {e e' : Failure} : Keeps view t (fun _ => .error e) (.error e') := by
  simp [Keeps]

theorem keeps_ok {t : τ} {rest : List Char} :
    Keeps view t (fun s => .ok (s, rest)) (.ok (t, rest)) := by
  rw [Keeps, toOption_ok, Option.bind_some, Option.map_eq_bind]
  rfl

/-- What keeps the view can be followed by what keeps it. -/
theorem Keeps.follow {t : τ} {one : σ → Except Failure (σ × List Char)}
    {two : Except Failure (τ × List Char)} {more : σ → Scan σ} {most : τ → Scan τ} :
    Keeps view t one two →
    (∀ t rest, two = .ok (t, rest) → Keeps view t (more · rest) (most t rest)) →
    Keeps view t
      (fun s => match one s with
        | .error e => .error e
        | .ok (s, rest) => more s rest)
      (match two with
        | .error e => .error e
        | .ok (t, rest) => most t rest) := by
  intro first later
  unfold Keeps at first later ⊢
  simp only [toOption_match]
  rw [← Option.bind_assoc, first]
  rcases read : two with e | ⟨t', rest⟩
  · rfl
  · exact Option.bind_map.trans (later t' rest read)

theorem foldItems_keeps {one : σ → Scan σ} {two : τ → Scan τ}
    (step : ∀ t cs, Keeps view t (one · cs) (two t cs)) (bound : Nat) (first : Bool) (t : τ)
    (cs : List Char) :
    Keeps view t (foldItems one bound first · cs) (foldItems two bound first t cs) := by
  induction bound generalizing first t cs with
  | zero => exact keeps_error
  | succ bound ih =>
    simp only [foldItems]
    rcases nextItem first cs with e | ⟨_ | _, rest⟩
    · exact keeps_error
    · exact keeps_ok
    · exact (step t rest).follow fun t rest _ => ih false t rest

/-- Members are told apart by what stands in front of them: a step is asked for where the text is
the one that the reading of values comes to. -/
theorem foldMembers_keeps {one : σ → String → Scan σ} {two : τ → String → Scan τ}
    {along : Bool → List Char → Prop}
    (step : ∀ first cs name rest behind, along first cs → nextMember first cs = .ok (true, rest) →
      literal rest = .ok (name, behind) → ∀ t,
        Keeps view t (one · name behind) (two t name behind) ∧
          ∀ t' after, two t name behind = .ok (t', after) → along false after)
    (bound : Nat) (first : Bool) (t : τ) (cs : List Char) (here : along first cs) :
    Keeps view t (foldMembers one bound first · cs) (foldMembers two bound first t cs) := by
  induction bound generalizing first t cs with
  | zero => exact keeps_error
  | succ bound ih =>
    simp only [foldMembers]
    rcases next : nextMember first cs with e | ⟨_ | _, rest⟩
    · exact keeps_error
    · exact keeps_ok
    · dsimp only
      rcases named : literal rest with e | ⟨name, behind⟩
      · exact keeps_error
      · obtain ⟨keeps, further⟩ := step first cs name rest behind here next named t
        exact keeps.follow fun t' after read => ih false t' after (further t' after read)

theorem members_keeps {one : σ → String → Scan σ} {two : τ → String → Scan τ}
    (along : Bool → List Char → Prop) {s : σ} {t : τ} {cs : List Char}
    (step : ∀ first cs name rest behind, along first cs → nextMember first cs = .ok (true, rest) →
      literal rest = .ok (name, behind) → ∀ t,
        Keeps view t (one · name behind) (two t name behind) ∧
          ∀ t' after, two t name behind = .ok (t', after) → along false after)
    (seen : view t = some s) (here : along true cs) : (members one s cs).toOption =
      (members two t cs).toOption.bind fun result => (view result.1).map (·, result.2) := by
  have keeps := foldMembers_keeps step (cs.length + 1) true t cs here
  rw [Keeps, seen] at keeps
  exact keeps

end Folds

section Heads

variable {cs rest : List Char} {depth : Nat}

theorem dropSpace_dropSpace (cs : List Char) : dropSpace (dropSpace cs) = dropSpace cs :=
  List.dropWhile_idempotent _ _

theorem scalar_dropSpace (cs : List Char) : scalar (dropSpace cs) = scalar cs := by
  rw [scalar, dropSpace_dropSpace, scalar]

theorem value_dropSpace (depth : Nat) (cs : List Char) :
    value depth (dropSpace cs) = value depth cs := by
  cases depth <;> rw [value, dropSpace_dropSpace, value]

/-- What begins with no bracket is a scalar. -/
theorem value_eq_scalar (list : ∀ rest, dropSpace cs ≠ '[' :: rest)
    (object : ∀ rest, dropSpace cs ≠ '\x7b' :: rest) : value depth cs = scalar cs := by
  cases depth <;> unfold value <;> split
  all_goals
    first
    | next starts => exact absurd starts (list _)
    | next starts => exact absurd starts (object _)
    | exact scalar_dropSpace cs

def Value.starts : Value → Char → Prop
  | .null, c => c = 'n'
  | .flag b, c => c = if b then 't' else 'f'
  | .number _, c => c = '-' ∨ c.isDigit = true
  | .text _, c => c = '"'
  | .list _, c => c = '['
  | .object _, c => c = '\x7b'

namespace Value

variable {v : Value}

theorem starts_list : v.starts '[' ↔ ∃ vs, v = .list vs := by
  cases v with
  | flag b => cases b <;> simp [starts]
  | _ => simp [starts]

theorem starts_object : v.starts '\x7b' ↔ ∃ ms, v = .object ms := by
  cases v with
  | flag b => cases b <;> simp [starts]
  | _ => simp [starts]

end Value

theorem scalar_starts {c : Char} {result : Value × List Char} (front : dropSpace cs = c :: rest)
    (read : scalar cs = .ok result) : result.1.starts c := by
  unfold scalar at read
  rw [front] at read
  split at read
  case h_1 same => contradiction
  case h_7 same =>
    obtain ⟨rfl, rfl⟩ := List.cons.inj same
    split at read
    next digit =>
      obtain ⟨n, -, rfl⟩ := exists_of_map read
      exact .inr digit
    next => contradiction
  all_goals
    next same =>
      obtain ⟨rfl, rfl⟩ := List.cons.inj same
      obtain ⟨_, -, rfl⟩ := exists_of_map read
      simp [Value.starts]

/-- The kind of a value shows in its first character. -/
theorem value_starts {c : Char} {result : Value × List Char} (front : dropSpace cs = c :: rest)
    (read : value depth cs = .ok result) : result.1.starts c := by
  by_cases list : c = '['
  · subst list
    cases depth with
    | zero => simp [value, front, failUpto] at read
    | succ depth =>
      simp only [value, front] at read
      obtain ⟨vs, -, rfl⟩ := exists_of_map read
      rfl
  by_cases object : c = '\x7b'
  · subst object
    cases depth with
    | zero => simp [value, front, failUpto] at read
    | succ depth =>
      simp only [value, front] at read
      obtain ⟨ms, -, rfl⟩ := exists_of_map read
      rfl
  · rw [value_eq_scalar (by simp [front, list]) (by simp [front, object])] at read
    exact scalar_starts front read

theorem value_front {result : Value × List Char} (read : value depth cs = .ok result) :
    ∃ c rest, dropSpace cs = c :: rest ∧ result.1.starts c := by
  cases front : dropSpace cs with
  | nil =>
    rw [value_eq_scalar (by simp [front]) (by simp [front]), scalar, front] at read
    contradiction
  | cons c rest => exact ⟨c, rest, rfl, value_starts front read⟩

theorem value_quote (front : dropSpace cs = '"' :: rest) :
    value depth cs = (literal rest).map fun (s, rest) => (.text s, rest) := by
  rw [value_eq_scalar (by simp [front]) (by simp [front]), scalar, front]
  rfl

theorem Value.front_of_object {text : String} {ms : List (String × Value)}
    (read : ofText? text = .ok (.object ms)) :
    ∃ rest, dropSpace text.toList = '\x7b' :: rest := by
  rw [ofText?] at read
  split at read
  · contradiction
  · next v after found =>
    obtain ⟨_, -, rfl⟩ := exists_of_map read
    obtain ⟨c, rest, front, rfl⟩ := value_front found
    exact ⟨rest, front⟩

end Heads

theorem decodeWith_toOption (read : Nat → Scan α) (text : String) :
    (decodeWith read text).toOption = (read nestingLimit text.toList).toOption.bind
      fun result => (endOfText result.2).toOption.map fun _ => result.1 := by
  rw [decodeWith]
  rcases read nestingLimit text.toList with e | ⟨a, rest⟩
  · rfl
  · exact toOption_map _ _

theorem ofText?_eq_decodeWith (text : String) : Value.ofText? text = decodeWith value text := by
  rw [Value.ofText?, decodeWith]
  rcases value nestingLimit text.toList with e | ⟨v, rest⟩ <;> rfl

namespace Decoder

/-- A decoder makes of a text what it makes of the value that is read there. -/
def Agrees (d : Decoder α) (depth : Nat) (cs : List Char) : Prop :=
  (d.read depth cs).toOption =
    (value depth cs).toOption.bind fun result => (d.fit result.1).toOption.map (·, result.2)

variable {d : Decoder α} {depth : Nat} {cs : List Char}

theorem Agrees.map (agrees : d.Agrees depth cs) (f : α → β) : (d.map f).Agrees depth cs := by
  unfold Agrees at agrees ⊢
  simp only [Decoder.map, toOption_map, agrees, Option.map_bind]
  congr 1
  funext result
  simp [Function.comp_def]

/-- Where nothing is made of a value, it does not matter whether it can be read at all. -/
theorem Agrees.refused (unread : (d.read depth cs).toOption = none)
    (unfit : ∀ result, value depth cs = .ok result → (d.fit result.1).toOption = none) :
    d.Agrees depth cs := by
  rw [Agrees, unread]
  rcases read : value depth cs with e | result
  · rfl
  · simp [unfit result read]

theorem Agrees.afterColon (agrees : ∀ rest, colon cs = .ok rest → d.Agrees depth rest) :
    (afterColon (d.read depth) cs).toOption = (afterColon (value depth) cs).toOption.bind
      fun result => (d.fit result.1).toOption.map (·, result.2) := by
  unfold Json.afterColon
  rcases found : colon cs with e | rest
  · rfl
  · exact agrees rest found

/-- Of a list or an object only the bracket is looked at, which is enough to refuse it. -/
theorem agrees_ofScalar {fit : Value → Except Mismatch α}
    (list : ∀ vs, (fit (.list vs)).toOption = none)
    (object : ∀ ms, (fit (.object ms)).toOption = none) (depth : Nat) (cs : List Char) :
    (ofScalar fit).Agrees depth cs := by
  have read : ((ofScalar fit).read depth cs).toOption =
      (glance cs).toOption.bind fun result => (fit result.1).toOption.map (·, result.2) := by
    simp only [ofScalar]
    rcases glance cs with e | ⟨v, rest⟩
    · rfl
    · cases made : fit v <;> simp [made, failFit]
  by_cases isList : ∃ rest, dropSpace cs = '[' :: rest
  · obtain ⟨rest, starts⟩ := isList
    apply Agrees.refused
    · rw [read]
      simp [glance, starts, list]
    · intro result found
      obtain ⟨vs, same⟩ := Value.starts_list.mp (value_starts starts found)
      rw [same]
      exact list vs
  by_cases isObject : ∃ rest, dropSpace cs = '\x7b' :: rest
  · obtain ⟨rest, starts⟩ := isObject
    apply Agrees.refused
    · rw [read]
      simp [glance, starts, object]
    · intro result found
      obtain ⟨ms, same⟩ := Value.starts_object.mp (value_starts starts found)
      rw [same]
      exact object ms
  rw [not_exists] at isList isObject
  have same : glance cs = scalar cs := by
    unfold glance
    split
    · next starts => exact absurd starts (isList _)
    · next starts => exact absurd starts (isObject _)
    · exact scalar_dropSpace cs
  rw [Agrees, read, same, value_eq_scalar isList isObject]
  rfl

theorem text_agrees (depth : Nat) (cs : List Char) : text.Agrees depth cs :=
  agrees_ofScalar (fun _ => rfl) (fun _ => rfl) depth cs

theorem flag_agrees (depth : Nat) (cs : List Char) : flag.Agrees depth cs :=
  agrees_ofScalar (fun _ => rfl) (fun _ => rfl) depth cs

theorem optional_fit {v : Value} (given : v ≠ .null) :
    d.optional.fit v = (d.fit v).map some := by
  cases v with
  | null => contradiction
  | _ => rfl

/-- Null is told by its first letter. -/
theorem Agrees.optional (agrees : d.Agrees depth (dropSpace cs)) : d.optional.Agrees depth cs := by
  unfold Agrees at agrees ⊢
  rw [value_dropSpace] at agrees
  by_cases null : ∃ rest, dropSpace cs = 'n' :: rest
  · obtain ⟨rest, front⟩ := null
    have read : value depth cs = (wordRest ['u', 'l', 'l'] rest).map fun rest => (.null, rest) := by
      rw [value_eq_scalar (by simp [front]) (by simp [front]), scalar, front]
      rfl
    simp only [Decoder.optional, front, read]
    rcases wordRest ['u', 'l', 'l'] rest with e | after <;> rfl
  · have read : (d.optional.read depth cs).toOption =
        (d.read depth (dropSpace cs)).toOption.map fun result => (some result.1, result.2) := by
      simp only [Decoder.optional]
      split
      next rest front => exact absurd ⟨rest, front⟩ null
      next => exact toOption_map _ _
    rw [read, agrees]
    rcases found : value depth cs with e | ⟨v, rest⟩
    · rfl
    · have given : v ≠ .null := by
        rintro rfl
        obtain ⟨c, more, front, rfl⟩ := value_front found
        exact null ⟨more, front⟩
      simp [optional_fit given, Function.comp_def]

theorem refuse_eq_none {need : String} :
    (refuse need cs : Except Failure (α × List Char)).toOption = none := by
  rw [refuse]
  cases glance cs <;> rfl

def fitted? (d : Decoder α) (vs : List Value) : Option (List α) :=
  vs.mapM fun v => (d.fit v).toOption

theorem fitted?_cons (d : Decoder α) (v : Value) (vs : List Value) :
    d.fitted? (v :: vs) = (d.fit v).toOption.bind fun a => (d.fitted? vs).map (a :: ·) := by
  rw [fitted?, List.mapM_cons, fitted?]
  cases (d.fit v).toOption with
  | none => rfl
  | some a => cases List.mapM (fun v => (d.fit v).toOption) vs <;> rfl

theorem fitted?_reverse (d : Decoder α) (vs : List Value) :
    (vs.reverse.mapM d.fit).toOption = (d.fitted? vs).map List.reverse := by
  induction vs with
  | nil => rfl
  | cons v vs ih =>
    have snoc : ((v :: vs).reverse.mapM d.fit).toOption =
        (vs.reverse.mapM d.fit).toOption.bind fun as => (d.fit v).toOption.map (as ++ [·]) := by
      rw [List.reverse_cons, List.mapM_append]
      cases vs.reverse.mapM d.fit with
      | error e => rfl
      | ok as => cases made : d.fit v <;> simp [made] <;> rfl
    rw [snoc, ih, fitted?_cons]
    cases (d.fit v).toOption <;> cases d.fitted? vs <;> simp

theorem readItem_keeps (agrees : d.Agrees depth cs) (vs : List Value) :
    Keeps d.fitted? vs (d.readItem depth · cs) (pushItem (value depth) vs cs) := by
  unfold Agrees at agrees
  unfold Keeps
  simp only [readItem, pushItem, toOption_map, agrees]
  rcases value depth cs with e | ⟨v, rest⟩
  · simp
  · cases made : (d.fit v).toOption <;> cases done : d.fitted? vs <;>
      simp [fitted?_cons, made, done]

/-- Either way the items are taken up one by one. -/
theorem list_agrees (items : ∀ depth cs, d.Agrees depth cs) (depth : Nat) (cs : List Char) :
    d.list.Agrees depth cs := by
  by_cases bracket : ∃ rest, dropSpace cs = '[' :: rest
  · obtain ⟨rest, front⟩ := bracket
    cases depth with
    | zero => simp [Agrees, list, value, front, failUpto]
    | succ depth =>
      have keeps : (foldItems (d.readItem depth) (rest.length + 1) true [] rest).toOption = _ :=
        foldItems_keeps (fun vs cs => readItem_keeps (items depth cs) vs) (rest.length + 1) true []
          rest
      simp only [Agrees, list, value, front, Json.items, toOption_map, keeps]
      rw [Option.map_bind, Option.bind_map]
      congr 1
      funext result
      simp only [Function.comp_apply, fitted?_reverse, Option.map_map]
      rfl
  · apply Agrees.refused
    · simp only [list]
      split
      next front => exact absurd ⟨_, front⟩ bracket
      next front => exact absurd ⟨_, front⟩ bracket
      next => exact refuse_eq_none
    · intro result found
      obtain ⟨c, rest, front, kind⟩ := value_front found
      cases v : result.1 with
      | list vs =>
        rw [v] at kind
        obtain rfl : c = '[' := kind
        exact absurd ⟨rest, front⟩ bracket
      | _ => rfl

/-- The choice of a name. An object that names it is read in another way than it is fitted. -/
theorem choice_agrees (variants : List (String × α)) (depth : Nat)
    (noObject : ∀ rest, dropSpace cs ≠ '\x7b' :: rest) : (choice variants).Agrees depth cs := by
  by_cases quoted : ∃ rest, dropSpace cs = '"' :: rest
  · obtain ⟨rest, front⟩ := quoted
    simp only [Agrees, choice, readChoice, front, value_quote front, readVariant]
    rcases literal rest with e | ⟨name, after⟩
    · rfl
    · cases made : variant variants name <;> simp [failFit, Except.map, fitChoice, made]
  · apply Agrees.refused
    · simp only [choice, readChoice]
      split
      next => rfl
      next front => exact absurd ⟨_, front⟩ quoted
      next front => exact absurd front (noObject _)
      next front => exact absurd front (noObject _)
      next => rfl
    · intro result found
      obtain ⟨c, rest, front, kind⟩ := value_front found
      cases v : result.1 with
      | text s =>
        rw [v] at kind
        obtain rfl : c = '"' := kind
        exact absurd ⟨rest, front⟩ quoted
      | object ms =>
        rw [v] at kind
        obtain rfl : c = '\x7b' := kind
        exact absurd front (noObject rest)
      | _ => rfl

end Decoder

end Keymap.Json
