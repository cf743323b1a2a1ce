import Keymap.Proofs.Members
import Keymap.Proofs.Requests
import Keymap.Proofs.Skimming

/-! The outline of an object text: what its members are called, and how their values begin. Where
the fields of a record agree on the members of an outline, the record is read as what it would be
fitted as. -/
namespace Keymap.Json

def outlineMember (done : List (String × Option Char)) (name : String) :
    Scan (List (String × Option Char)) := fun cs =>
  (colon cs).bind fun rest => (skim rest).map fun behind =>
    ((name, (dropSpace rest).head?) :: done, behind)

/-- The names of the members of an object text, with the first characters of their values. There is
no limit to what the values are. -/
def outline (text : String) : Except Failure (List (String × Option Char)) :=
  match dropSpace text.toList with
  | '\x7b' :: rest =>
    match members outlineMember [] rest with
    | .error e => .error e
    | .ok (found, rest) => (endOfText rest).map fun _ => found.reverse
  | rest => failUpto .expectedValue rest

/-- Where the text goes on with members, they are the rest of those of an object, all of them of a
certain kind. -/
def Along (plain : String → Option Char → Prop) (first : Bool) (cs : List Char) : Prop :=
  ∃ bound done found rest, foldMembers outlineMember bound first done cs = .ok (found, rest) ∧
    ∀ m ∈ found, plain m.1 m.2

section Along

variable {plain : String → Option Char → Prop} {first : Bool} {cs rest behind : List Char}
  {name : String}

theorem outlineMember_ok {done found : List (String × Option Char)}
    (read : outlineMember done name cs = .ok (found, rest)) : ∃ text, colon cs = .ok text ∧
      skim text = .ok rest ∧ found = (name, (dropSpace text).head?) :: done := by
  unfold outlineMember at read
  rcases separated : colon cs with e | text
  · rw [separated] at read
    contradiction
  · rw [separated] at read
    obtain ⟨after, skimmed, made⟩ := exists_of_map read
    obtain ⟨rfl, rfl⟩ := Prod.mk.inj made
    exact ⟨text, rfl, skimmed, rfl⟩

theorem foldMembers_outline {bound : Nat} {done found : List (String × Option Char)}
    (read : foldMembers outlineMember bound first done cs = .ok (found, rest)) :
    ∀ m ∈ done, m ∈ found := by
  induction bound generalizing first done cs with
  | zero => contradiction
  | succ bound ih =>
    rcases foldMembers_ok read with ⟨-, rfl⟩ | ⟨_, _, _, _, _, _, _, taken, later⟩
    · exact fun m member => member
    · obtain ⟨_, -, -, rfl⟩ := outlineMember_ok taken
      exact fun m member => ih later m (List.mem_cons_of_mem _ member)

/-- The next member is of the kind, and so are the ones behind it. -/
theorem Along.step (along : Along plain first cs) (next : nextMember first cs = .ok (true, rest))
    (named : literal rest = .ok (name, behind)) :
    ∃ text, colon behind = .ok text ∧ plain name (dropSpace text).head? ∧
      ∀ after, skim text = .ok after → Along plain false after := by
  obtain ⟨bound, done, found, last, read, kinds⟩ := along
  cases bound with
  | zero => contradiction
  | succ bound =>
    rcases foldMembers_ok read with ⟨closed, -⟩ | ⟨_, _, _, _, after, next', named', taken, later⟩
    · simp [next] at closed
    · obtain ⟨-, rfl⟩ := Prod.mk.inj (Except.ok.inj (next.symm.trans next'))
      obtain ⟨rfl, rfl⟩ := Prod.mk.inj (Except.ok.inj (named.symm.trans named'))
      obtain ⟨text, separated, skimmed, rfl⟩ := outlineMember_ok taken
      refine ⟨text, separated, kinds _ (foldMembers_outline later _ List.mem_cons_self), ?_⟩
      intro other same
      obtain rfl := Except.ok.inj (skimmed.symm.trans same)
      exact ⟨bound, _, found, last, later, kinds⟩

/-- Reading the values passes over the same text. -/
theorem Along.member (along : Along plain first cs) (next : nextMember first cs = .ok (true, rest))
    (named : literal rest = .ok (name, behind)) : (∃ text, colon behind = .ok text ∧
      plain name (dropSpace text).head?) ∧ ∀ {depth : Nat} {done ms : List (String × Value)}
        {after : List Char}, pushMember (value depth) done name behind = .ok (ms, after) →
        Along plain false after := by
  obtain ⟨text, separated, kind, further⟩ := along.step next named
  refine ⟨⟨text, separated, kind⟩, fun read => ?_⟩
  obtain ⟨other, v, separated', found, -⟩ := pushMember_ok read
  obtain rfl := Except.ok.inj (separated.symm.trans separated')
  exact further _ (skim_value found)

/-- The values that are read begin as the outline says. -/
theorem Along.values {bound depth : Nat} {done ms : List (String × Value)}
    (along : Along plain first cs)
    (read : foldMembers (pushMember (value depth)) bound first done cs = .ok (ms, rest)) :
    ∀ m ∈ ms, m ∈ done ∨ ∃ c, m.2.starts c ∧ plain m.1 (some c) := by
  induction bound generalizing first done cs with
  | zero => contradiction
  | succ bound ih =>
    rcases foldMembers_ok read with ⟨-, rfl⟩ | ⟨_, name, _, _, _, next, named, taken, later⟩
    · exact fun m member => .inl member
    · obtain ⟨⟨text, separated, kind⟩, further⟩ := along.member next named
      obtain ⟨other, v, separated', found, rfl⟩ := pushMember_ok taken
      obtain rfl := Except.ok.inj (separated.symm.trans separated')
      obtain ⟨c, _, front, starts⟩ := value_front found
      rw [front] at kind
      intro m member
      rcases ih (further taken) later m member with here | known
      · rcases List.mem_cons.mp here with rfl | old
        · exact .inr ⟨c, starts, kind⟩
        · exact .inl old
      · exact .inr known

/-- What is made of the members along the outline is the view of what is read. -/
theorem Along.members_keeps {σ : Type} {one : σ → String → Scan σ} {depth : Nat} {s : σ}
    (along : Along plain true cs) (view : List (String × Value) → Option σ)
    (step : ∀ name behind text, colon behind = .ok text → plain name (dropSpace text).head? →
      ∀ ms, Keeps view ms (one · name behind) (pushMember (value depth) ms name behind))
    (seen : view [] = some s) : (members one s cs).toOption =
      (members (pushMember (value depth)) [] cs).toOption.bind fun result =>
        (view result.1).map (·, result.2) := by
  refine Json.members_keeps (Along plain) ?_ seen along
  intro first cs name rest behind along next named ms
  obtain ⟨⟨text, separated, kind⟩, further⟩ := along.member next named
  exact ⟨step name behind text separated kind ms, fun _ _ => further⟩

theorem outline_along {text : String} {found : List (String × Option Char)}
    (read : outline text = .ok found) (kinds : ∀ m ∈ found, plain m.1 m.2) :
    ∃ rest, dropSpace text.toList = '\x7b' :: rest ∧ Along plain true rest := by
  unfold outline at read
  split at read
  · next rest front =>
    split at read
    · contradiction
    · next found' behind inside =>
      obtain ⟨_, -, rfl⟩ := exists_of_map read
      exact ⟨rest, front, _, _, found', behind, inside,
        fun m member => kinds m (List.mem_reverse.mpr member)⟩
  · contradiction

theorem outlineMember_written {depth : Nat} {v : Value} (fits : v.Fits depth)
    (done : List (String × Option Char)) (ends : EndsNumeral rest) :
    outlineMember done name (':' :: (v.print ++ rest)) =
      .ok ((name, v.print.head?) :: done, rest) := by
  have found : colon (':' :: (v.print ++ rest)) = .ok (v.print ++ rest) := rfl
  have skimmed := skim_value (value_written fits rest ends)
  obtain ⟨c, cs, text, dark, -⟩ := fits.head
  have front : (dropSpace (v.print ++ rest)).head? = v.print.head? := by
    rw [text, List.cons_append, dropSpace_cons _ dark]
    rfl
  rw [outlineMember, found]
  change (skim (v.print ++ rest)).map _ = _
  rw [skimmed, front]
  rfl

/-- The outline of what is written for members. -/
theorem outline_written {depth : Nat} {ms : List (String × Value)}
    (fits : ∀ m ∈ ms, m.2.Fits depth) :
    outline (Value.object ms).toText = .ok (ms.map fun m => (m.1, m.2.print.head?)) := by
  cases ms with
  | nil => rfl
  | cons m ms =>
    obtain ⟨name, v⟩ := m
    have first (rest : List Char) (ends : EndsNumeral rest) :
        outlineMember [] name (':' :: (v.print ++ rest)) = .ok ([(name, v.print.head?)], rest) :=
      outlineMember_written (fits (name, v) List.mem_cons_self) [] ends
    have read := members_written (fun done m => (m.1, m.2.print.head?) :: done) [] first
      fun done m later rest ends =>
        outlineMember_written (fits m (List.mem_cons_of_mem _ later)) done ends
    rw [List.append_nil] at read
    simp only [outline, Value.toText, String.toList_ofList, Value.print, List.cons_append,
      List.append_assoc, dropSpace_cons _ (show isSpace '\x7b' = false from rfl), read]
    simp [endOfText, Except.map, dropSpace, List.foldl_flip_cons_eq_append]

end Along

namespace Record

variable {α β : Type} {r : Record α} {depth : Nat} {cs : List Char}

def view (r : Record α) (ms : List (String × Value)) : Option (Found α) :=
  (ms.reverse.foldlM r.fitMember []).toOption

theorem view_cons (m : String × Value) (ms : List (String × Value)) :
    r.view (m :: ms) = (r.view ms).bind fun found => (r.fitMember found m).toOption := by
  rw [view, List.reverse_cons, List.foldlM_append, view]
  cases ms.reverse.foldlM r.fitMember [] with
  | error e => rfl
  | ok found =>
    simp only [List.foldlM_cons, List.foldlM_nil, bind_pure]
    rfl

/-- A member of a field is read as what it would be fitted as. -/
theorem readMember_known {f : Field α} {name : String} {text : List Char}
    (known : r.field? name = some f) (separated : colon cs = .ok text)
    (agrees : f.update.Agrees depth text) (found : Found α) :
    (r.readMember depth found name cs).toOption = (afterColon (value depth) cs).toOption.bind
      fun result => (r.fitMember found (name, result.1)).toOption.map (·, result.2) := by
  have read : (afterColon (f.update.read depth) cs).toOption = _ :=
    Decoder.Agrees.afterColon fun other same =>
      Except.ok.inj (separated.symm.trans same) ▸ agrees
  simp only [readMember, fitMember, known]
  by_cases again : hasField found f.name
  · simp only [if_pos again]
    cases afterColon (value depth) cs <;> rfl
  · simp only [if_neg again, toOption_map, read, Option.map_bind]
    congr 1
    funext result
    simp [Function.comp_def]

theorem readMember_keeps {f : Field α} {name : String} {text : List Char}
    (known : r.field? name = some f) (separated : colon cs = .ok text)
    (agrees : f.update.Agrees depth text) (ms : List (String × Value)) :
    Keeps r.view ms (r.readMember depth · name cs) (pushMember (value depth) ms name cs) := by
  unfold Keeps
  simp only [readMember_known known separated agrees, pushMember, toOption_map]
  rcases afterColon (value depth) cs with e | ⟨v, rest⟩
  · simp
  · cases seen : r.view ms <;> simp [view_cons, seen]

theorem fitMembers_view (ms : List (String × Value)) : (r.fitMembers ms.reverse).toOption =
    (r.view ms).bind fun found => (r.finish found).toOption := by
  rw [fitMembers, view]
  cases ms.reverse.foldlM r.fitMember [] <;> rfl

/-- An object is read as what it would be fitted as, as long as its members are of a kind with which
the fields agree. -/
theorem decoder_agrees {plain : String → Option Char → Prop} {rest : List Char}
    (front : dropSpace cs = '\x7b' :: rest) (along : Along plain true rest)
    (known : ∀ name text, plain name (dropSpace text).head? →
      ∃ f, r.field? name = some f ∧ f.update.Agrees depth text) :
    r.decoder.Agrees (depth + 1) cs := by
  have keeps : (members (r.readMember depth) [] rest).toOption = _ :=
    along.members_keeps r.view (fun name _ text separated kind =>
      let ⟨_, found, agrees⟩ := known name text kind
      readMember_keeps found separated agrees) rfl
  have finished : (r.readMembers depth rest).toOption =
      (members (r.readMember depth) [] rest).toOption.bind fun result =>
        (r.finish result.1).toOption.map (·, result.2) := by
    rw [readMembers]
    rcases members (r.readMember depth) [] rest with e | ⟨found, after⟩
    · rfl
    · cases made : r.finish found <;> simp [made, failFit]
  simp only [Decoder.Agrees, decoder, Record.read, front, finished, keeps, value, toOption_map,
    Option.bind_map, Option.bind_assoc, Record.fit, fitMembers_view, Function.comp_def,
    Option.map_bind]

def takeBoth (r : Record α) (depth : Nat) (state : Found α × List (String × Value))
    (name : String) : Scan (Found α × List (String × Value)) := fun cs =>
  match r.field? name with
  | none => (pushMember (value depth) state.2 name cs).map fun (others, rest) =>
      ((state.1, others), rest)
  | some _ => (r.readMember depth state.1 name cs).map fun (found, rest) =>
      ((found, state.2), rest)

theorem readBoth_object {other : Record β} {rest : List Char}
    (front : dropSpace cs = '\x7b' :: rest) : r.readBoth other (depth + 1) cs =
      match members (r.takeBoth depth) ([], []) rest with
      | .error e => .error e
      | .ok ((found, others), rest) =>
        match r.finish found, other.fitMembers others.reverse with
        | .error m, _ | .ok _, .error m => failFit m
        | .ok a, .ok b => .ok ((a, b), rest) := by
  simp only [readBoth, front]
  rfl

def others (r : Record α) (ms : List (String × Value)) : List (String × Value) :=
  ms.filter fun m => (r.field? m.1).isNone

def viewBoth (r : Record α) (ms : List (String × Value)) :
    Option (Found α × List (String × Value)) :=
  (r.view ms).map (·, r.others ms)

def fitBoth? (r : Record α) (other : Record β) : Value → Option (α × β)
  | .object ms => (r.fitMembers ms).toOption.bind fun a =>
      (other.fitMembers (r.others ms)).toOption.map (a, ·)
  | _ => none

theorem takeBoth_keeps {name : String} {text : List Char} (separated : colon cs = .ok text)
    (agrees : ∀ f, r.field? name = some f → f.update.Agrees depth text)
    (ms : List (String × Value)) :
    Keeps r.viewBoth ms (r.takeBoth depth · name cs) (pushMember (value depth) ms name cs) := by
  unfold Keeps
  cases known : r.field? name with
  | none =>
    simp only [takeBoth, known, pushMember, toOption_map]
    rcases afterColon (value depth) cs with e | ⟨v, rest⟩
    · simp
    · have same : r.view ((name, v) :: ms) = r.view ms := by
        rw [view_cons]
        simp [fitMember, known]
      cases seen : r.view ms <;> simp [viewBoth, others, same, seen, known]
  | some f =>
    have read := readMember_known known separated (agrees f known)
    simp only [takeBoth, known, pushMember, toOption_map, read]
    rcases afterColon (value depth) cs with e | ⟨v, rest⟩
    · simp
    · have seen := view_cons (r := r) (name, v) ms
      cases before : r.view ms with
      | none => simp [viewBoth, seen, before]
      | some found =>
        cases fits : r.fitMember found (name, v) <;>
          simp [viewBoth, others, seen, before, known, fits]

/-- An object is read for two records as what it would be fitted as for both. -/
theorem readBoth_eq {other : Record β} {plain : String → Option Char → Prop} {rest : List Char}
    (front : dropSpace cs = '\x7b' :: rest) (along : Along plain true rest)
    (known : ∀ name text, plain name (dropSpace text).head? →
      ∀ f, r.field? name = some f → f.update.Agrees depth text) :
    (r.readBoth other (depth + 1) cs).toOption = (value (depth + 1) cs).toOption.bind
      fun result => (r.fitBoth? other result.1).map (·, result.2) := by
  have keeps : (members (r.takeBoth depth) ([], []) rest).toOption = _ :=
    along.members_keeps r.viewBoth (fun name _ text separated kind =>
      takeBoth_keeps separated (known name text kind)) rfl
  have finished : (r.readBoth other (depth + 1) cs).toOption =
      (members (r.takeBoth depth) ([], []) rest).toOption.bind fun result =>
        ((r.finish result.1.1).toOption.bind fun a =>
          (other.fitMembers result.1.2.reverse).toOption.map (a, ·)).map (·, result.2) := by
    rw [readBoth_object front]
    rcases members (r.takeBoth depth) ([], []) rest with e | ⟨⟨found, rest⟩, after⟩
    · rfl
    · cases made : r.finish found <;> cases put : other.fitMembers rest.reverse <;>
        simp [made, put, failFit]
  have kept (ms : List (String × Value)) : r.others ms.reverse = (r.others ms).reverse :=
    List.filter_reverse
  simp only [finished, keeps, value, front, toOption_map, Option.bind_map, Option.bind_assoc,
    Function.comp_def, fitBoth?, viewBoth, fitMembers_view, Option.map_bind, kept, Option.map_map]

end Record

end Keymap.Json
