import Keymap.Proofs.Lockstep
import Keymap.Proofs.Members
import Mathlib.Logic.Relation

/-! A request means the same however its objects are worded: in whatever order their members are
written, whatever members of other names stand among them, and whether an option that is left open
is left out or written as null. -/
namespace Keymap

open Json

namespace Json.Tagged

variable {α : Type} {t : Tagged α} {ms : List (String × Value)}

def fitTag (t : Tagged α) : Value → Except Mismatch (Payload α)
  | .text name => Decoder.variant t.variants name
  | v => .error (.wrongKind v.found "variant identifier")

def tagDecoder (t : Tagged α) : Decoder (Payload α) := ⟨t.fitTag, fun _ => t.readTag⟩

theorem tagDecoder_agrees (t : Tagged α) (depth : Nat) (cs : List Char) :
    t.tagDecoder.Agrees depth cs := by
  by_cases quoted : ∃ rest, dropSpace cs = '"' :: rest
  · obtain ⟨rest, front⟩ := quoted
    simp only [Decoder.Agrees, tagDecoder, readTag, front, value_quote front]
    rcases literal rest with e | ⟨name, rest⟩
    · rfl
    · cases made : Decoder.variant t.variants name <;>
        simp [failFitHere, Except.map, fitTag, made]
  · apply Decoder.Agrees.refused
    · simp only [tagDecoder, readTag]
      split
      · next front => exact absurd ⟨_, front⟩ quoted
      · cases Decoder.glance (dropSpace cs) <;> rfl
    · intro result read
      obtain ⟨c, rest, front, kind⟩ := value_front read
      cases v : result.1 with
      | text s =>
        rw [v] at kind
        obtain rfl : c = '"' := kind
        exact absurd ⟨rest, front⟩ quoted
      | _ => rfl

def beside (ms : List (String × Value)) : List (String × Value) := ms.filter (·.1 ≠ tag)

def view (t : Tagged α) (ms : List (String × Value)) : Option (Partial α) :=
  (once? (fun v => (t.fitTag v).toOption) (valuesOf tag ms)).map (·, beside ms)

/-- What an object means: what the variant that its only tag names makes of the members beside. -/
def fitMembers? (t : Tagged α) (ms : List (String × Value)) : Option α :=
  (t.view ms).bind fun
    | (some payload, others) => (payload.ofMembers others).toOption
    | (none, _) => none

theorem fitMembers?_eq_some {a : α} : t.fitMembers? ms = some a ↔ ∃ payload : Payload α,
    once? (fun v => (t.fitTag v).toOption) (valuesOf tag ms) = some (some payload) ∧
      payload.ofMembers (beside ms) = .ok a := by
  rw [fitMembers?, view]
  rcases once? (fun v => (t.fitTag v).toOption) (valuesOf tag ms) with _ | _ | payload
  · simp
  · simp
  · simp [toOption_eq_some]

theorem exists_variant {vs : List Value} {payload : Payload α}
    (named : once? (fun v => (t.fitTag v).toOption) vs = some (some payload)) :
    ∃ name, (name, payload) ∈ t.variants := by
  obtain ⟨v, -, fits⟩ := once?_eq_some.mp named
  cases v with
  | text name =>
    rw [fitTag, toOption_eq_some, Decoder.variant] at fits
    split at fits
    · next found =>
      obtain rfl := Except.ok.inj fits
      obtain ⟨before, behind, split, -⟩ := List.lookup_eq_some_iff.mp found
      exact ⟨name, split ▸ List.mem_append_right _ List.mem_cons_self⟩
    · contradiction
  | _ => contradiction

theorem beside_cons {name : String} (other : name ≠ tag) (v : Value)
    (ms : List (String × Value)) : beside ((name, v) :: ms) = (name, v) :: beside ms := by
  simp [beside, other]

theorem view_beside {name : String} (other : name ≠ tag) (v : Value) :
    t.view ((name, v) :: ms) =
      (t.view ms).map fun state => (state.1, (name, v) :: state.2) := by
  rw [view, view, valuesOf_cons_other other, beside_cons other, Option.map_map]
  rfl

theorem view_tag (v : Value) : t.view ((tag, v) :: ms) = (t.view ms).bind fun
    | (none, others) => (t.fitTag v).toOption.map (some ·, others)
    | (some _, _) => none := by
  have kept : beside ((tag, v) :: ms) = beside ms := by simp [beside]
  rw [view, view, valuesOf_cons_self, once?_cons, kept]
  rcases once? (fun v => (t.fitTag v).toOption) (valuesOf tag ms) with _ | _ | _
  · rfl
  · cases (t.fitTag v).toOption <;> rfl
  · rfl

theorem readMember_keeps (t : Tagged α) (depth : Nat) (ms : List (String × Value)) (name : String)
    (cs : List Char) :
    Keeps t.view ms (t.readMember depth · name cs) (pushMember (value depth) ms name cs) := by
  unfold Keeps
  by_cases same : name = tag
  · subst same
    have agrees : (afterColon t.readTag cs).toOption = _ :=
      Decoder.Agrees.afterColon fun rest _ => t.tagDecoder_agrees depth rest
    simp only [pushMember, toOption_map, Option.bind_map, Function.comp_def, view_tag]
    rcases t.view ms with _ | ⟨_ | payload, others⟩
    · simp
    · simp [readMember, agrees, tagDecoder, Option.map_bind, Function.comp_def]
    · simp [readMember, failFitHere]
  · simp only [readMember, if_neg same, pushMember]
    rcases afterColon (value depth) cs with e | ⟨v, rest⟩
    · simp [Except.map]
    · cases seen : t.view ms <;> simp [Except.map, view_beside same, seen]

theorem view_reverse (t : Tagged α) (ms : List (String × Value)) :
    t.view ms.reverse = (t.view ms).map fun state => (state.1, state.2.reverse) := by
  rw [view, once?_perm (valuesOf_perm (List.reverse_perm ms)), beside, List.filter_reverse, view,
    Option.map_map]
  rfl

def fit? (t : Tagged α) : Value → Option α
  | .object ms => t.fitMembers? ms
  | _ => none

/-- An object is read as what it means, wherever its tag stands. -/
theorem read_eq {depth : Nat} {cs rest : List Char} (front : dropSpace cs = '\x7b' :: rest) :
    ((t.read (depth + 1) cs).toOption.bind fun result => result.1.toOption.map (·, result.2)) =
      (value (depth + 1) cs).toOption.bind fun result => (t.fit? result.1).map (·, result.2) := by
  have read : (members (t.readMember depth) (none, []) rest).toOption =
      (members (pushMember (value depth)) [] rest).toOption.bind fun result =>
        (t.view result.1).map (·, result.2) :=
    members_keeps (fun _ _ => True) (fun _ _ name _ behind _ _ _ ms =>
      ⟨t.readMember_keeps depth ms name behind, fun _ _ _ => trivial⟩) rfl trivial
  have given : ((t.read (depth + 1) cs).toOption.bind fun result =>
      result.1.toOption.map (·, result.2)) =
      (members (t.readMember depth) (none, []) rest).toOption.bind fun result =>
        match result.1 with
        | (some payload, others) => (payload.ofMembers others.reverse).toOption.map (·, result.2)
        | (none, _) => none := by
    simp only [Tagged.read, front]
    rcases members (t.readMember depth) (none, []) rest with e | ⟨⟨_ | payload, others⟩, after⟩ <;>
      rfl
  have same (ms : List (String × Value)) (after : List Char) :
      (((t.view ms).map (·, after)).bind fun result => match result.1 with
        | (some payload, others) => (payload.ofMembers others.reverse).toOption.map (·, result.2)
        | (none, _) => none) = (t.fit? (.object ms.reverse)).map (·, after) := by
    rw [fit?, fitMembers?, view_reverse]
    rcases t.view ms with _ | ⟨_ | payload, others⟩ <;> rfl
  rw [given, read, Option.bind_assoc]
  simp only [value, front, toOption_map, Option.bind_map, Function.comp_def, same]

theorem decode_eq {text : String} {rest : List Char}
    (front : dropSpace text.toList = '\x7b' :: rest) :
    (t.decode text).toOption = (Value.ofText? text).toOption.bind t.fit? := by
  have decoded : (t.decode text).toOption = ((t.read 127 text.toList).toOption.bind fun result =>
      result.1.toOption.map (·, result.2)).bind fun result =>
        (endOfText result.2).toOption.map fun _ => result.1 := by
    simp only [decode, nestingLimit]
    rcases t.read 127 text.toList with e | ⟨m | a, after⟩
    · rfl
    · rfl
    · simp
  rw [decoded, read_eq front, ofText?_eq_decodeWith, decodeWith_toOption, nestingLimit]
  rcases value (126 + 1) text.toList with e | ⟨v, after⟩
  · rfl
  · cases ended : endOfText after <;> cases made : t.fit? v <;> simp [ended, made]

end Json.Tagged

namespace Json

variable {known : List String} {ms ns : List (String × Value)}

/-- The members are written in another order, or a member that is not asked for is added. -/
inductive Restyled (known : List String) :
    List (String × Value) → List (String × Value) → Prop where
  | reorder {ms ns : List (String × Value)} (perm : ms.Perm ns) : Restyled known ms ns
  | extend {name : String} (other : name ∉ known) (v : Value) (ms : List (String × Value)) :
      Restyled known ms ((name, v) :: ms)

/-- The values of every known name are the same up to their order. -/
theorem Restyled.values (restyled : Restyled known ms ns) :
    ∀ name ∈ known, (valuesOf name ms).Perm (valuesOf name ns) := by
  intro name member
  cases restyled with
  | reorder perm => exact valuesOf_perm perm
  | extend other v =>
    rw [valuesOf_cons_other]
    rintro rfl
    exact other member

variable {α : Type}

theorem Record.fitMembers_restyled {r : Record α} (unique : (r.fields.map (·.name)).Nodup)
    (restyled : Restyled (r.fields.map (·.name)) ms ns) :
    (r.fitMembers ms).toOption = (r.fitMembers ns).toOption :=
  fitMembers_congr unique fun f member =>
    once?_perm (restyled.values f.name (List.mem_map_of_mem member))

end Json

namespace PartialOptions

/-- The members of options are restyled, or an option that is left open is left out instead of
being null, or the other way round. -/
inductive Rephrased : List (String × Value) → List (String × Value) → Prop where
  | style {ms ns : List (String × Value)}
      (restyled : Restyled (record.fields.map (·.name)) ms ns) : Rephrased ms ns
  | writeNull {name : String} {ms : List (String × Value)}
      (named : name ∈ record.fields.map (·.name)) (absent : name ∉ ms.map Prod.fst) :
      Rephrased ms ((name, .null) :: ms)
  | dropNull {name : String} {ms : List (String × Value)}
      (named : name ∈ record.fields.map (·.name)) (absent : name ∉ ms.map Prod.fst) :
      Rephrased ((name, .null) :: ms) ms

theorem fitMembers_null {name : String} {ms : List (String × Value)}
    (absent : name ∉ ms.map Prod.fst) :
    (record.fitMembers ((name, .null) :: ms)).toOption = (record.fitMembers ms).toOption := by
  have same {β : Type} (d : Decoder β) (other : String) :
      openValue d (valuesOf other ((name, .null) :: ms)) = openValue d (valuesOf other ms) := by
    by_cases equal : name = other
    · subst equal
      have none : valuesOf name ms = [] := valuesOf_absent absent
      rw [valuesOf_cons_self, none]
      rfl
    · rw [valuesOf_cons_other equal]
  simp only [fitMembers_eq, same]

theorem Rephrased.fitMembers {ms ns : List (String × Value)} (rephrased : Rephrased ms ns) :
    (record.fitMembers ms).toOption = (record.fitMembers ns).toOption := by
  cases rephrased with
  | style restyled => exact Record.fitMembers_restyled (by decide) restyled
  | writeNull named absent => exact (fitMembers_null absent).symm
  | dropNull named absent => exact fitMembers_null absent

end PartialOptions

namespace Request

def fieldNames : Request → List String
  | .key _ => ["event"]
  | .register _ _ => ["keys", "options"]
  | .update _ _ _ => ["id", "keys", "options"]
  | .unregister _ => ["id"]
  | .activateScope _ | .deactivateScope _ | .toggleScope _ => ["scope"]
  | .status | .ping => []

/-- The options or the event of a request are worded in another way. -/
inductive RephrasedInside : String → Value → Value → Prop where
  | options {ms ns : List (String × Value)} (inside : PartialOptions.Rephrased ms ns) :
      RephrasedInside "options" (.object ms) (.object ns)
  | event {ms ns : List (String × Value)}
      (inside : Restyled (KeyboardEvent.record.fields.map (·.name)) ms ns) :
      RephrasedInside "event" (.object ms) (.object ns)

/-- One step of wording a request in another way. -/
inductive Rephrased (r : Request) : List (String × Value) → List (String × Value) → Prop where
  | style {ms ns : List (String × Value)}
      (restyled : Restyled (Tagged.tag :: r.fieldNames) ms ns) : Rephrased r ms ns
  | inside {name : String} {v w : Value} (rephrased : RephrasedInside name v w)
      (ms : List (String × Value)) : Rephrased r ((name, v) :: ms) ((name, w) :: ms)

/-- The record behind a variant: its fields are those of the requests that it makes, and options
and events are fields of the same kind wherever they occur. -/
structure IsRecord {α : Type} (record : Record α) (make : α → Request) : Prop where
  unique : (record.fields.map (·.name)).Nodup
  names : ∀ a, record.fields.map (·.name) = (make a).fieldNames
  options : ∀ f ∈ record.fields, f.name = "options" →
    ∃ set, f = .may "options" PartialOptions.decoder set
  event : ∀ f ∈ record.fields, f.name = "event" →
    ∃ set, f = .must "event" KeyboardEvent.decoder set

theorem variants_records : ∀ entry ∈ tagged.variants, ∃ (α : Type) (record : Record α)
    (make : α → Request), entry.2 = record.payload make ∧ IsRecord record make := by
  have scope (title : String) (make : String → Request)
      (named : ∀ scope, (make scope).fieldNames = ["scope"]) :
      IsRecord (scopeRecord title) make :=
    ⟨by simp [scopeRecord], fun a => (named a).symm, by simp [scopeRecord, Field.must],
      by simp [scopeRecord, Field.must]⟩
  have empty (make : Unit → Request) (named : (make ()).fieldNames = []) :
      IsRecord ⟨"", (), []⟩ make := ⟨by simp, fun _ => named.symm, nofun, nofun⟩
  simp only [tagged, List.forall_mem_cons]
  refine ⟨⟨_, keyRecord, _, rfl, by decide, fun _ => rfl, ?_, ?_⟩,
    ⟨_, registerRecord, _, rfl, by decide, fun _ => rfl, ?_, ?_⟩,
    ⟨_, updateRecord, _, rfl, by decide, fun _ => rfl, ?_, ?_⟩,
    ⟨_, unregisterRecord, _, rfl, by decide, fun _ => rfl, ?_, ?_⟩,
    ⟨_, scopeRecord _, _, rfl, scope _ _ fun _ => rfl⟩,
    ⟨_, scopeRecord _, _, rfl, scope _ _ fun _ => rfl⟩,
    ⟨_, scopeRecord _, _, rfl, scope _ _ fun _ => rfl⟩,
    ⟨_, ⟨"", (), []⟩, _, rfl, empty _ rfl⟩, ⟨_, ⟨"", (), []⟩, _, rfl, empty _ rfl⟩, nofun⟩
  all_goals
    simp [keyRecord, registerRecord, updateRecord, unregisterRecord, Field.must, Field.may]
  all_goals exact ⟨_, rfl⟩

section Steps

variable {ms ns : List (String × Value)} {payload : Payload Request} {r : Request}

/-- A variant makes the same of members of which its record makes the same. -/
theorem ofMembers_carry {α : Type} {record : Record α} {make : α → Request}
    (made : (record.payload make).ofMembers ms = .ok r)
    (same : ∀ a, make a = r → (record.fitMembers ms).toOption = (record.fitMembers ns).toOption) :
    (record.payload make).ofMembers ns = .ok r := by
  obtain ⟨a, fits, rfl⟩ := exists_of_map made
  have fits' : record.fitMembers ns = .ok a := by
    rw [← toOption_eq_some, ← same a rfl, fits, toOption_ok]
  simp only [Record.payload, fits']
  rfl

theorem ofMembers_restyled (known : ∃ name, (name, payload) ∈ tagged.variants)
    (made : payload.ofMembers ms = .ok r) (restyled : Restyled r.fieldNames ms ns) :
    payload.ofMembers ns = .ok r := by
  obtain ⟨name, member⟩ := known
  obtain ⟨α, record, make, rfl, form⟩ := variants_records _ member
  apply ofMembers_carry made
  rintro a rfl
  rw [← form.names a] at restyled
  exact record.fitMembers_restyled form.unique restyled

theorem ofMembers_inside (known : ∃ name, (name, payload) ∈ tagged.variants) {name : String}
    {v w : Value} (rephrased : RephrasedInside name v w)
    (made : payload.ofMembers ((name, v) :: ms) = .ok r) :
    payload.ofMembers ((name, w) :: ms) = .ok r := by
  obtain ⟨_, member⟩ := known
  obtain ⟨α, record, make, rfl, form⟩ := variants_records _ member
  apply ofMembers_carry made
  intro _ _
  apply Record.fitMembers_replace form.unique
  intro f member named
  cases rephrased with
  | options inside =>
    obtain ⟨set, rfl⟩ := form.options f member named
    simp only [Field.may, Decoder.map, toOption_map]
    exact congrArg (Option.map set) inside.fitMembers
  | event inside =>
    obtain ⟨set, rfl⟩ := form.event f member named
    simp only [Field.must, Decoder.map, toOption_map]
    exact congrArg (Option.map set) (Record.fitMembers_restyled (by decide) inside)

/-- One step of rewording does not change what the members of a request mean. -/
theorem Rephrased.fitMembers? (rephrased : Rephrased r ms ns)
    (made : tagged.fitMembers? ms = some r) : tagged.fitMembers? ns = some r := by
  obtain ⟨payload, named, made⟩ := Tagged.fitMembers?_eq_some.mp made
  have known := Tagged.exists_variant named
  apply Tagged.fitMembers?_eq_some.mpr
  refine ⟨payload, ?_⟩
  cases rephrased with
  | style restyled =>
    cases restyled with
    | reorder perm =>
      refine ⟨(once?_perm (valuesOf_perm perm.symm)).trans named, ?_⟩
      exact ofMembers_restyled known made (.reorder (perm.filter _))
    | @extend name other v _ =>
      rw [List.mem_cons, not_or] at other
      rw [valuesOf_cons_other other.1, Tagged.beside_cons other.1]
      exact ⟨named, ofMembers_restyled known made (.extend other.2 v _)⟩
  | @inside name v w rephrased ms =>
    have other : name ≠ Tagged.tag := by cases rephrased <;> decide
    rw [valuesOf_cons_other other] at named ⊢
    rw [Tagged.beside_cons other] at made ⊢
    exact ⟨named, ofMembers_inside known rephrased made⟩

theorem fitMembers?_reworded (reworded : Relation.ReflTransGen r.Rephrased ms ns)
    (made : tagged.fitMembers? ms = some r) : tagged.fitMembers? ns = some r := by
  induction reworded with
  | refl => exact made
  | tail _ step ih => exact step.fitMembers? ih

end Steps

/-- An object text is decoded as what its members mean. -/
theorem decode_object {line : String} {ms : List (String × Value)} {r : Request}
    (read : Value.ofText? (Text.trim line) = .ok (.object ms)) :
    decode line = .ok r ↔ tagged.fitMembers? ms = some r := by
  obtain ⟨rest, front⟩ := Value.front_of_object read
  rw [decode, ← toOption_eq_some, Tagged.decode_eq front, read]
  rfl

/-- Every request that is written as an object is decoded as the same one when the object, the one
of its options and the one of its event are worded in another way, in any number of steps. -/
theorem decode_reworded {line : String} {r : Request} (accepted : decode line = .ok r)
    (isObject : (Text.trim line).toList.head? = some '\x7b') :
    ∃ ms, Value.ofText? (Text.trim line) = .ok (.object ms) ∧ ∀ line' ms',
      Value.ofText? (Text.trim line') = .ok (.object ms') →
      Relation.ReflTransGen r.Rephrased ms ms' → decode line' = .ok r := by
  obtain ⟨rest, split⟩ := List.head?_eq_some_iff.mp isObject
  have front : dropSpace (Text.trim line).toList = '\x7b' :: rest := by
    rw [split]
    rfl
  have meaning := (Tagged.decode_eq (t := tagged) front).symm
  rw [← decode, accepted, toOption_ok, Option.bind_eq_some_iff] at meaning
  obtain ⟨v, read, made⟩ := meaning
  cases v with
  | object ms =>
    have read := toOption_eq_some.mp read
    refine ⟨ms, read, fun line' ms' read' reworded => ?_⟩
    exact (decode_object read').mpr (fitMembers?_reworded reworded made)
  | _ => simp [Tagged.fit?] at made

def sampleLine : String :=
  "\x7b\"type\":\"register\",\"keys\":\"a\",\"options\":\x7b\"keyup\":null\x7d\x7d"

/-- The tag goes last, the null goes, and members come that nothing asks for. -/
def sampleReworded : String :=
  " \x7b\"x\":[],\"options\":\x7b\"x\":true\x7d, \"keys\":\"a\",\"type\":\"register\"\x7d"

theorem decode_reworded_sample : decode sampleLine = .ok (.register "a" {}) ∧
    decode sampleReworded = .ok (.register "a" {}) := by
  have accepted : decode sampleLine = .ok (.register "a" {}) := by decide +kernel
  obtain ⟨ms, read, same⟩ := decode_reworded accepted (by decide +kernel)
  have members : Value.ofText? (Text.trim sampleLine) = .ok (.object [("type", .text "register"),
      ("keys", .text "a"), ("options", .object [("keyup", .null)])]) := by
    cbv
  have reworded : Value.ofText? (Text.trim sampleReworded) = .ok (.object [("x", .list []),
      ("options", .object [("x", .flag true)]), ("keys", .text "a"),
      ("type", .text "register")]) := by
    cbv
  obtain rfl := Value.object.inj (Except.ok.inj (members.symm.trans read))
  refine ⟨accepted, same sampleReworded _ reworded ?_⟩
  refine .head (.style (.reorder (List.reverse_perm _).symm)) ?_
  refine .head (.inside (.options (.dropNull (by decide) (by decide))) _) ?_
  refine .head (.inside (.options (.style (.extend (show "x" ∉ _ by decide) (.flag true) _))) _) ?_
  exact .single (.style (.extend (by decide) _ _))

/-- A text that is well formed, as far as skimming tells, can still be no text at all: what holds
half of a surrogate pair cannot be added. -/
theorem lone_surrogate_refused :
    decode "\x7b\"type\":\"ping\"\x7d" = .ok .ping ∧ "x" ∉ Tagged.tag :: ping.fieldNames ∧
      skim "\"\\ud800\"".toList = .ok [] ∧
      ∀ r, decode "\x7b\"type\":\"ping\",\"x\":\"\\ud800\"\x7d" ≠ .ok r := by
  refine ⟨by decide +kernel, by decide, by decide +kernel, ?_⟩
  have refused : (decode "\x7b\"type\":\"ping\",\"x\":\"\\ud800\"\x7d").toOption = none := by
    decide +kernel
  intro r accepted
  rw [accepted] at refused
  contradiction

end Request

end Keymap
