import Keymap.Proofs.Members
import Keymap.Proofs.Outline
import Keymap.Proofs.Requests

/-! The two decoders of options agree. One reads options of which the policy's members stand among
the others, the other one reads options that may be left open, to be resolved afterwards; from a
text that says no more than what both know they make the same. -/
namespace Keymap

open Json

namespace Json

variable {α β : Type} {d : Decoder β}

/-- Where null is not given, a value that may be null is like any other. -/
theorem openValue_given {vs : List Value} (given : ∀ v ∈ vs, v ≠ .null) :
    openValue d vs = once? (fun v => (d.fit v).toOption) vs := by
  match vs with
  | [] | _ :: _ :: _ => rfl
  | [v] =>
    simp only [openValue, once?, Decoder.optional_fit (given v List.mem_cons_self), toOption_map,
      Option.map_map]
    rfl

/-- A field that need not be there takes its value, or else the value that the draft has. -/
theorem foldlM_given {name : String} {set : β → α → α} {fs : List (Field α)}
    {ms : List (String × Value)} {draft : α} {default : β} (blank : set default draft = draft)
    (given : ∀ v ∈ valuesOf name ms, v ≠ .null) :
    (Field.may name d set :: fs).foldlM (Field.takeFrom? ms) draft =
      (openValue d (valuesOf name ms)).bind fun b =>
        fs.foldlM (Field.takeFrom? ms) (set (b.getD default) draft) := by
  have taken : (Field.may name d set).take? (valuesOf name ms) draft =
      (openValue d (valuesOf name ms)).map fun b => set (b.getD default) draft := by
    rw [openValue_given given]
    match valuesOf name ms with
    | [] => exact congrArg some blank.symm
    | [v] =>
      cases fits : d.fit v <;>
        simp [Field.take?, Field.found?, once?, Field.may, Decoder.map, fits, Except.map,
          Except.toOption]
    | _ :: _ :: _ => rfl
  exact foldlM_taken taken

theorem valuesOf_mem {name : String} {ms : List (String × Value)} {v : Value}
    (member : v ∈ valuesOf name ms) : (name, v) ∈ ms := by
  obtain ⟨m, kept, rfl⟩ := List.mem_map.mp member
  obtain ⟨inside, same⟩ := List.mem_filter.mp kept
  obtain rfl := of_decide_eq_true same
  exact inside

end Json

def Filled (ms : List (String × Value)) : Prop := ∀ m ∈ ms, m.1 ≠ "description" → m.2 ≠ .null

theorem Filled.valuesOf {ms : List (String × Value)} (filled : Filled ms) {name : String}
    (other : name ≠ "description") : ∀ v ∈ valuesOf name ms, v ≠ .null :=
  fun _ member => filled _ (valuesOf_mem member) other

theorem Options.fitMembers_eq {ms : List (String × Value)} (filled : Filled ms) :
    (record.fitMembers ms).toOption = (do
      let defaults : Options := {}
      let scopes ← openValue (.list .text) (valuesOf "scopes" ms)
      let splitAt ← openValue .text (valuesOf "split_key" ms)
      let separator ← openValue .text (valuesOf "combination_key" ms)
      let description ← openValue .text (valuesOf "description" ms)
      let enabled ← openValue .flag (valuesOf "enabled" ms)
      return {
        scopes := scopes.getD defaults.scopes
        splitAt := splitAt.getD defaults.splitAt
        separator := separator.getD defaults.separator
        description := description
        enabled := enabled.getD defaults.enabled }) := by
  rw [Record.fitMembers_eq (by decide)]
  iterate 3
    refine (foldlM_given rfl (filled.valuesOf (by decide))).trans (Option.bind_congr fun _ _ => ?_)
  refine (foldlM_open rfl).trans (Option.bind_congr fun _ _ => ?_)
  refine (foldlM_given rfl (filled.valuesOf (by decide))).trans (Option.bind_congr fun _ _ => ?_)
  rfl

theorem MatchPolicy.fitMembers_eq {ms : List (String × Value)} (filled : Filled ms) :
    (record.fitMembers ms).toOption = (do
      let defaults : MatchPolicy := {}
      let keydown ← openValue .flag (valuesOf "keydown" ms)
      let keyup ← openValue .flag (valuesOf "keyup" ms)
      let ignoreRepeat ← openValue .flag (valuesOf "ignore_repeat" ms)
      let modifierMatch ← openValue ModifierMatch.decoder (valuesOf "modifier_match" ms)
      return {
        keydown := keydown.getD defaults.keydown
        keyup := keyup.getD defaults.keyup
        ignoreRepeat := ignoreRepeat.getD defaults.ignoreRepeat
        modifierMatch := modifierMatch.getD defaults.modifierMatch }) := by
  rw [Record.fitMembers_eq (by decide)]
  iterate 4
    refine (foldlM_given rfl (filled.valuesOf (by decide))).trans (Option.bind_congr fun _ _ => ?_)
  rfl

/-- Whether options are made at once or resolved later, they come out as the same. -/
theorem fitBoth?_resolved {ms : List (String × Value)} (filled : Filled ms) :
    (Options.record.fitBoth? MatchPolicy.record (.object ms)).map
        (fun made => { made.1 with policy := made.2 }) =
      (PartialOptions.record.fit (.object ms)).toOption.map (·.resolve .exact) := by
  have others : Filled (Options.record.others ms) := fun m member =>
    filled m (List.mem_of_mem_filter member)
  have kept {name : String} (unknown : (Options.record.field? name).isNone = true) :
      valuesOf name (Options.record.others ms) = valuesOf name ms :=
    @valuesOf_filter _ _ (fun name => (Options.record.field? name).isNone) unknown
  rw [Record.fit, PartialOptions.fitMembers_eq, Record.fitBoth?, Options.fitMembers_eq filled,
    MatchPolicy.fitMembers_eq others, kept (by decide), kept (by decide), kept (by decide),
    kept (by decide)]
  simp only [Option.bind_eq_bind, Option.bind_assoc, Option.map_bind, Function.comp_def,
    Option.pure_def, Option.bind_some, Option.map_some]
  rfl

namespace PartialOptions

/-- The members that both decoders know, with values that begin as neither null, except for the
description, nor, where modifiers are compared, as an object. -/
def Plain (name : String) (first : Option Char) : Prop :=
  name ∈ record.fields.map (·.name) ∧ (name ≠ "description" → first ≠ some 'n') ∧
    (name = "modifier_match" → first ≠ some '\x7b')

instance (name : String) (first : Option Char) : Decidable (Plain name first) :=
  inferInstanceAs (Decidable (_ ∧ _ ∧ _))

theorem Plain.field {name : String} {text : List Char} (plain : Plain name (dropSpace text).head?)
    (depth : Nat) : ∃ f, record.field? name = some f ∧ f.update.Agrees depth text := by
  obtain ⟨known, -, noObject⟩ := plain
  have texts : (Decoder.list .text).Agrees depth (dropSpace text) :=
    Decoder.list_agrees Decoder.text_agrees depth _
  have text' : Decoder.text.Agrees depth (dropSpace text) := Decoder.text_agrees depth _
  have flag : Decoder.flag.Agrees depth (dropSpace text) := Decoder.flag_agrees depth _
  simp only [record, List.map_cons, List.map_nil, Field.may, List.mem_cons, List.not_mem_nil,
    or_false] at known
  rcases known with rfl | rfl | rfl | rfl | rfl | rfl | rfl | rfl | rfl
  · exact ⟨_, rfl, texts.optional.map _⟩
  iterate 3 exact ⟨_, rfl, text'.optional.map _⟩
  iterate 4 exact ⟨_, rfl, flag.optional.map _⟩
  · have choice : ModifierMatch.decoder.Agrees depth (dropSpace text) := by
      apply Decoder.choice_agrees
      intro rest front
      rw [dropSpace_dropSpace] at front
      exact noObject rfl (by rw [front]; rfl)
    exact ⟨_, rfl, choice.optional.map _⟩

end PartialOptions

theorem Options.field_agrees {f : Json.Field Options} (member : f ∈ record.fields) (depth : Nat)
    (cs : List Char) : f.update.Agrees depth cs := by
  simp only [record, List.mem_cons, List.not_mem_nil, or_false] at member
  rcases member with rfl | rfl | rfl | rfl | rfl
  · exact (Decoder.list_agrees Decoder.text_agrees depth cs).map _
  · exact (Decoder.text_agrees depth cs).map _
  · exact (Decoder.text_agrees depth cs).map _
  · exact (Decoder.text_agrees depth _).optional.map _
  · exact (Decoder.flag_agrees depth cs).map _

/-- The values that are read from such a text are filled in. -/
theorem filled_of_along {depth : Nat} {cs rest : List Char} {ms : List (String × Value)}
    (along : Along PartialOptions.Plain true cs)
    (read : members (pushMember (value depth)) [] cs = .ok (ms, rest)) : Filled ms.reverse := by
  rintro m member other null
  rcases along.values read m (List.mem_reverse.mp member) with done | ⟨c, starts, -, given, -⟩
  · contradiction
  · rw [null] at starts
    obtain rfl : c = 'n' := starts
    exact given other rfl

theorem read_resolved {depth : Nat} {cs rest : List Char} (front : dropSpace cs = '\x7b' :: rest)
    (along : Along PartialOptions.Plain true rest) :
    (Options.read (depth + 1) cs).toOption =
      (PartialOptions.decoder.read (depth + 1) cs).toOption.map
        fun result => (result.1.resolve .exact, result.2) := by
  have left : (Options.record.readBoth MatchPolicy.record (depth + 1) cs).toOption = _ :=
    Record.readBoth_eq front along
      fun _ text _ _ known => Options.field_agrees (Record.field?_name known).1 depth text
  have right : PartialOptions.decoder.Agrees (depth + 1) cs :=
    Record.decoder_agrees front along fun _ _ plain => plain.field depth
  rw [Decoder.Agrees] at right
  rw [Options.read, toOption_map, left, right]
  simp only [value, front]
  rcases read : members (pushMember (value depth)) [] rest with e | ⟨ms, behind⟩
  · rfl
  · have same := fitBoth?_resolved (filled_of_along along read)
    have paired := congrArg (Option.map (·, behind)) same
    simp only [Option.map_map, Function.comp_def] at paired
    simp only [Except.map, toOption_ok, Option.bind_some, Option.map_map, Function.comp_def]
    exact paired

theorem decode_resolved {text : String} {found : List (String × Option Char)}
    (read : outline text = .ok found) (plain : ∀ m ∈ found, PartialOptions.Plain m.1 m.2) :
    (Options.decode text).toOption =
      (PartialOptions.decoder.decode text).toOption.map (·.resolve .exact) := by
  obtain ⟨rest, front, along⟩ := outline_along read plain
  have same : (Options.read (126 + 1) text.toList).toOption = _ := read_resolved front along
  rw [Options.decode, decodeWith_toOption, Decoder.decode, decodeWith_toOption, nestingLimit, same]
  simp only [Option.bind_map, Option.map_bind, Option.map_map, Function.comp_def]

namespace Options

def given (o : Options) : PartialOptions where
  scopes := some o.scopes
  splitAt := some o.splitAt
  separator := some o.separator
  description := o.description
  enabled := some o.enabled
  keydown := some o.policy.keydown
  keyup := some o.policy.keyup
  ignoreRepeat := some o.policy.ignoreRepeat
  modifierMatch := some o.policy.modifierMatch

/-- Where nothing is left open the default does not count. -/
theorem given_resolve (o : Options) (how : ModifierMatch) : o.given.resolve how = o := rfl

def members (o : Options) : List (String × Value) :=
  [("scopes", textsValue o.scopes), ("split_key", .text o.splitAt),
    ("combination_key", .text o.separator),
    ("description", (o.description.map Value.text).getD .null), ("enabled", .flag o.enabled)] ++
    o.policy.members

theorem toValue_eq (o : Options) : o.toValue = .object o.members := rfl

theorem members_fits (o : Options) (depth : Nat) : ∀ m ∈ o.members, m.2.Fits (depth + 1) := by
  have description : ((o.description.map Value.text).getD .null).Fits (depth + 1) := by
    cases o.description with
    | none => exact .null
    | some s => exact .text s
  simp only [members, MatchPolicy.members, List.forall_mem_append, List.forall_mem_cons]
  exact ⟨⟨textsValue_fits .., .text _, .text _, description, .flag _, nofun⟩,
    .flag _, .flag _, .flag _, .text _, nofun⟩

theorem members_plain (o : Options) :
    ∀ m ∈ o.members, PartialOptions.Plain m.1 m.2.print.head? := by
  have plain {name : String} {first : Option Char} {c : Char} (begins : first = some c)
      (known : name ∈ PartialOptions.record.fields.map (·.name)) (given : c ≠ 'n')
      (noObject : c ≠ '\x7b') : PartialOptions.Plain name first := by
    subst begins
    exact ⟨known, fun _ same => given (Option.some.inj same),
      fun _ same => noObject (Option.some.inj same)⟩
  have texts : PartialOptions.Plain "scopes" (textsValue o.scopes).print.head? := by
    cases o.scopes <;> exact plain rfl (by decide) (by decide) (by decide)
  have flag (b : Bool) {name : String}
      (known : name ∈ PartialOptions.record.fields.map (·.name)) :
      PartialOptions.Plain name (Value.flag b).print.head? := by
    cases b <;> exact plain rfl known (by decide) (by decide)
  have text (s : String) {name : String}
      (known : name ∈ PartialOptions.record.fields.map (·.name)) :
      PartialOptions.Plain name (Value.text s).print.head? :=
    plain rfl known (by decide) (by decide)
  simp only [members, MatchPolicy.members, List.forall_mem_append, List.forall_mem_cons]
  exact ⟨⟨texts, text _ (by decide), text _ (by decide),
    ⟨by decide, fun other => absurd rfl other, fun same => absurd same (by decide)⟩,
    flag _ (by decide), nofun⟩,
    flag _ (by decide), flag _ (by decide), flag _ (by decide), text _ (by decide), nofun⟩

theorem fit_toValue (o : Options) : PartialOptions.decoder.fit o.toValue = .ok o.given := by
  have description : Decoder.text.optional.fit ((o.description.map Value.text).getD .null) =
      .ok o.description := by
    cases o.description <;> rfl
  exact Record.decoder_written (by decide) (.may (congrArg (Except.map some) (texts_fit o.scopes))
    (.may rfl (.may rfl (.may description (.may rfl (.may rfl (.may rfl (.may rfl
    (.may o.policy.modifierMatch.fit_toValue .nil))))))))) rfl

/-- What is written for options leaves nothing open. -/
theorem decode_given (o : Options) :
    PartialOptions.decoder.decode o.toValue.toText = .ok o.given := by
  have outlined := outline_written (o.members_fits 125)
  obtain ⟨rest, front, along⟩ := outline_along outlined
    (List.forall_mem_map.mpr o.members_plain)
  have agrees : PartialOptions.decoder.Agrees (126 + 1) o.toValue.toText.toList :=
    Record.decoder_agrees front along fun _ _ plain => plain.field 126
  have read : value (126 + 1) o.toValue.toText.toList = .ok (o.toValue, []) := by
    have written := value_written (.object (o.members_fits 125)) [] nofun
    rw [List.append_nil] at written
    rw [Value.toText, String.toList_ofList]
    exact written
  rw [Decoder.Agrees, read] at agrees
  apply toOption_eq_some.mp
  rw [Decoder.decode, decodeWith_toOption, nestingLimit, agrees]
  simp only [toOption_ok, Option.bind_some, fit_toValue, Option.map_some]
  rfl

/-- Both decoders accept the same ones of the texts that say no more than what both know, and what
is left open in them is resolved to the defaults. What is written for options is decoded as those
options by both, whatever the default for comparing modifiers. -/
theorem decoders_agree :
    (∀ text found, outline text = .ok found →
      (∀ m ∈ found, PartialOptions.Plain m.1 m.2) → ∀ o, decode text = .ok o ↔
        ∃ p, PartialOptions.decoder.decode text = .ok p ∧ p.resolve .exact = o) ∧
    ∀ (o : Options) (how : ModifierMatch), decode o.toValue.toText = .ok o ∧
      (PartialOptions.decoder.decode o.toValue.toText).map (·.resolve how) = .ok o := by
  refine ⟨?_, ?_⟩
  · intro text found read plain o
    rw [← toOption_eq_some, decode_resolved read plain, Option.map_eq_some_iff]
    simp only [toOption_eq_some]
  · intro o how
    have outlined := outline_written (o.members_fits 125)
    have same := decode_resolved outlined (List.forall_mem_map.mpr o.members_plain)
    refine ⟨?_, ?_⟩
    · apply toOption_eq_some.mp
      rw [toValue_eq, same, ← toValue_eq, decode_given]
      exact congrArg some (o.given_resolve .exact)
    · rw [decode_given]
      exact congrArg Except.ok (o.given_resolve how)

/-- Members in an order of their own, one of them for the policy and first, one null. -/
theorem decoders_agree_sample :
    let text := "\x7b \"modifier_match\":\"ignore\", \"keyup\":true, \"description\":null," ++
      "\"scopes\":[\"\\u0041\"] \x7d"
    let found := [("modifier_match", some '"'), ("keyup", some 't'), ("description", some 'n'),
      ("scopes", some '[')]
    let o : Options := {
      scopes := ["A"], policy := { keyup := true, modifierMatch := .ignore } }
    outline text = .ok found ∧ (∀ m ∈ found, PartialOptions.Plain m.1 m.2) ∧
      decode text = .ok o ∧
        (∃ p, PartialOptions.decoder.decode text = .ok p ∧ p.resolve .exact = o) ∧
          (PartialOptions.decoder.decode o.toValue.toText).map (·.resolve .subset) = .ok o := by
  intro text found o
  have outlined : outline text = .ok found := by decide +kernel
  have plain : ∀ m ∈ found, PartialOptions.Plain m.1 m.2 := by decide +kernel
  have read : decode text = .ok o := by decide +kernel
  exact ⟨outlined, plain, read, (decoders_agree.1 text found outlined plain o).mp read,
    (decoders_agree.2 o .subset).2⟩

end Options

end Keymap
