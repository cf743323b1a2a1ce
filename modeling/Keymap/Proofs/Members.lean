import Keymap.Proofs.Fields
import Keymap.Wire.Request
import Mathlib.Data.List.Induction
import Mathlib.Data.List.Perm.Basic

/-! What a record makes of an object depends, field by field, on the values under the field's name
alone: neither on the order of the members nor on members of other names. -/
namespace Keymap.Json

variable {α β : Type}

def valuesOf (name : String) (ms : List (String × Value)) : List Value :=
  (ms.filter (·.1 = name)).map Prod.snd

section Values

variable {name other : String} {ms ns : List (String × Value)} {v : Value}

theorem valuesOf_absent (absent : name ∉ ms.map Prod.fst) : valuesOf name ms = [] := by
  rw [valuesOf, List.map_eq_nil_iff, List.filter_eq_nil_iff]
  intro m member same
  exact absent (List.mem_map.mpr ⟨m, member, of_decide_eq_true same⟩)

theorem valuesOf_append : valuesOf name (ms ++ ns) = valuesOf name ms ++ valuesOf name ns := by
  rw [valuesOf, List.filter_append, List.map_append, valuesOf, valuesOf]

theorem valuesOf_cons_self : valuesOf name ((name, v) :: ms) = v :: valuesOf name ms := by
  simp [valuesOf]

theorem valuesOf_cons_other (differ : other ≠ name) :
    valuesOf name ((other, v) :: ms) = valuesOf name ms := by
  simp [valuesOf, differ]

theorem valuesOf_snoc_self : valuesOf name (ms ++ [(name, v)]) = valuesOf name ms ++ [v] := by
  rw [valuesOf_append, valuesOf_cons_self]
  rfl

theorem valuesOf_snoc_other (differ : other ≠ name) :
    valuesOf name (ms ++ [(other, v)]) = valuesOf name ms := by
  rw [valuesOf_append, valuesOf_cons_other differ, ← valuesOf_append, List.append_nil]

theorem valuesOf_filter {keep : String → Bool} (kept : keep name = true) :
    valuesOf name (ms.filter fun m => keep m.1) = valuesOf name ms := by
  rw [valuesOf, List.filter_filter, valuesOf]
  congr 1
  apply List.filter_congr
  intro m _
  by_cases same : m.1 = name
  · simp [same, kept]
  · simp [same]

theorem valuesOf_perm (perm : ms.Perm ns) : (valuesOf name ms).Perm (valuesOf name ns) :=
  (perm.filter _).map _

end Values

/-- What is made of the values of a name that may be given once: nothing of none of them, of one
what it fits. Two of them are refused. -/
def once? (fit : Value → Option β) : List Value → Option (Option β)
  | [] => some none
  | [v] => (fit v).map some
  | _ => none

section Once

variable {fit : Value → Option β} {v : Value} {vs ws : List Value}

theorem once?_cons : once? fit (v :: vs) = (once? fit vs).bind fun
    | none => (fit v).map some
    | some _ => none := by
  match vs with
  | [] | _ :: _ :: _ => rfl
  | [w] => cases made : fit w <;> simp [once?, made]

theorem once?_eq_some {b : β} : once? fit vs = some (some b) ↔ ∃ v, vs = [v] ∧ fit v = some b := by
  match vs with
  | [] | _ :: _ :: _ => simp [once?]
  | [w] => simp [once?]

theorem once?_perm (perm : vs.Perm ws) : once? fit vs = once? fit ws := by
  match vs, ws, perm.length_eq with
  | [], [], _ => rfl
  | [v], [w], _ => rw [List.perm_singleton.mp perm]
  | _ :: _ :: _, _ :: _ :: _, _ => rfl

theorem once?_snoc : once? fit (vs ++ [v]) = (once? fit vs).bind fun
    | none => (fit v).map some
    | some _ => none :=
  (once?_perm (List.perm_append_singleton v vs)).trans once?_cons

end Once

namespace Field

def found? (f : Field α) : List Value → Option (Option (α → α)) :=
  once? fun v => (f.update.fit v).toOption

def take? (f : Field α) (vs : List Value) (draft : α) : Option α :=
  (f.found? vs).bind fun
    | some change => some (change draft)
    | none => if f.required then none else some draft

def takeFrom? (ms : List (String × Value)) (draft : α) (f : Field α) : Option α :=
  f.take? (valuesOf f.name ms) draft

variable {f : Field α} {ms : List (String × Value)} {v : Value}

theorem found?_first (before : f.found? (valuesOf f.name ms) = some none) :
    f.found? (valuesOf f.name (ms ++ [(f.name, v)])) = (f.update.fit v).toOption.map some := by
  rw [found?] at before ⊢
  rw [valuesOf_snoc_self, once?_snoc, before]
  rfl

theorem found?_again {change : α → α}
    (before : f.found? (valuesOf f.name ms) = some (some change)) :
    f.found? (valuesOf f.name (ms ++ [(f.name, v)])) = none := by
  rw [found?] at before ⊢
  rw [valuesOf_snoc_self, once?_snoc, before]
  rfl

end Field

namespace Record

def Tracks (r : Record α) (ms : List (String × Value)) (found : Found α) : Prop :=
  ∀ f ∈ r.fields, f.found? (valuesOf f.name ms) = some (found.lookup f.name)

def Refuses (r : Record α) (ms : List (String × Value)) : Prop :=
  ∃ f ∈ r.fields, f.found? (valuesOf f.name ms) = none

section Fold

variable {r : Record α} {ms : List (String × Value)} {found : Found α}

theorem Refuses.snoc (refuses : r.Refuses ms) (m : String × Value) : r.Refuses (ms ++ [m]) := by
  obtain ⟨f, member, refused⟩ := refuses
  refine ⟨f, member, ?_⟩
  by_cases same : m.1 = f.name
  · obtain ⟨name, v⟩ := m
    obtain rfl : name = f.name := same
    rw [Field.found?] at refused ⊢
    rw [valuesOf_snoc_self, once?_snoc, refused]
    rfl
  · rw [valuesOf_snoc_other same, refused]

theorem field?_name {name : String} {f : Field α} (known : r.field? name = some f) :
    f ∈ r.fields ∧ f.name = name :=
  ⟨List.mem_of_find?_eq_some known, by simpa using List.find?_some known⟩

theorem field?_none {name : String} (unknown : r.field? name = none) :
    ∀ f ∈ r.fields, name ≠ f.name := by
  intro f member same
  have other := List.find?_eq_none.mp unknown f member
  simp [same] at other

/-- One more member keeps the track or is refused. -/
theorem Tracks.fitMember (tracks : r.Tracks ms found) (unique : (r.fields.map (·.name)).Nodup)
    (m : String × Value) :
    (∃ more, r.fitMember found m = .ok more ∧ r.Tracks (ms ++ [m]) more) ∨
      (∃ e, r.fitMember found m = .error e) ∧ r.Refuses (ms ++ [m]) := by
  obtain ⟨name, v⟩ := m
  cases known : r.field? name with
  | none =>
    refine .inl ⟨found, by simp [Record.fitMember, known], ?_⟩
    intro f member
    rw [valuesOf_snoc_other (field?_none known f member), tracks f member]
  | some f =>
    obtain ⟨member, rfl⟩ := field?_name known
    have before := tracks f member
    cases old : found.lookup f.name with
    | some change =>
      rw [old] at before
      have again : r.fitMember found (f.name, v) = .error (.duplicateField f.name) := by
        simp [Record.fitMember, known, hasField_eq, old]
      exact .inr ⟨⟨_, again⟩, f, member, Field.found?_again before⟩
    | none =>
      rw [old] at before
      have after := Field.found?_first (v := v) before
      have taken : r.fitMember found (f.name, v) =
          (f.update.fit v).map fun change => (f.name, change) :: found := by
        simp [Record.fitMember, known, hasField_eq, old]
      rw [taken]
      cases fits : f.update.fit v with
      | error e =>
        rw [fits] at after
        exact .inr ⟨⟨e, rfl⟩, f, member, after⟩
      | ok change =>
        rw [fits] at after
        refine .inl ⟨_, rfl, ?_⟩
        intro g inside
        by_cases same : g.name = f.name
        · obtain rfl : g = f := by
            have one := field?_of_mem unique g inside
            rw [same, known] at one
            exact (Option.some.inj one).symm
          rw [after, List.lookup_cons_self]
          rfl
        · rw [valuesOf_snoc_other (Ne.symm same), tracks g inside, List.lookup_cons,
            beq_false_of_ne same]

theorem foldlM_fitMember (unique : (r.fields.map (·.name)).Nodup) (ms : List (String × Value)) :
    (∃ found, ms.foldlM r.fitMember [] = .ok found ∧ r.Tracks ms found) ∨
      (∃ e, ms.foldlM r.fitMember [] = .error e) ∧ r.Refuses ms := by
  induction ms using List.reverseRecOn with
  | nil => exact .inl ⟨[], rfl, fun f _ => rfl⟩
  | append_singleton ms m ih =>
    rw [List.foldlM_append]
    rcases ih with ⟨found, done, tracks⟩ | ⟨⟨e, failed⟩, refuses⟩
    · simp only [done, List.foldlM_cons, List.foldlM_nil, bind_pure]
      exact tracks.fitMember unique m
    · rw [failed]
      exact .inr ⟨⟨e, rfl⟩, refuses.snoc m⟩

end Fold

/-- A draft with the fields that were found taken up, unless a required one is missing. -/
theorem Tracks.finish {ms : List (String × Value)} {found : Found α} {fs : List (Field α)}
    (tracks : ∀ f ∈ fs, f.found? (valuesOf f.name ms) = some (found.lookup f.name)) (draft : α) :
    fs.foldlM (Field.takeFrom? ms) draft =
      match fs.find? fun f => f.required && !hasField found f.name with
      | some _ => none
      | none => some <| fs.foldl (fun draft f =>
          match found.lookup f.name with
          | some change => change draft
          | none => draft) draft := by
  induction fs generalizing draft with
  | nil => rfl
  | cons f fs ih =>
    obtain ⟨here, later⟩ := List.forall_mem_cons.mp tracks
    rw [List.foldlM_cons, Field.takeFrom?, Field.take?, here, List.find?_cons, List.foldl_cons,
      hasField_eq]
    cases old : found.lookup f.name with
    | some change => simpa using ih later (change draft)
    | none =>
      cases f.required with
      | false => simpa using ih later draft
      | true => simp

theorem Refuses.take? {ms : List (String × Value)} {fs : List (Field α)}
    (refuses : ∃ f ∈ fs, f.found? (valuesOf f.name ms) = none) (draft : α) :
    fs.foldlM (Field.takeFrom? ms) draft = none := by
  induction fs generalizing draft with
  | nil => simp at refuses
  | cons f fs ih =>
    rw [List.foldlM_cons]
    obtain ⟨g, member, refused⟩ := refuses
    rcases List.mem_cons.mp member with rfl | later
    · rw [Field.takeFrom?, Field.take?, refused]
      rfl
    · have rest := ih ⟨g, later, refused⟩
      simp [rest]

/-- A record takes up its fields one after the other, each from the values under its name. -/
theorem fitMembers_eq {r : Record α} (unique : (r.fields.map (·.name)).Nodup)
    (ms : List (String × Value)) :
    (r.fitMembers ms).toOption = r.fields.foldlM (Field.takeFrom? ms) r.blank := by
  rcases foldlM_fitMember unique ms with ⟨found, done, tracks⟩ | ⟨⟨e, failed⟩, refuses⟩
  · rw [Tracks.finish tracks, fitMembers, done]
    simp only [Record.finish]
    cases r.fields.find? fun f => f.required && !hasField found f.name <;> rfl
  · rw [Refuses.take? refuses, fitMembers, failed]
    rfl

theorem foldlM_takeFrom?_congr {fs : List (Field α)} {ms ns : List (String × Value)}
    (same : ∀ f ∈ fs, f.found? (valuesOf f.name ms) = f.found? (valuesOf f.name ns)) (draft : α) :
    fs.foldlM (Field.takeFrom? ms) draft =
      fs.foldlM (Field.takeFrom? ns) draft := by
  induction fs generalizing draft with
  | nil => rfl
  | cons f fs ih =>
    obtain ⟨here, later⟩ := List.forall_mem_cons.mp same
    rw [List.foldlM_cons, List.foldlM_cons, Field.takeFrom?, Field.take?, here, Field.takeFrom?,
      Field.take?]
    simp only [ih later]

theorem fitMembers_congr {r : Record α} (unique : (r.fields.map (·.name)).Nodup)
    {ms ns : List (String × Value)}
    (same : ∀ f ∈ r.fields, f.found? (valuesOf f.name ms) = f.found? (valuesOf f.name ns)) :
    (r.fitMembers ms).toOption = (r.fitMembers ns).toOption := by
  rw [fitMembers_eq unique, fitMembers_eq unique, foldlM_takeFrom?_congr same]

/-- A value may be replaced by one of which the fields of its name make the same. -/
theorem fitMembers_replace {r : Record α} (unique : (r.fields.map (·.name)).Nodup)
    {name : String} {v w : Value}
    (same : ∀ f ∈ r.fields, f.name = name →
      (f.update.fit v).toOption = (f.update.fit w).toOption) (ms : List (String × Value)) :
    (r.fitMembers ((name, v) :: ms)).toOption = (r.fitMembers ((name, w) :: ms)).toOption := by
  apply fitMembers_congr unique
  intro f member
  by_cases equal : name = f.name
  · subst equal
    rw [valuesOf_cons_self, valuesOf_cons_self, Field.found?, once?_cons, once?_cons,
      same f member rfl]
  · rw [valuesOf_cons_other equal, valuesOf_cons_other equal]

end Record

def openValue (d : Decoder β) (vs : List Value) : Option (Option β) :=
  (once? (fun v => (d.optional.fit v).toOption) vs).map Option.join

section Open

variable {name : String} {d : Decoder β} {set : Option β → α → α} {fs : List (Field α)}
  {ms : List (String × Value)}

theorem foldlM_taken {f : Field α} {draft : α} {found : Option γ} {next : γ → α}
    (taken : f.take? (valuesOf f.name ms) draft = found.map next) :
    (f :: fs).foldlM (Field.takeFrom? ms) draft =
      found.bind fun c => fs.foldlM (Field.takeFrom? ms) (next c) := by
  rw [List.foldlM_cons, Field.takeFrom?, taken]
  exact Option.bind_map

/-- A field that may be null is set either way. -/
theorem foldlM_open {draft : α} (blank : set none draft = draft) :
    (Field.may name d.optional set :: fs).foldlM (Field.takeFrom? ms) draft =
      (openValue d (valuesOf name ms)).bind fun b =>
        fs.foldlM (Field.takeFrom? ms) (set b draft) := by
  have taken : (Field.may name d.optional set).take? (valuesOf name ms) draft =
      (openValue d (valuesOf name ms)).map (set · draft) := by
    match valuesOf name ms with
    | [] => exact congrArg some blank.symm
    | [v] =>
      cases fits : d.optional.fit v <;>
        simp [Field.take?, Field.found?, once?, Field.may, openValue, Decoder.map, fits,
          Except.map, Except.toOption]
    | _ :: _ :: _ => rfl
  exact foldlM_taken taken

end Open

end Keymap.Json

namespace Keymap.PartialOptions

open Json

/-- Each option is what stands under its name. -/
theorem fitMembers_eq (ms : List (String × Value)) : (record.fitMembers ms).toOption = (do
    let scopes ← openValue (.list .text) (valuesOf "scopes" ms)
    let splitAt ← openValue .text (valuesOf "split_key" ms)
    let separator ← openValue .text (valuesOf "combination_key" ms)
    let description ← openValue .text (valuesOf "description" ms)
    let enabled ← openValue .flag (valuesOf "enabled" ms)
    let keydown ← openValue .flag (valuesOf "keydown" ms)
    let keyup ← openValue .flag (valuesOf "keyup" ms)
    let ignoreRepeat ← openValue .flag (valuesOf "ignore_repeat" ms)
    let modifierMatch ← openValue ModifierMatch.decoder (valuesOf "modifier_match" ms)
    return ⟨scopes, splitAt, separator, description, enabled, keydown, keyup, ignoreRepeat,
      modifierMatch⟩) := by
  rw [Record.fitMembers_eq (by decide)]
  iterate 9 refine (foldlM_open rfl).trans (Option.bind_congr fun _ _ => ?_)
  rfl

end Keymap.PartialOptions
