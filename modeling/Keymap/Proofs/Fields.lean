import Keymap.Json.Tagged
import Keymap.Proofs.Reading

/-! Records and tagged values can be made from the members that are written for them. -/
namespace Keymap.Json

namespace Decoder

variable {α β : Type}

theorem map_fit {d : Decoder α} {v : Value} {a : α} (f : α → β) (fits : d.fit v = .ok a) :
    (d.map f).fit v = .ok (f a) := by
  rw [map]
  simp only [fits]
  rfl

theorem list_fit {d : Decoder α} {form : α → Value} {as : List α}
    (fits : ∀ a ∈ as, d.fit (form a) = .ok a) : d.list.fit (.list (as.map form)) = .ok as := by
  induction as with
  | nil => rfl
  | cons a as ih =>
    obtain ⟨first, later⟩ := List.forall_mem_cons.mp fits
    have rest : (as.map form).mapM d.fit = .ok as := ih later
    simp only [list, List.map_cons, List.mapM_cons, first, rest]
    rfl

end Decoder

namespace Record

variable {α β : Type}

/-- Members that are written for fields in the order of their declaration, and what they change. A
field that is not required may be left out. -/
inductive Written : List (Field α) → List (String × Value) → Found α → Prop where
  | nil : Written [] [] []
  | given {f : Field α} {v : Value} {change : α → α} {fs : List (Field α)}
      {ms : List (String × Value)} {found : Found α} (fits : f.update.fit v = .ok change)
      (rest : Written fs ms found) :
      Written (f :: fs) ((f.name, v) :: ms) ((f.name, change) :: found)
  | absent {f : Field α} {fs : List (Field α)} {ms : List (String × Value)} {found : Found α}
      (free : f.required = false) (rest : Written fs ms found) : Written (f :: fs) ms found

theorem Written.must {name : String} {d : Decoder β} {set : β → α → α} {v : Value} {b : β}
    {fs : List (Field α)} {ms : List (String × Value)} {found : Found α} (fits : d.fit v = .ok b)
    (rest : Written fs ms found) :
    Written (.must name d set :: fs) ((name, v) :: ms) ((name, set b) :: found) :=
  .given (f := .must name d set) (Decoder.map_fit set fits) rest

theorem Written.may {name : String} {d : Decoder β} {set : β → α → α} {v : Value} {b : β}
    {fs : List (Field α)} {ms : List (String × Value)} {found : Found α} (fits : d.fit v = .ok b)
    (rest : Written fs ms found) :
    Written (.may name d set :: fs) ((name, v) :: ms) ((name, set b) :: found) :=
  .given (f := .may name d set) (Decoder.map_fit set fits) rest

theorem Written.found_names {fs : List (Field α)} {ms : List (String × Value)} {found : Found α}
    (written : Written fs ms found) : (found.map Prod.fst).Sublist (fs.map (·.name)) := by
  induction written with
  | nil => exact .slnil
  | given fits rest ih => exact ih.cons_cons _
  | absent free rest ih => exact ih.cons _

theorem lookup_none {found : Found α} {name : String} (absent : name ∉ found.map Prod.fst) :
    found.lookup name = none := by
  rw [List.lookup_eq_none_iff]
  intro entry member
  have other : name ≠ entry.1 := fun same => absent (same ▸ List.mem_map_of_mem member)
  simpa using other

theorem hasField_eq (found : Found α) (name : String) :
    hasField found name = (found.lookup name).isSome := by
  induction found with
  | nil => rfl
  | cons entry found ih =>
    rw [hasField, List.any_cons, List.lookup_cons]
    by_cases same : entry.1 = name
    · simp [same]
    · have other : (name == entry.1) = false := by simpa using Ne.symm same
      simp only [same, other, decide_false, Bool.false_or]
      exact ih

theorem field?_of_mem {r : Record α} (unique : (r.fields.map (·.name)).Nodup) :
    ∀ f ∈ r.fields, r.field? f.name = some f := by
  unfold field?
  generalize r.fields = fs at unique ⊢
  induction fs with
  | nil => nofun
  | cons g fs ih =>
    obtain ⟨fresh, unique⟩ := List.nodup_cons.mp unique
    intro f member
    rcases List.mem_cons.mp member with rfl | later
    · simp
    · have other : g.name ≠ f.name := fun same => fresh (List.mem_map.mpr ⟨f, later, same.symm⟩)
      simp [other, ih unique f later]

theorem lookup_cons_fresh {f : Field α} {fs : List (Field α)} {done : Found α} (change : α → α)
    (absent : f.name ∉ fs.map (·.name)) (fresh : ∀ g ∈ fs, done.lookup g.name = none) :
    ∀ g ∈ fs, ((f.name, change) :: done).lookup g.name = none := by
  intro g later
  have other : g.name ≠ f.name := fun same => absent (List.mem_map.mpr ⟨g, later, same⟩)
  rw [List.lookup_cons, beq_false_of_ne other]
  exact fresh g later

/-- Every member is taken up for its field. -/
theorem foldlM_written {r : Record α} {fs : List (Field α)} {ms : List (String × Value)}
    {found : Found α} (written : Written fs ms found) (done : Found α)
    (known : ∀ f ∈ fs, r.field? f.name = some f) (unique : (fs.map (·.name)).Nodup)
    (fresh : ∀ f ∈ fs, done.lookup f.name = none) :
    ms.foldlM r.fitMember done = .ok (found.reverse ++ done) := by
  -- What is done belongs to the fields in front, so that no member meets a field of its own twice.
  induction written generalizing done with
  | nil => rfl
  | @given f v change fs ms found fits rest ih =>
    obtain ⟨here, known⟩ := List.forall_mem_cons.mp known
    obtain ⟨new, fresh⟩ := List.forall_mem_cons.mp fresh
    obtain ⟨absent, unique⟩ := List.nodup_cons.mp unique
    have taken : r.fitMember done (f.name, v) = .ok ((f.name, change) :: done) := by
      simp only [fitMember, here, hasField_eq, new, fits]
      rfl
    have later := ih _ known unique (lookup_cons_fresh change absent fresh)
    rw [List.foldlM_cons, taken, List.reverse_cons, List.append_assoc]
    exact later
  | absent free rest ih =>
    exact ih done (List.forall_mem_cons.mp known).2 (List.nodup_cons.mp unique).2
      (List.forall_mem_cons.mp fresh).2

theorem lookup_reverse_append {found done : Found α} {name : String}
    (absent : name ∉ found.map Prod.fst) :
    (found.reverse ++ done).lookup name = done.lookup name := by
  rw [List.lookup_append, lookup_none (by simpa using absent), Option.none_or]

/-- No field is missed, and each one that was found makes its change. -/
theorem changes_written {fs : List (Field α)} {ms : List (String × Value)} {found : Found α}
    (written : Written fs ms found) (unique : (fs.map (·.name)).Nodup) (done : Found α)
    (fresh : ∀ f ∈ fs, done.lookup f.name = none) (draft : α) :
    (fs.find? fun f => f.required && !hasField (found.reverse ++ done) f.name) = none ∧
    fs.foldl (fun draft f =>
      match (found.reverse ++ done).lookup f.name with
      | some change => change draft
      | none => draft) draft = found.foldl (fun draft entry => entry.2 draft) draft := by
  -- Names are distinct, so the look-up of a field passes over what was found for later ones.
  induction written generalizing done draft with
  | nil => exact ⟨rfl, rfl⟩
  | @given f v change fs ms found fits rest ih =>
    obtain ⟨new, fresh⟩ := List.forall_mem_cons.mp fresh
    obtain ⟨absent, unique⟩ := List.nodup_cons.mp unique
    obtain ⟨complete, changed⟩ :=
      ih unique _ (lookup_cons_fresh change absent fresh) (change draft)
    have here : (found.reverse ++ (f.name, change) :: done).lookup f.name = some change := by
      rw [lookup_reverse_append fun member => absent (rest.found_names.mem member)]
      simp
    rw [List.reverse_cons, List.append_assoc, List.singleton_append]
    refine ⟨?_, ?_⟩
    · simpa [List.find?_cons, hasField_eq, here] using complete
    · rw [List.foldl_cons, here, changed, List.foldl_cons]
  | @absent f fs ms found free rest ih =>
    obtain ⟨new, fresh⟩ := List.forall_mem_cons.mp fresh
    obtain ⟨absent, unique⟩ := List.nodup_cons.mp unique
    obtain ⟨complete, changed⟩ := ih unique done fresh draft
    have here : (found.reverse ++ done).lookup f.name = none := by
      rw [lookup_reverse_append fun member => absent (rest.found_names.mem member), new]
    refine ⟨?_, ?_⟩
    · simpa [List.find?_cons, free] using complete
    · rw [List.foldl_cons, here, changed]

/-- The members that are written for a record make the record again. -/
theorem fitMembers_written {r : Record α} {ms : List (String × Value)} {found : Found α} {a : α}
    (unique : (r.fields.map (·.name)).Nodup) (written : Written r.fields ms found)
    (made : found.foldl (fun draft entry => entry.2 draft) r.blank = a) :
    r.fitMembers ms = .ok a := by
  have taken := foldlM_written written [] (field?_of_mem unique) unique fun _ _ => rfl
  obtain ⟨complete, changed⟩ := changes_written written unique [] (fun _ _ => rfl) r.blank
  rw [List.append_nil] at taken complete changed
  simp only [fitMembers, taken, finish, complete]
  exact congrArg Except.ok (changed.trans made)

theorem decoder_written {r : Record α} {ms : List (String × Value)} {found : Found α} {a : α}
    (unique : (r.fields.map (·.name)).Nodup) (written : Written r.fields ms found)
    (made : found.foldl (fun draft entry => entry.2 draft) r.blank = a) :
    r.decoder.fit (.object ms) = .ok a :=
  fitMembers_written unique written made

theorem payload_written {r : Record α} {ms : List (String × Value)} {found : Found α} {a : α}
    (f : α → β) (unique : (r.fields.map (·.name)).Nodup) (written : Written r.fields ms found)
    (made : found.foldl (fun draft entry => entry.2 draft) r.blank = a) :
    (r.payload f).ofMembers ms = .ok (f a) := by
  rw [payload]
  simp only [fitMembers_written unique written made]
  rfl

end Record

namespace Tagged

variable {α : Type} {t : Tagged α} {name : String} {payload : Payload α}
  {ms : List (String × Value)}

theorem readTag_written (known : t.variants.lookup name = some payload) (rest : List Char) :
    t.readTag ((Value.text name).print ++ rest) = .ok (payload, rest) := by
  obtain ⟨cs, quoted, read⟩ := literal_writeText name rest
  rw [Value.print, quoted]
  simp only [readTag, dropSpace_cons cs (show isSpace '"' = false from rfl), read, Decoder.variant,
    known]

/-- An object that begins with its tag is read as the variant of that name. -/
theorem read_written {depth : Nat} (known : t.variants.lookup name = some payload)
    (fits : ∀ m ∈ ms, m.1 ≠ tag ∧ m.2.Fits depth) (rest : List Char) :
    t.read (depth + 1) ((taggedValue name ms).print ++ rest) = .ok (payload.ofMembers ms, rest) := by
  have first : ∀ rest, EndsNumeral rest → t.readMember depth (none, []) tag
      (':' :: ((Value.text name).print ++ rest)) = .ok ((some payload, []), rest) := by
    intro rest _
    have found : colon (':' :: ((Value.text name).print ++ rest)) =
        .ok ((Value.text name).print ++ rest) := rfl
    simp only [readMember, if_true, afterColon, found, readTag_written known]
    rfl
  have takes : ∀ (state : Partial α), ∀ m ∈ ms, ∀ rest, EndsNumeral rest →
      t.readMember depth state m.1 (':' :: (m.2.print ++ rest)) =
        .ok ((state.1, m :: state.2), rest) := by
    intro state m member rest ends
    obtain ⟨other, fits⟩ := fits m member
    simp only [readMember, other, if_false, pushMember_written (value_written fits) _ _ ends]
    rfl
  have kept : ∀ done : List (String × Value), ms.foldl (fun (state : Partial α) m =>
      (state.1, m :: state.2)) (some payload, done) = (some payload, ms.reverse ++ done) := by
    intro done
    clear fits takes
    induction ms generalizing done with
    | nil => rfl
    | cons m ms ih => simp [ih]
  have read := members_written _ rest first takes
  simp only [taggedValue, Value.print, List.cons_append, List.append_assoc, Tagged.read,
    dropSpace_cons _ (show isSpace '\x7b' = false from rfl)]
  simp only [Value.print] at read
  rw [read, kept]
  simp

/-- An object that begins with its tag is decoded as the variant of that name. -/
theorem decode_written {a : α} (known : t.variants.lookup name = some payload)
    (fits : ∀ m ∈ ms, m.1 ≠ tag ∧ m.2.Fits 126) (made : payload.ofMembers ms = .ok a) :
    t.decode (taggedValue name ms).toText = .ok a := by
  have read := read_written known fits []
  rw [List.append_nil, made] at read
  simp only [decode, nestingLimit, Value.toText, String.toList_ofList, read]
  rfl

end Tagged

end Keymap.Json
