import Keymap.Json.Read
import Keymap.Proofs.Literal
import Keymap.Proofs.Numeral

/-! Values can be read back from their text, as long as they are not nested too deeply and hold no
numbers but those of 64 bits without a sign. -/
namespace Keymap.Json

/-- A value with at most `depth` brackets open at once, all of whose numbers are natural. -/
inductive Value.Fits : Nat → Value → Prop where
  | null {depth : Nat} : Fits depth .null
  | flag {depth : Nat} (b : Bool) : Fits depth (.flag b)
  | natural {depth : Nat} (n : UInt64) : Fits depth (.number (.natural n))
  | text {depth : Nat} (s : String) : Fits depth (.text s)
  | list {depth : Nat} {vs : List Value} (items : ∀ v ∈ vs, Fits depth v) :
      Fits (depth + 1) (.list vs)
  | object {depth : Nat} {ms : List (String × Value)} (members : ∀ m ∈ ms, Fits depth m.2) :
      Fits (depth + 1) (.object ms)

def Reads (scan : Scan Value) (v : Value) : Prop :=
  ∀ rest, EndsNumeral rest → scan (v.print ++ rest) = .ok (v, rest)

theorem printItems_ends (vs : List Value) (rest : List Char) :
    EndsNumeral (printItems vs ++ rest) := by
  cases vs <;> (rintro c ⟨⟩; decide)

theorem printMembers_ends (ms : List (String × Value)) (rest : List Char) :
    EndsNumeral (printMembers ms ++ rest) := by
  cases ms <;> (rintro c ⟨⟩; decide)

theorem length_printItems (vs : List Value) : vs.length < (printItems vs).length := by
  induction vs with
  | nil => simp [printItems]
  | cons v vs ih =>
    simp only [printItems, List.length_cons, List.length_append]
    omega

theorem length_printMembers (ms : List (String × Value)) : ms.length < (printMembers ms).length := by
  induction ms with
  | nil => simp [printMembers]
  | cons m ms ih =>
    simp only [printMembers, List.length_cons, List.length_append]
    omega

theorem dropSpace_cons {c : Char} (cs : List Char) (dark : isSpace c = false) :
    dropSpace (c :: cs) = c :: cs := by
  simp [dropSpace, dark]

theorem digit_ne {c d : Char} (digit : c.isDigit = true) (other : d.isDigit = false) : c ≠ d := by
  rintro rfl
  simp [digit] at other

theorem digit_dark {c : Char} (digit : c.isDigit = true) : isSpace c = false := by
  simp [isSpace, digit_ne digit (d := ' ') rfl, digit_ne digit (d := '\n') rfl,
    digit_ne digit (d := '\t') rfl, digit_ne digit (d := '\r') rfl]

theorem digits_head (n : Nat) :
    ∃ c cs, Nat.toDigits 10 n = c :: cs ∧ c.isDigit = true := by
  obtain ⟨c, cs, digits⟩ := List.exists_cons_of_ne_nil (Nat.toDigits_ne_nil (n := n) (b := 10))
  have member : c ∈ Nat.toDigits 10 n := digits ▸ List.mem_cons_self
  exact ⟨c, cs, digits, Nat.isDigit_of_mem_toDigits (by decide) (by decide) member⟩

/-- The text of a value begins like no space and like no end of a list. -/
theorem Value.Fits.head {depth : Nat} {v : Value} (fits : v.Fits depth) :
    ∃ c cs, v.print = c :: cs ∧ isSpace c = false ∧ c ≠ ']' := by
  cases fits with
  | null => exact ⟨_, _, rfl, by decide, by decide⟩
  | flag b => cases b <;> exact ⟨_, _, rfl, by decide, by decide⟩
  | natural n =>
    obtain ⟨c, cs, digits, digit⟩ := digits_head n.toNat
    exact ⟨c, cs, digits, digit_dark digit, digit_ne digit rfl⟩
  | text s => exact ⟨_, _, rfl, by decide, by decide⟩
  | @list _ vs items => cases vs <;> exact ⟨_, _, rfl, by decide, by decide⟩
  | @object _ ms members => cases ms <;> exact ⟨_, _, rfl, by decide, by decide⟩

theorem nextItem_first {c : Char} (cs : List Char) (dark : isSpace c = false) (item : c ≠ ']') :
    nextItem true (c :: cs) = .ok (true, c :: cs) := by
  rw [nextItem, dropSpace_cons cs dark]
  split
  · contradiction
  · simp_all
  · simp_all

theorem nextItem_comma {c : Char} (cs : List Char) (dark : isSpace c = false) (item : c ≠ ']') :
    nextItem false (',' :: c :: cs) = .ok (true, c :: cs) := by
  have comma : dropSpace (',' :: c :: cs) = ',' :: c :: cs := dropSpace_cons _ rfl
  simp [nextItem, comma, dropSpace_cons cs dark, item]

section Folds

variable {σ : Type} (next : σ → Value → σ) (rest : List Char)

/-- The items of a list are taken up one by one. -/
theorem foldItems_written {onItem : σ → Scan σ} {depth : Nat} {vs : List Value} {bound : Nat}
    (s : σ) (enough : vs.length < bound) (fits : ∀ v ∈ vs, v.Fits depth)
    (takes : ∀ s, ∀ v ∈ vs, ∀ rest, EndsNumeral rest →
      onItem s (v.print ++ rest) = .ok (next s v, rest)) :
    foldItems onItem bound false s (printItems vs ++ rest) = .ok (vs.foldl next s, rest) := by
  induction vs generalizing s bound with
  | nil =>
    obtain ⟨bound, rfl⟩ := Nat.exists_eq_add_one_of_ne_zero (Nat.ne_of_gt enough)
    rfl
  | cons v vs ih =>
    obtain ⟨bound, rfl⟩ := Nat.exists_eq_add_one_of_ne_zero (Nat.ne_of_gt (Nat.zero_lt_of_lt enough))
    obtain ⟨c, cs, text, dark, item⟩ := (fits v List.mem_cons_self).head
    have taken := takes s v List.mem_cons_self (printItems vs ++ rest) (printItems_ends vs rest)
    rw [text, List.cons_append] at taken
    simp only [printItems, text, List.cons_append, List.append_assoc, foldItems,
      nextItem_comma _ dark item, taken, List.foldl_cons]
    apply ih
    · simpa using enough
    · exact fun v later => fits v (List.mem_cons_of_mem _ later)
    · exact fun s v later => takes s v (List.mem_cons_of_mem _ later)

theorem items_written {onItem : σ → Scan σ} {depth : Nat} {v : Value} {vs : List Value}
    (s : σ) (fits : ∀ w ∈ v :: vs, w.Fits depth)
    (takes : ∀ s, ∀ w ∈ v :: vs, ∀ rest, EndsNumeral rest →
      onItem s (w.print ++ rest) = .ok (next s w, rest)) :
    items onItem s (v.print ++ (printItems vs ++ rest)) = .ok ((v :: vs).foldl next s, rest) := by
  obtain ⟨c, cs, text, dark, item⟩ := (fits v List.mem_cons_self).head
  have taken := takes s v List.mem_cons_self (printItems vs ++ rest) (printItems_ends vs rest)
  have enough := length_printItems vs
  rw [text, List.cons_append] at taken
  simp only [items, text, List.cons_append, foldItems, nextItem_first _ dark item, taken,
    List.foldl_cons]
  apply foldItems_written
  · simp only [List.length_cons, List.length_append]
    omega
  · exact fun w later => fits w (List.mem_cons_of_mem _ later)
  · exact fun s w later => takes s w (List.mem_cons_of_mem _ later)

end Folds

section Members

variable {σ : Type} {onMember : σ → String → Scan σ} (next : σ → String × Value → σ)
  (rest : List Char)

theorem literal_writeText (name : String) (rest : List Char) :
    ∃ cs, writeText name ++ rest = '"' :: cs ∧ literal cs = .ok (name, rest) :=
  ⟨_, by simp [writeText], literal_written name rest⟩

/-- The members of an object are taken up one by one. -/
theorem foldMembers_written {ms : List (String × Value)} {bound : Nat} (s : σ)
    (enough : ms.length < bound)
    (takes : ∀ s, ∀ m ∈ ms, ∀ rest, EndsNumeral rest →
      onMember s m.1 (':' :: (m.2.print ++ rest)) = .ok (next s m, rest)) :
    foldMembers onMember bound false s (printMembers ms ++ rest) = .ok (ms.foldl next s, rest) := by
  induction ms generalizing s bound with
  | nil =>
    obtain ⟨bound, rfl⟩ := Nat.exists_eq_add_one_of_ne_zero (Nat.ne_of_gt enough)
    rfl
  | cons m ms ih =>
    obtain ⟨bound, rfl⟩ := Nat.exists_eq_add_one_of_ne_zero (Nat.ne_of_gt (Nat.zero_lt_of_lt enough))
    obtain ⟨name, v⟩ := m
    obtain ⟨cs, quoted, read⟩ := literal_writeText name (':' :: (v.print ++ (printMembers ms ++ rest)))
    have taken := takes s (name, v) List.mem_cons_self _ (printMembers_ends ms rest)
    have found : nextMember false (',' :: '"' :: cs) = .ok (true, cs) := rfl
    simp only [printMembers, List.cons_append, List.append_assoc, quoted, foldMembers, found, read,
      taken, List.foldl_cons]
    apply ih
    · simpa using enough
    · exact fun s m later => takes s m (List.mem_cons_of_mem _ later)

/-- The first member may be treated unlike the other ones. -/
theorem members_written {name : String} {v : Value} {ms : List (String × Value)} {s s' : σ}
    (first : ∀ rest, EndsNumeral rest →
      onMember s name (':' :: (v.print ++ rest)) = .ok (s', rest))
    (takes : ∀ s, ∀ m ∈ ms, ∀ rest, EndsNumeral rest →
      onMember s m.1 (':' :: (m.2.print ++ rest)) = .ok (next s m, rest)) :
    members onMember s (writeText name ++ ':' :: (v.print ++ (printMembers ms ++ rest))) =
      .ok (ms.foldl next s', rest) := by
  obtain ⟨cs, quoted, read⟩ := literal_writeText name (':' :: (v.print ++ (printMembers ms ++ rest)))
  have found : nextMember true ('"' :: cs) = .ok (true, cs) := rfl
  have enough := length_printMembers ms
  have lengths := congrArg List.length quoted
  simp only [List.length_append, List.length_cons] at lengths
  simp only [members, quoted, foldMembers, found, read, first _ (printMembers_ends ms rest)]
  refine foldMembers_written next rest s' ?_ takes
  simp only [List.length_cons]
  omega

end Members

theorem pushItem_written {scan : Scan Value} {v : Value} (reads : Reads scan v) (done : List Value)
    {rest : List Char} (ends : EndsNumeral rest) :
    pushItem scan done (v.print ++ rest) = .ok (v :: done, rest) := by
  rw [pushItem, reads rest ends]
  rfl

theorem pushMember_written {scan : Scan Value} {v : Value} (reads : Reads scan v)
    (done : List (String × Value)) (name : String) {rest : List Char} (ends : EndsNumeral rest) :
    pushMember scan done name (':' :: (v.print ++ rest)) = .ok ((name, v) :: done, rest) := by
  have found : colon (':' :: (v.print ++ rest)) = .ok (v.print ++ rest) := rfl
  simp only [pushMember, afterColon, found, reads rest ends]
  rfl

/-- What begins with no space and no bracket is read as a scalar. -/
theorem value_scalar {c : Char} (depth : Nat) (cs : List Char) (dark : isSpace c = false)
    (list : c ≠ '[') (object : c ≠ '\x7b') : value depth (c :: cs) = scalar (c :: cs) := by
  cases depth <;> simp [value, dropSpace_cons cs dark, list, object]

theorem scalar_digit {c : Char} (cs : List Char) (digit : c.isDigit = true) :
    scalar (c :: cs) = (numeral false (c :: cs)).map fun (n, rest) => (.number n, rest) := by
  simp [scalar, dropSpace_cons cs (digit_dark digit), digit, digit_ne digit (d := 'n') rfl,
    digit_ne digit (d := 't') rfl, digit_ne digit (d := 'f') rfl, digit_ne digit (d := '"') rfl,
    digit_ne digit (d := '-') rfl]

/-- A value is read back from its text. -/
theorem value_written {depth : Nat} {v : Value} (fits : v.Fits depth) : Reads (value depth) v := by
  -- Only a numeral needs to know what follows it; a comma or a bracket ends it inside a value.
  induction fits with
  | null =>
    intro rest _
    exact value_scalar _ _ rfl (by decide) (by decide)
  | flag b =>
    intro rest _
    cases b <;> exact value_scalar _ _ rfl (by decide) (by decide)
  | natural n =>
    intro rest ends
    obtain ⟨c, cs, digits, digit⟩ := digits_head n.toNat
    have read := numeral_written n ends
    rw [digits] at read
    rw [Value.print, Number.print, digits, List.cons_append,
      value_scalar _ _ (digit_dark digit) (digit_ne digit rfl) (digit_ne digit rfl),
      scalar_digit _ digit, ← List.cons_append, read]
    rfl
  | text s =>
    intro rest _
    obtain ⟨cs, quoted, read⟩ := literal_writeText s rest
    rw [Value.print, quoted, value_scalar _ _ rfl (by decide) (by decide)]
    simp only [scalar, dropSpace_cons cs (show isSpace '"' = false from rfl), read]
    rfl
  | @list depth vs items ih =>
    intro rest _
    cases vs with
    | nil => rfl
    | cons v vs =>
      have read := items_written (fun done v => v :: done) rest [] items
        fun s w member rest ends => pushItem_written (ih w member) s ends
      simp only [Value.print, List.cons_append, List.append_assoc, value,
        dropSpace_cons _ (show isSpace '[' = false from rfl), read]
      simp [Except.map]
  | @object depth ms members ih =>
    intro rest _
    cases ms with
    | nil => rfl
    | cons m ms =>
      obtain ⟨name, v⟩ := m
      have read := members_written (fun done m => m :: done) rest
        (fun rest ends => pushMember_written (ih (name, v) List.mem_cons_self) [] name ends)
        (fun s m later rest ends =>
          pushMember_written (ih m (List.mem_cons_of_mem _ later)) s m.1 ends)
      simp only [Value.print, List.cons_append, List.append_assoc, value,
        dropSpace_cons _ (show isSpace '\x7b' = false from rfl), read]
      simp [Except.map]

theorem printItems_printable {vs : List Value}
    (items : ∀ v ∈ vs, ∀ c ∈ v.print, 0x20 ≤ c.toNat) : ∀ c ∈ printItems vs, 0x20 ≤ c.toNat := by
  induction vs with
  | nil => simp [printItems]
  | cons v vs ih =>
    simp only [printItems, List.cons_append, List.forall_mem_cons, List.forall_mem_append] at items ⊢
    exact ⟨by decide, items.1, ih items.2⟩

theorem printMembers_printable {ms : List (String × Value)}
    (members : ∀ m ∈ ms, ∀ c ∈ m.2.print, 0x20 ≤ c.toNat) :
    ∀ c ∈ printMembers ms, 0x20 ≤ c.toNat := by
  induction ms with
  | nil => simp [printMembers]
  | cons m ms ih =>
    simp only [printMembers, List.cons_append, List.forall_mem_cons, List.forall_mem_append]
      at members ⊢
    exact ⟨by decide, ⟨writeText_printable m.1, by decide, members.1⟩, ih members.2⟩

/-- No control character, a line end least of all, is written for a value. -/
theorem Value.Fits.printable {depth : Nat} {v : Value} (fits : v.Fits depth) :
    ∀ c ∈ v.print, 0x20 ≤ c.toNat := by
  induction fits with
  | null => simp [Value.print]
  | flag b => cases b <;> simp [Value.print]
  | natural n => exact toDigits_printable n.toNat
  | text s => exact writeText_printable s
  | @list _ vs _ ih =>
    cases vs with
    | nil => simp [Value.print]
    | cons v vs =>
      have rest := printItems_printable fun w later => ih w (List.mem_cons_of_mem _ later)
      simp only [Value.print, List.cons_append, List.forall_mem_cons, List.forall_mem_append]
      exact ⟨by decide, ih v List.mem_cons_self, rest⟩
  | @object _ ms _ ih =>
    cases ms with
    | nil => simp [Value.print]
    | cons m ms =>
      have rest := printMembers_printable fun w later => ih w (List.mem_cons_of_mem _ later)
      simp only [Value.print, List.cons_append, List.forall_mem_cons, List.forall_mem_append]
      exact ⟨by decide, ⟨writeText_printable m.1, by decide, ih m List.mem_cons_self⟩, rest⟩

end Keymap.Json
