import Keymap.Proofs.Trimming
import Keymap.Text.Lower

/-! Lower-casing done twice is lower-casing done once: no lower-case letter is a capital of the
table, and a sigma in either of its small forms stays as it is. Nor does lower-casing make blanks,
and since a blank ends every word it does not matter whether blank ends are taken off before or
after it. -/
namespace Keymap.Text

def CaseRun.imagesMiss (run : CaseRun) (first last : Nat) : Bool :=
  last.blt run.image || (run.image + (run.last - run.first)).blt first

/-- No lower-case letter of one run is a capital of the other one. In runs of every second code
point capitals and letters may alternate. -/
def CaseRun.isApart (run other : CaseRun) : Bool :=
  run.imagesMiss other.first other.last ||
    ((run.step == 2 || run.first == run.last) && other.step == 2 &&
      run.image % 2 != other.first % 2)

def CaseRun.isPlain (run : CaseRun) : Bool :=
  run.imagesMiss 0xD800 0xDFFF && (run.image + (run.last - run.first)).blt 0x110000 &&
    run.imagesMiss 'Σ'.toNat 'Σ'.toNat && run.imagesMiss 'İ'.toNat 'İ'.toNat &&
    blankRanges.all fun range => run.imagesMiss range.1 range.2

theorem capitals_apart : (capitals.all fun run => capitals.all run.isApart) = true := by
  decide +kernel

theorem capitals_plain : capitals.all CaseRun.isPlain = true := by decide +kernel

def CaseRun.IsImage (run : CaseRun) (m : Nat) : Prop :=
  ∃ n, run.contains n ∧ m = run.image + (n - run.first)

theorem imageIn_eq_some {runs : List CaseRun} {n m : Nat} (found : imageIn runs n = some m) :
    ∃ run ∈ runs, run.contains n ∧ m = run.image + (n - run.first) := by
  induction runs with
  | nil => contradiction
  | cons run runs ih =>
    rw [imageIn] at found
    split at found
    · contradiction
    split at found
    next held => exact ⟨run, List.mem_cons_self, held, (Option.some.inj found).symm⟩
    next =>
      obtain ⟨other, member, image⟩ := ih found
      exact ⟨other, List.mem_cons_of_mem _ member, image⟩

theorem imageIn_eq_none {runs : List CaseRun} {n : Nat}
    (outside : ∀ run ∈ runs, run.contains n = false) : imageIn runs n = none := by
  induction runs with
  | nil => rfl
  | cons run runs ih =>
    obtain ⟨here, later⟩ := List.forall_mem_cons.mp outside
    simp [imageIn, here, ih later]

variable {run : CaseRun} {m : Nat}

theorem CaseRun.IsImage.bounds (image : run.IsImage m) :
    run.image ≤ m ∧ m ≤ run.image + (run.last - run.first) := by
  obtain ⟨n, held, rfl⟩ := image
  simp only [CaseRun.contains, Bool.and_eq_true, decide_eq_true_eq] at held
  omega

theorem CaseRun.IsImage.outside {first last : Nat} (image : run.IsImage m)
    (misses : run.imagesMiss first last = true) : ¬(first ≤ m ∧ m ≤ last) := by
  obtain ⟨low, high⟩ := image.bounds
  simp only [CaseRun.imagesMiss, Bool.or_eq_true, Nat.blt_eq] at misses
  omega

theorem CaseRun.IsImage.apart {other : CaseRun} (image : run.IsImage m)
    (apart : run.isApart other = true) : other.contains m = false := by
  rw [Bool.eq_false_iff]
  intro capital
  simp only [CaseRun.contains, Bool.and_eq_true, decide_eq_true_eq, beq_iff_eq] at capital
  simp only [CaseRun.isApart, Bool.or_eq_true, Bool.and_eq_true, bne_iff_ne, beq_iff_eq] at apart
  rcases apart with misses | ⟨⟨alternating, step⟩, parity⟩
  · exact image.outside misses capital.1
  · -- Both the letters of the run and the capitals of the other keep their parity.
    obtain ⟨n, held, rfl⟩ := image
    simp only [CaseRun.contains, Bool.and_eq_true, decide_eq_true_eq, beq_iff_eq] at held
    rw [step] at capital
    rcases alternating with two | single
    · rw [two] at held
      omega
    · omega

structure Settled (c : Char) : Prop where
  sigma : c ≠ 'Σ'
  same : lowerChar c = [c]

theorem toNat_ofNat (valid : m.isValidChar) : (Char.ofNat m).toNat = m := by
  rw [Char.ofNat, dif_pos valid]
  rfl

theorem of_memRanges {ranges : List (Nat × Nat)} (member : memRanges ranges m = true) :
    ∃ range ∈ ranges, range.1 ≤ m ∧ m ≤ range.2 := by
  induction ranges with
  | nil => contradiction
  | cons range ranges ih =>
    simp only [memRanges, Bool.and_eq_true, Bool.or_eq_true, decide_eq_true_eq] at member
    rcases member with ⟨low, high | above⟩
    · exact ⟨range, List.mem_cons_self, low, high⟩
    · obtain ⟨other, held, within⟩ := ih above
      exact ⟨other, List.mem_cons_of_mem _ held, within⟩

/-- The lower-case letter of a capital is a character among those of a run of the table. -/
theorem image_origin {n : Nat} (found : imageIn capitals n = some m) :
    ∃ run ∈ capitals, run.IsImage m ∧ run.isPlain ∧ (Char.ofNat m).toNat = m := by
  obtain ⟨run, member, held, same⟩ := imageIn_eq_some found
  have image : run.IsImage m := ⟨n, held, same⟩
  have plain := List.all_eq_true.mp capitals_plain run member
  refine ⟨run, member, image, plain, ?_⟩
  simp only [CaseRun.isPlain, Bool.and_eq_true, Nat.blt_eq] at plain
  obtain ⟨⟨⟨⟨surrogate, below⟩, -⟩, -⟩, -⟩ := plain
  have bounds := image.bounds
  have outside := image.outside surrogate
  apply toNat_ofNat
  unfold Nat.isValidChar
  omega

theorem settled_image {n : Nat} (found : imageIn capitals n = some m) :
    Settled (Char.ofNat m) ∧ isBlank (Char.ofNat m) = false := by
  obtain ⟨run, member, image, plain, number⟩ := image_origin found
  have apart := List.all_eq_true.mp (List.all_eq_true.mp capitals_apart run member)
  simp only [CaseRun.isPlain, Bool.and_eq_true, List.all_eq_true] at plain
  obtain ⟨⟨⟨-, sigma⟩, dotted⟩, dark⟩ := plain
  have none := imageIn_eq_none fun other held => image.apart (apart other held)
  have unlike {c : Char} (misses : run.imagesMiss c.toNat c.toNat = true) : Char.ofNat m ≠ c := by
    intro same
    have outside := image.outside misses
    rw [← same, number] at outside
    omega
  refine ⟨⟨unlike sigma, ?_⟩, ?_⟩
  · rw [lowerChar, if_neg (unlike dotted), number, none]
  · rw [Bool.eq_false_iff, isBlank, number]
    intro blank
    obtain ⟨range, held, within⟩ := of_memRanges blank
    exact image.outside (dark range held) within

def lowerAt (before : List Char) (c : Char) (rest : List Char) : List Char :=
  if c = 'Σ' then [lowerSigma before rest] else lowerChar c

theorem lowerFrom_cons (before : List Char) (c : Char) (rest : List Char) :
    lowerFrom before (c :: rest) = lowerAt before c rest ++ lowerFrom (c :: before) rest := rfl

/-- The small forms of the capital sigma, and the dotted capital I with its dot as a mark. -/
def specialForms : List (List Char) := [['ς'], ['σ'], ['i', '\u0307']]

/-- A character that lower-casing treats apart takes a special form, a capital of the table becomes
its letter, and every other character stays as it is. -/
theorem lowerAt_cases (before : List Char) (c : Char) (rest : List Char) :
    lowerAt before c rest ∈ specialForms ∨
      (∃ m, imageIn capitals c.toNat = some m ∧ lowerAt before c rest = [Char.ofNat m]) ∨
      Settled c ∧ lowerAt before c rest = [c] := by
  unfold lowerAt
  split
  · rw [lowerSigma]
    split
    · exact .inl (by decide)
    · exact .inl (by decide)
  next plain =>
    unfold lowerChar
    split
    · exact .inl (by decide)
    next undotted =>
      split
      next m found => exact .inr (.inl ⟨m, found, rfl⟩)
      next none =>
        have same : lowerChar c = [c] := by rw [lowerChar, if_neg undotted, none]
        exact .inr (.inr ⟨⟨plain, same⟩, rfl⟩)

theorem lowerAt_ne_nil (before : List Char) (c : Char) (rest : List Char) :
    lowerAt before c rest ≠ [] := by
  intro empty
  rcases lowerAt_cases before c rest with special | ⟨_, _, lowered⟩ | ⟨_, lowered⟩
  · rw [empty] at special
    exact absurd special (by decide)
  · exact List.cons_ne_nil _ _ (lowered.symm.trans empty)
  · exact List.cons_ne_nil _ _ (lowered.symm.trans empty)

theorem settled_special : ∀ form ∈ specialForms, ∀ d ∈ form, Settled d ∧ isBlank d = false := by
  have settled : (specialForms.all fun form =>
      form.all fun d => d != 'Σ' && lowerChar d == [d] && !isBlank d) = true := by decide
  intro form known d member
  have here := List.all_eq_true.mp (List.all_eq_true.mp settled form known) d member
  simp only [Bool.and_eq_true, bne_iff_ne, beq_iff_eq, Bool.not_eq_true'] at here
  exact ⟨⟨here.1.1, here.1.2⟩, here.2⟩

theorem settled_lowerAt {before : List Char} {c : Char} {rest : List Char} :
    ∀ d ∈ lowerAt before c rest, Settled d ∧ (isBlank c = false → isBlank d = false) := by
  intro d member
  rcases lowerAt_cases before c rest with special | ⟨m, found, lowered⟩ | ⟨settled, lowered⟩
  · exact (settled_special _ special d member).imp_right fun dark _ => dark
  · rw [lowered, List.mem_singleton] at member
    rw [member]
    exact (settled_image found).imp_right fun dark _ => dark
  · rw [lowered, List.mem_singleton] at member
    rw [member]
    exact ⟨settled, fun dark => dark⟩

theorem settled_lowerFrom (before cs : List Char) : ∀ d ∈ lowerFrom before cs, Settled d := by
  induction cs generalizing before with
  | nil => nofun
  | cons c rest ih =>
    rw [lowerFrom_cons, List.forall_mem_append]
    exact ⟨fun d member => (settled_lowerAt d member).1, ih _⟩

theorem lowerFrom_of_settled {before cs : List Char} (settled : ∀ c ∈ cs, Settled c) :
    lowerFrom before cs = cs := by
  induction cs generalizing before with
  | nil => rfl
  | cons c rest ih =>
    obtain ⟨here, later⟩ := List.forall_mem_cons.mp settled
    rw [lowerFrom_cons, lowerAt, if_neg here.sigma, here.same, ih later]
    rfl

theorem lowerFrom_ne_nil (before : List Char) {cs : List Char} (some : cs ≠ []) :
    lowerFrom before cs ≠ [] := by
  obtain ⟨c, rest, rfl⟩ := List.exists_cons_of_ne_nil some
  rw [lowerFrom_cons]
  exact fun empty => lowerAt_ne_nil _ _ _ (List.append_eq_nil_iff.mp empty).1

theorem lowerFrom_last {before cs : List Char} (dark : ∀ c ∈ cs.getLast?, isBlank c = false) :
    ∀ d ∈ (lowerFrom before cs).getLast?, isBlank d = false := by
  induction cs generalizing before with
  | nil => nofun
  | cons c rest ih =>
    intro d last
    rw [lowerFrom_cons] at last
    cases rest with
    | nil =>
      rw [lowerFrom, List.append_nil] at last
      exact (settled_lowerAt d (List.mem_of_getLast? last)).2 (dark c rfl)
    | cons next rest =>
      have some := lowerFrom_ne_nil (c :: before) (List.cons_ne_nil next rest)
      rw [List.getLast?_append, List.getLast?_eq_some_getLast some, Option.some_or,
        ← List.getLast?_eq_some_getLast some] at last
      exact ih dark d last

/-- Lower-casing leaves no blank end where there was none. -/
theorem Tight.lowerChars {cs : List Char} (tight : Tight cs) : Tight (lowerChars cs) := by
  refine ⟨?_, lowerFrom_last tight.last⟩
  cases cs with
  | nil => nofun
  | cons c rest =>
    intro d first
    have some := lowerAt_ne_nil [] c rest
    rw [Text.lowerChars, lowerFrom_cons, List.head?_append, List.head?_eq_some_head some,
      Option.some_or, ← List.head?_eq_some_head some] at first
    exact (settled_lowerAt d (List.mem_of_head? first)).2 (tight.head c rfl)

theorem settled_lower (s : String) : ∀ c ∈ (lower s).toList, Settled c := by
  rw [lower, String.toList_ofList]
  exact settled_lowerFrom [] s.toList

theorem lower_of_settled {s : String} (settled : ∀ c ∈ s.toList, Settled c) : lower s = s := by
  rw [lower, lowerChars, lowerFrom_of_settled settled, String.ofList_toList]

/-- Blanks have no case, end every word, and stay as they are. -/
structure EndsWord (c : Char) : Prop extends Settled c where
  uncased : isCased c = false
  counts : isCaseIgnorable c = false

instance (c : Char) : Decidable (EndsWord c) :=
  decidable_of_iff ((c ≠ 'Σ' ∧ lowerChar c = [c]) ∧ isCased c = false ∧ isCaseIgnorable c = false)
    ⟨fun ⟨⟨sigma, same⟩, uncased, counts⟩ => ⟨⟨sigma, same⟩, uncased, counts⟩,
      fun ⟨⟨sigma, same⟩, uncased, counts⟩ => ⟨⟨sigma, same⟩, uncased, counts⟩⟩

theorem blankRanges_endWords : ∀ range ∈ blankRanges,
    ∀ n ∈ List.range' range.1 (range.2 + 1 - range.1), EndsWord (Char.ofNat n) := by
  decide +kernel

theorem endsWord_of_blank {c : Char} (blank : isBlank c = true) : EndsWord c := by
  obtain ⟨range, member, low, high⟩ := of_memRanges blank
  have ends := blankRanges_endWords range member c.toNat (List.mem_range'_1.mpr (by omega))
  rwa [Char.ofNat_toNat] at ends

theorem meetsCased_cons (c : Char) (cs : List Char) :
    meetsCased (c :: cs) = if isCaseIgnorable c then meetsCased cs else isCased c := by
  rw [meetsCased, meetsCased, List.dropWhile_cons]
  by_cases ignored : isCaseIgnorable c <;> simp [ignored]

theorem meetsCased_blank {c : Char} (blank : isBlank c = true) (cs : List Char) :
    meetsCased (c :: cs) = false := by
  have ends := endsWord_of_blank blank
  rw [meetsCased_cons, ends.counts, ends.uncased]
  rfl

theorem meetsCased_append_blank (cs : List Char) {right : List Char} (blank : AllBlank right) :
    meetsCased (cs ++ right) = meetsCased cs := by
  induction cs with
  | nil =>
    cases right with
    | nil => rfl
    | cons c right => exact meetsCased_blank (blank c List.mem_cons_self) right
  | cons c cs ih => rw [List.cons_append, meetsCased_cons, meetsCased_cons, ih]

/-- Of what stands before, only counts whether it ends in a word. -/
theorem lowerFrom_congr {before other : List Char} (same : meetsCased before = meetsCased other)
    (cs : List Char) : lowerFrom before cs = lowerFrom other cs := by
  induction cs generalizing before other with
  | nil => rfl
  | cons c cs ih =>
    have later : meetsCased (c :: before) = meetsCased (c :: other) := by
      rw [meetsCased_cons, meetsCased_cons, same]
    rw [lowerFrom_cons, lowerFrom_cons, lowerAt, lowerAt, lowerSigma, lowerSigma, same, ih later]

theorem lowerFrom_blank (before : List Char) {right : List Char} (blank : AllBlank right) :
    lowerFrom before right = right := by
  apply lowerFrom_of_settled
  exact fun c member => (endsWord_of_blank (blank c member)).toSettled

theorem lowerFrom_append_blank (before cs : List Char) {right : List Char}
    (blank : AllBlank right) : lowerFrom before (cs ++ right) = lowerFrom before cs ++ right := by
  induction cs generalizing before with
  | nil => exact lowerFrom_blank before blank
  | cons c cs ih =>
    have here : lowerAt before c (cs ++ right) = lowerAt before c cs := by
      rw [lowerAt, lowerAt, lowerSigma, lowerSigma, meetsCased_append_blank cs blank]
    rw [List.cons_append, lowerFrom_cons, lowerFrom_cons, here, ih, List.append_assoc]

theorem lowerFrom_blank_append {before left : List Char} (calm : meetsCased before = false)
    (blank : AllBlank left) (cs : List Char) :
    lowerFrom before (left ++ cs) = left ++ lowerFrom [] cs := by
  induction left generalizing before with
  | nil => exact lowerFrom_congr calm cs
  | cons c left ih =>
    obtain ⟨here, later⟩ := List.forall_mem_cons.mp blank
    have ends := endsWord_of_blank here
    rw [List.cons_append, lowerFrom_cons, lowerAt, if_neg ends.sigma, ends.same,
      ih (meetsCased_blank here before) later]
    rfl

/-- Lower-casing and trimming can be done in either order. -/
theorem trim_lower (s : String) : trim (lower s) = lower (trim s) := by
  obtain ⟨left, right, before, behind, split⟩ := trimChars_split s.toList
  have lowered : lowerChars s.toList = left ++ lowerChars (trimChars s.toList) ++ right := by
    conv => lhs; rw [split]
    rw [lowerChars, List.append_assoc, lowerFrom_blank_append rfl before,
      lowerFrom_append_blank [] _ behind, List.append_assoc]
    rfl
  have tight := (trimChars_tight s.toList).lowerChars
  rw [trim, lower, String.toList_ofList, lowered, trimChars_padded before tight behind, lower, trim,
    String.toList_ofList]

end Keymap.Text
