import Keymap.Proofs.Lowering

/-! Basic characters, which are those of ASCII. A text of them is lower-cased letter by letter. No other
character makes a basic text: only the Kelvin sign becomes a basic letter, the k, and of a dotted
capital I a mark is left beside the letter. -/
namespace Keymap.Text

def IsBasic (c : Char) : Prop := c.toNat < 128

instance (c : Char) : Decidable (IsBasic c) := Nat.decLt c.toNat 128

/-- Basic characters only, and no k, which the Kelvin sign has for its lower-case letter as well. -/
def AllBasic (cs : List Char) : Prop := ∀ c ∈ cs, IsBasic c ∧ c ≠ 'k'

instance (cs : List Char) : Decidable (AllBasic cs) := List.decidableBAll _ cs

theorem basic_lowered : ∀ n < 128, lowerChar (.ofNat n) = [(Char.ofNat n).toLower] := by
  decide +kernel

theorem capitals_basic : (capitals.all fun run =>
    run.last.blt 128 || run == ⟨0x212A, 0x212A, 1, 'k'.toNat⟩ || run.imagesMiss 0 127) = true := by
  decide +kernel

variable {c : Char} {before rest cs : List Char} {s word : String}

theorem lowerAt_basic (basic : IsBasic c) (before rest : List Char) :
    lowerAt before c rest = [c.toLower] := by
  have plain : c ≠ 'Σ' := by
    rintro rfl
    exact absurd basic (by decide)
  have lowered := basic_lowered c.toNat basic
  rw [Char.ofNat_toNat] at lowered
  rw [lowerAt, if_neg plain, lowered]

theorem lowerFrom_basic (basic : ∀ c ∈ cs, IsBasic c) (before : List Char) :
    lowerFrom before cs = cs.map Char.toLower := by
  induction cs generalizing before with
  | nil => rfl
  | cons c rest ih =>
    obtain ⟨here, later⟩ := List.forall_mem_cons.mp basic
    rw [lowerFrom_cons, lowerAt_basic here, ih later]
    rfl

/-- No basic letter but the k is the lower-case letter of a capital that is not basic. -/
theorem image_basic {n m : Nat} (found : imageIn capitals n = some m) (basic : m < 128)
    (other : m ≠ 'k'.toNat) : n < 128 := by
  obtain ⟨run, member, held, rfl⟩ := imageIn_eq_some found
  have image : run.IsImage (run.image + (n - run.first)) := ⟨n, held, rfl⟩
  have kinds := List.all_eq_true.mp capitals_basic run member
  simp only [CaseRun.contains, Bool.and_eq_true, decide_eq_true_eq] at held
  simp only [Bool.or_eq_true, Nat.blt_eq, beq_iff_eq] at kinds
  rcases kinds with (near | rfl) | misses
  · omega
  · dsimp only at held other
    omega
  · exact absurd ⟨Nat.zero_le _, Nat.le_of_lt_succ basic⟩ (image.outside misses)

theorem special_not_basic : ∀ form ∈ specialForms, ¬AllBasic form := by decide

/-- Basic characters other than the k come from basic characters only. -/
theorem basic_of_lowerAt (basic : AllBasic (lowerAt before c rest)) : IsBasic c := by
  rcases lowerAt_cases before c rest with special | ⟨m, found, lowered⟩ | ⟨-, lowered⟩
  · exact absurd basic (special_not_basic _ special)
  · rw [lowered] at basic
    obtain ⟨near, other⟩ := basic _ List.mem_cons_self
    obtain ⟨-, -, -, -, number⟩ := image_origin found
    rw [IsBasic, number] at near
    apply image_basic found near
    rw [← number]
    exact fun same => other (Char.toNat_inj.mp same)
  · rw [lowered] at basic
    exact (basic c List.mem_cons_self).1

theorem basic_of_lowerFrom (basic : AllBasic (lowerFrom before cs)) : ∀ c ∈ cs, IsBasic c := by
  induction cs generalizing before with
  | nil => nofun
  | cons c rest ih =>
    rw [lowerFrom_cons, AllBasic, List.forall_mem_append] at basic
    exact List.forall_mem_cons.mpr ⟨basic_of_lowerAt basic.1, ih basic.2⟩

theorem basic_of_toLower (basic : IsBasic c.toLower) : IsBasic c := by
  by_contra far
  have kept : c.toLower = c := by
    apply dif_neg
    rintro ⟨-, below⟩
    have within : c.toNat ≤ 'Z'.toNat := UInt32.le_iff_toNat_le.mp below
    exact far (Nat.lt_of_le_of_lt within (by decide))
  rw [kept] at basic
  exact far basic

theorem toList_toLower (s : String) : s.toLower.toList = s.toList.map Char.toLower :=
  String.toList_map

theorem lower_basic (basic : ∀ c ∈ s.toList, IsBasic c) : lower s = s.toLower := by
  rw [lower, lowerChars, lowerFrom_basic basic, ← toList_toLower, String.ofList_toList]

/-- Only texts that differ in the case of basic letters are lower-cased to basic characters without
a k. -/
theorem lower_eq_iff (basic : AllBasic word.toList) : lower s = word ↔ s.toLower = word := by
  constructor
  · rintro rfl
    rw [lower, String.toList_ofList] at basic
    exact (lower_basic (basic_of_lowerFrom basic)).symm
  · rintro rfl
    rw [toList_toLower, AllBasic, List.forall_mem_map] at basic
    exact lower_basic fun c member => basic_of_toLower (basic c member).1

end Keymap.Text
