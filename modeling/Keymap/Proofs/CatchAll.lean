import Keymap.Proofs.Identity
import Keymap.Proofs.Monotone
import Keymap.Proofs.Records
import Keymap.Proofs.Splitting
import Keymap.Proofs.Tokens

/-! No text catches everything. Every hotkey of a text asks for a key or for a modifier, and a text
of blanks has no hotkeys at all, so a registration of such a text is neither listed nor fires,
whatever else it says. -/
namespace Keymap

namespace Modifiers

theorem set_isEmpty (flags : Modifiers) (platform : Platform) (m : Modifier) :
    (flags.set platform m).isEmpty = false := by
  cases m <;> cases platform <;> simp [set, isEmpty]

/-- Without modifiers held, flags are asked for in vain. -/
theorem allows_bare {how : ModifierMatch} {required held : Modifiers} (strict : how ≠ .ignore)
    (bare : held.isEmpty) (asked : required.isEmpty = false) :
    how.allows required held = false := by
  have apart : required.isSubset held = true → required.isEmpty = true := by
    simp only [isEmpty, Bool.and_eq_true, Bool.not_eq_true'] at bare
    obtain ⟨⟨⟨ctrl, shift⟩, alt⟩, metaKey⟩ := bare
    simp [isSubset, isEmpty, ctrl, shift, alt, metaKey]
  cases how with
  | exact =>
    apply decide_eq_false
    rintro rfl
    exact Bool.false_ne_true (asked.symm.trans bare)
  | subset =>
    rw [ModifierMatch.allows, Bool.eq_false_iff]
    exact fun within => Bool.false_ne_true (asked.symm.trans (apart within))
  | ignore => exact absurd rfl strict

end Modifiers

namespace Hotkey

variable {platform : Platform} {combination separator : String}
  {description : Option String}

/-- A combination that is not blank has a token. -/
theorem exists_named (separator : String) (dark : Text.trim combination ≠ "") :
    ∃ token, token ∈ named combination separator := by
  apply List.exists_mem_of_ne_nil
  rw [named, if_neg dark, tokens]
  split
  · exact List.cons_ne_nil _ _
  · rw [ne_eq, List.map_eq_nil_iff]
    exact Text.piecesFrom_ne_nil _ 0 _

/-- An empty separator leaves no token empty. -/
theorem separator_ne_empty (empty : "" ∈ named combination separator) : separator ≠ "" := by
  rintro rfl
  unfold named tokens at empty
  split at empty
  · contradiction
  next dark =>
    rw [if_pos rfl, List.mem_singleton] at empty
    exact dark (empty ▸ rfl)

/-- Every token asks for a key or for a modifier. -/
theorem asks_for_something (platform : Platform) (separator : String) (description : Option String)
    (dark : Text.trim combination ≠ "") :
    let h := compile platform combination separator description
    h.keys ≠ [] ∨ h.modifiers.isEmpty = false := by
  intro h
  obtain ⟨token, member⟩ := exists_named separator dark
  cases known : keyOf? separator token with
  | some key => exact .inl (List.ne_nil_of_mem (mem_keys.mpr ⟨token, member, known⟩))
  | none =>
    obtain ⟨m, word⟩ := word_of_keyOf?_none known
    have set : h.modifiers.set platform m = h.modifiers := set_modifiers member word
    exact .inr ((congrArg Modifiers.isEmpty set).symm.trans (Modifiers.set_isEmpty _ platform m))

theorem empty_not_key : "" ∉ (compile platform combination separator description).keys := by
  intro member
  obtain ⟨token, held, known⟩ := mem_keys.mp member
  rcases keyOf?_eq_some.mp known with ⟨rfl, same⟩ | ⟨some, -, same⟩
  · exact separator_ne_empty held same
  · exact Key.canonical_ne_empty some same

/-- What asks for something does not fire for a mere key that it does not name. -/
theorem firesFor_bare {h : Hotkey} {policy : MatchPolicy} {event : KeyboardEvent}
    (asks : h.keys ≠ [] ∨ h.modifiers.isEmpty = false) (strict : policy.modifierMatch ≠ .ignore)
    (bare : event.modifiers.isEmpty) (other : event.canonicalKey ∉ h.keys) :
    h.firesFor policy event = false := by
  rw [firesFor, Bool.and_eq_false_iff]
  rcases asks with keys | flags
  · right
    simp [asksFor, keys, other]
  · left
    rw [Modifiers.allows_bare strict bare flags, Bool.and_false]

end Hotkey

theorem Options.compile_blank {o : Options} {platform : Platform} {text : String}
    (blank : ∀ segment ∈ Hotkey.segments text o.splitAt, Text.trim segment = "") :
    o.compile platform text = [] := by
  rw [compile, Hotkey.compileAll, Hotkey.split_eq_nil.mpr blank]
  rfl

variable {κ : Type} {platform : Platform}

namespace Keyboard

variable {k : Keyboard κ} {id : HotkeyId}

theorem hotkeys_eq_filter (orderly : k.Orderly) : k.hotkeys =
    (k.registry.entries.toList.filter fun entry => entry.2.isVisible k.scopes).flatMap
      fun entry => entry.2.hotkeys := by
  rw [hotkeys_eq orderly.fresh, Table.flatMap_filter]

/-- A registration that is not visible can be unregistered without a trace in the listing. -/
theorem Orderly.unregister_invisible (orderly : k.Orderly)
    (invisible : ∀ r, k.registry.entries.find? id = some r → r.isVisible k.scopes = false) :
    (k.unregister id).state.hotkeys = k.hotkeys := by
  have later : (k.unregister id).state.Orderly := perform_orderly orderly (.unregister id)
  have entries := (unregister_frame k id).1
  have scopes : (k.unregister id).state.scopes = k.scopes := by
    rw [unregister_state]
    split <;> rfl
  have kept := Table.filter_erase
    (fun entry : HotkeyId × Registration κ => entry.2.isVisible k.scopes) invisible
  rw [hotkeys_eq_filter later, entries, scopes, kept, hotkeys_eq_filter orderly]

/-- A registration without hotkeys is neither listed nor fires. -/
theorem Orderly.silent (orderly : k.Orderly) {r : Registration κ}
    (found : k.registry.entries.find? id = some r) (none : r.hotkeys = []) :
    id ∉ k.registry.visible ∧ (k.unregister id).state.hotkeys = k.hotkeys ∧
      ∀ event, ∀ t ∈ (k.handle event).answer.fired, t.id ≠ id := by
  have invisible : r.isVisible k.scopes = false := by simp [Registration.isVisible, none]
  have hidden : id ∉ k.registry.visible := by
    intro visible
    rw [orderly.fresh, Registry.recompute] at visible
    obtain ⟨entry, kept, rfl⟩ := List.mem_map.mp visible
    obtain ⟨member, shown⟩ := List.mem_filter.mp kept
    obtain rfl := Option.some.inj (found.symm.trans (Table.find?_eq_some.mpr member))
    exact Bool.false_ne_true (invisible.symm.trans shown)
  refine ⟨hidden, ?_, ?_⟩
  · apply orderly.unregister_invisible
    intro other same
    obtain rfl := Option.some.inj (found.symm.trans same)
    exact invisible
  · rintro event t fired rfl
    exact hidden (dispatch_visible fired)

/-- Every hotkey of a text asks for a key or a modifier, and no key is the empty text. So unless
modifiers are ignored, no key fires it that it does not name while no modifier is held. A
registration of blanks has no hotkeys, is not visible, leaves no trace in the listing and never
fires, whatever its options are. -/
theorem no_catch_all (platform : Platform) :
    (∀ input splitAt separator description,
      ∀ h ∈ Hotkey.compileAll platform input splitAt separator description,
        (h.keys ≠ [] ∨ h.modifiers.isEmpty = false) ∧ "" ∉ h.keys ∧
        ∀ policy event, policy.modifierMatch ≠ .ignore → event.modifiers.isEmpty →
          event.canonicalKey ∉ h.keys → h.firesFor policy event = false) ∧
    ∀ (initialScopes : List String) (ops : List (Operation κ)) (id : HotkeyId) (s : Standing κ),
      (Keyboard.new initialScopes platform).standsFor id none ops = some s →
      (∀ segment ∈ Hotkey.segments s.text s.options.splitAt, Text.trim segment = "") →
      let k := (Keyboard.new initialScopes platform).execute ops
      k.registry.hotkeysOf? id = some [] ∧ id ∉ k.registry.visible ∧
        (k.unregister id).state.hotkeys = k.hotkeys ∧
        ∀ event, ∀ t ∈ (k.handle event).answer.fired, t.id ≠ id := by
  refine ⟨?_, ?_⟩
  · intro input splitAt separator description h member
    obtain ⟨combination, cut, rfl⟩ := List.mem_map.mp member
    have asks := Hotkey.asks_for_something platform separator description
      (Hotkey.dark_of_mem_split cut)
    refine ⟨asks, Hotkey.empty_not_key, ?_⟩
    intro policy event strict bare other
    exact Hotkey.firesFor_bare asks strict bare other
  · intro initialScopes ops id s stands blank k
    have orderly : k.Orderly := run_orderly initialScopes platform ops
    have none : s.hotkeys platform = [] := Options.compile_blank blank
    have found : k.registry.entries.find? id = some (s.entry platform).2 := by
      rw [(run_records initialScopes platform id ops).entry, stands]
      rfl
    refine ⟨?_, orderly.silent found none⟩
    rw [Registry.hotkeysOf?, found]
    exact congrArg some none

/-- The second registration is blank and would fire for anything, and the first one becomes so. -/
def sampleBlanks : List (Operation Nat) := [
  .register "a" 7 {},
  .register " ,\t, " 8 { policy := { modifierMatch := .ignore } },
  .activate "menu",
  .update ⟨0⟩ "" { splitAt := "" }]

theorem no_catch_all_sample :
    let h := Hotkey.compile .other "Shift" "+" none
    let k := (Keyboard.new [] .other).execute sampleBlanks
    h ∈ Hotkey.compileAll .other " ,Shift" "," "+" none ∧ h.keys = [] ∧
      h.modifiers.isEmpty = false ∧ h.firesFor {} (.ofDown "a") = false ∧
      (Keyboard.new [] .other).standsFor ⟨0⟩ none sampleBlanks =
        some ⟨⟨0⟩, "", { splitAt := "" }, 7⟩ ∧
      k.registry.hotkeysOf? ⟨0⟩ = some [] ∧ ⟨0⟩ ∉ k.registry.visible ∧
      (k.unregister ⟨0⟩).state.hotkeys = k.hotkeys := by
  intro h k
  obtain ⟨texts, registrations⟩ := no_catch_all (κ := Nat) .other
  have member : h ∈ Hotkey.compileAll .other " ,Shift" "," "+" none := List.mem_singleton_self h
  obtain ⟨asks, -, fires⟩ := texts _ _ _ _ h member
  have keys : h.keys = [] := rfl
  have strict : ({} : MatchPolicy).modifierMatch ≠ .ignore := nofun
  have unheld : (KeyboardEvent.ofDown "a").modifiers.isEmpty := rfl
  have other : (KeyboardEvent.ofDown "a").canonicalKey ∉ h.keys := keys ▸ List.not_mem_nil
  have stands : (Keyboard.new [] .other).standsFor ⟨0⟩ none sampleBlanks =
      some ⟨⟨0⟩, "", { splitAt := "" }, 7⟩ := rfl
  have blank : ∀ segment ∈ Hotkey.segments "" "", Text.trim segment = "" := by decide
  obtain ⟨hotkeys, hidden, listed, -⟩ := registrations [] sampleBlanks ⟨0⟩ _ stands blank
  exact ⟨member, keys, asks.resolve_left (absurd keys ·), fires _ _ strict unheld other, stands,
    hotkeys, hidden, listed⟩

end Keyboard

end Keymap
