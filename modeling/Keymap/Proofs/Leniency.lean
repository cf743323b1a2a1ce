import Keymap.Proofs.Independence
import Mathlib.Data.List.Basic
import Mathlib.Data.List.Flatten
import Mathlib.Data.List.Forall2

/-! The default for comparing modifiers. Two sessions that differ in it alone hold the same
registrations but for that part of their policies, so everything but the firing of hotkeys is the
same in both, and the more lenient session fires all that the stricter one does. -/
namespace Keymap

def ModifierMatch.Within (strict lenient : ModifierMatch) : Prop :=
  ∀ required held, strict.allows required held → lenient.allows required held

theorem ModifierMatch.within_refl (how : ModifierMatch) : how.Within how := fun _ _ => id

theorem ModifierMatch.exact_within_subset : Within .exact .subset := by
  intro required held same
  obtain rfl : required = held := by simpa [allows] using same
  simp [allows, Modifiers.isSubset]

theorem ModifierMatch.subset_within_ignore : Within .subset .ignore := fun _ _ _ => rfl

theorem Hotkey.firing_sublist {policy : MatchPolicy} {how : ModifierMatch}
    (within : policy.modifierMatch.Within how) (hotkeys : List Hotkey) (event : KeyboardEvent) :
    (firing hotkeys policy event).Sublist
      (firing hotkeys { policy with modifierMatch := how } event) := by
  apply List.monotone_filter_right
  intro h fires
  simp only [firesFor, Bool.and_eq_true] at fires ⊢
  obtain ⟨⟨⟨phase, repeats⟩, allowed⟩, asked⟩ := fires
  exact ⟨⟨⟨phase, repeats⟩, within _ _ allowed⟩, asked⟩

namespace Table

variable {α : Type} {R : α → α → Prop} {id : HotkeyId} {table other : Table α}

def Mates (R : α → α → Prop) (entry mate : HotkeyId × α) : Prop :=
  entry.1 = mate.1 ∧ R entry.2 mate.2

/-- Tables with the same ids, and entries that are related one to one. -/
def Alike (R : α → α → Prop) (table other : Table α) : Prop :=
  List.Forall₂ (Mates R) table.toList other.toList

theorem Alike.find? (alike : Alike R table other) (id : HotkeyId) :
    (table.find? id = none ∧ other.find? id = none) ∨
      ∃ a b, table.find? id = some a ∧ other.find? id = some b ∧ R a b := by
  unfold Table.find?
  rw [Alike] at alike
  generalize table.toList = entries, other.toList = others at alike ⊢
  induction alike with
  | nil => exact .inl ⟨rfl, rfl⟩
  | @cons entry mate entries others mates rest ih =>
    obtain ⟨number, a⟩ := entry
    obtain ⟨_, b⟩ := mate
    obtain ⟨rfl, related⟩ := mates
    by_cases same : number = id
    · exact .inr ⟨a, b, by simp [same], by simp [same], related⟩
    · simpa [same] using ih

theorem Alike.contains (alike : Alike R table other) (id : HotkeyId) :
    other.contains id = table.contains id := by
  unfold Table.contains
  rcases alike.find? id with ⟨missing, gone⟩ | ⟨a, b, found, mate, _⟩
  · rw [missing, gone]
  · rw [found, mate]
    rfl

theorem Alike.filter (alike : Alike R table other) (keep : HotkeyId → Bool) :
    List.Forall₂ (Mates R) (table.toList.filter (keep ·.1)) (other.toList.filter (keep ·.1)) :=
  List.rel_filter (fun _ _ mates => by simp only [mates.1]) alike

theorem Alike.insert {a b : α} (alike : Alike R table other) (related : R a b) :
    Alike R (table.insert id a) (other.insert id b) :=
  List.rel_append (alike.filter fun key => key.number < id.number)
    (.cons ⟨rfl, related⟩ (alike.filter fun key => id.number < key.number))

theorem Alike.modify {f g : α → α} (alike : Alike R table other)
    (related : ∀ a b, R a b → R (f a) (g b)) : Alike R (table.modify id f) (other.modify id g) := by
  refine List.rel_map (fun entry mate mates => ?_) alike
  simp only [mates.1]
  split
  · exact ⟨rfl, related _ _ mates.2⟩
  · exact mates

theorem Alike.erase (alike : Alike R table other) : Alike R (table.erase id) (other.erase id) :=
  alike.filter (· ≠ id)

/-- A filter that agrees on related entries keeps the same ids. -/
theorem Alike.filter_ids {keep : α → Bool} (alike : Alike R table other)
    (agree : ∀ a b, R a b → keep b = keep a) :
    (other.toList.filter fun entry => keep entry.2).map Prod.fst =
      (table.toList.filter fun entry => keep entry.2).map Prod.fst := by
  rw [Alike] at alike
  generalize table.toList = entries, other.toList = others at alike ⊢
  induction alike with
  | nil => rfl
  | cons first rest ih =>
    simp only [List.filter_cons, agree _ _ first.2]
    split
    · simp only [List.map_cons, first.1, ih]
    · exact ih

end Table

variable {κ : Type}

structure Registration.Within (strict lenient : Registration κ) : Prop where
  hotkeys : lenient.hotkeys = strict.hotkeys
  callback : lenient.callback = strict.callback
  options : ∃ how, strict.options.policy.modifierMatch.Within how ∧
    lenient.options = strict.options.withModifierMatch how

theorem Registration.Within.isVisible {strict lenient : Registration κ}
    (within : strict.Within lenient) (active : ActiveScopes) :
    lenient.isVisible active = strict.isVisible active := by
  obtain ⟨how, _, options⟩ := within.options
  unfold Registration.isVisible
  rw [within.hotkeys, options]
  rfl

/-- What is compiled does not depend on the policy. -/
theorem Registration.within_compiled {options : Options} {how : ModifierMatch}
    (allowed : options.policy.modifierMatch.Within how) (platform : Platform) (text : String)
    (callback : κ) :
    Registration.Within ⟨options.compile platform text, options, callback⟩
      ⟨(options.withModifierMatch how).compile platform text, options.withModifierMatch how,
        callback⟩ :=
  ⟨rfl, rfl, how, allowed, rfl⟩

/-- Only policies may differ between the two registries. -/
structure Registry.Within (strict lenient : Registry κ) : Prop where
  nextId : lenient.nextId = strict.nextId
  visible : lenient.visible = strict.visible
  entries : Table.Alike Registration.Within strict.entries lenient.entries

namespace Registry.Within

variable {strict lenient : Registry κ}

theorem contains (within : Within strict lenient) (id : HotkeyId) :
    lenient.contains id = strict.contains id := within.entries.contains id

theorem visibleHotkeys (within : Within strict lenient) :
    lenient.visibleHotkeys = strict.visibleHotkeys := by
  have found : lenient.hotkeysOf? = strict.hotkeysOf? := by
    funext id
    unfold hotkeysOf?
    rcases within.entries.find? id with ⟨missing, gone⟩ | ⟨r, t, found, mate, related⟩
    · rw [missing, gone]
    · rw [found, mate]
      exact congrArg some related.hotkeys
  rw [Registry.visibleHotkeys, Registry.visibleHotkeys, found, within.visible]

theorem firingsOf (within : Within strict lenient) (event : KeyboardEvent) (id : HotkeyId) :
    (strict.firingsOf event id).Sublist (lenient.firingsOf event id) := by
  unfold Registry.firingsOf
  rcases within.entries.find? id with ⟨missing, gone⟩ | ⟨r, t, found, mate, related⟩
  · rw [missing, gone]
  · obtain ⟨how, allowed, options⟩ := related.options
    simp only [found, mate, related.hotkeys, related.callback, options]
    exact (Hotkey.firing_sublist allowed _ event).map _

theorem dispatch (within : Within strict lenient) (event : KeyboardEvent) :
    (strict.dispatch event).fired.Sublist (lenient.dispatch event).fired := by
  rw [strict.dispatch_fired, lenient.dispatch_fired, firings, firings, within.visible]
  exact (List.Sublist.flatMap_right _ fun id _ => within.firingsOf event id).map _

/-- The scope filter does not ask for policies. -/
theorem recompute (within : Within strict lenient) (active : ActiveScopes) :
    Within (strict.recompute active) (lenient.recompute active) := by
  refine ⟨within.nextId, ?_, within.entries⟩
  exact within.entries.filter_ids fun _ _ related => related.isVisible active

variable {options : Options} {how : ModifierMatch} {platform : Platform} {text : String}

theorem insert (within : Within strict lenient) (callback : κ)
    (allowed : options.policy.modifierMatch.Within how) :
    Within (strict.insert (options.compile platform text) options callback).1
      (lenient.insert ((options.withModifierMatch how).compile platform text)
        (options.withModifierMatch how) callback).1 := by
  simp only [Registry.insert, within.nextId]
  exact ⟨rfl, within.visible,
    within.entries.insert (Registration.within_compiled allowed platform text callback)⟩

theorem replace (within : Within strict lenient) (id : HotkeyId)
    (allowed : options.policy.modifierMatch.Within how) :
    Within (strict.replace id (options.compile platform text) options).1
      (lenient.replace id ((options.withModifierMatch how).compile platform text)
        (options.withModifierMatch how)).1 := by
  rw [Registry.replace, Registry.replace, within.contains]
  split
  · refine ⟨within.nextId, within.visible, within.entries.modify fun old mate related => ?_⟩
    rw [related.callback]
    exact Registration.within_compiled allowed platform text old.callback
  · exact within

theorem remove (within : Within strict lenient) (id : HotkeyId) :
    Within (strict.remove id).1 (lenient.remove id).1 := by
  rw [Registry.remove, Registry.remove, within.contains]
  split
  · exact ⟨within.nextId, within.visible, within.entries.erase⟩
  · exact within

end Registry.Within

structure Keyboard.Within (strict lenient : Keyboard κ) : Prop where
  scopes : lenient.scopes = strict.scopes
  platform : lenient.platform = strict.platform
  held : lenient.held = strict.held
  registry : strict.registry.Within lenient.registry

namespace Keyboard.Within

variable {strict lenient : Keyboard κ}

theorem refresh (within : Within strict lenient) : Within strict.refresh lenient.refresh := by
  refine { within with registry := ?_ }
  simp only [Keyboard.refresh, within.scopes]
  exact within.registry.recompute strict.scopes

theorem changeScopes (within : Within strict lenient) (scope : String) (activated : Bool)
    (change : ActiveScopes × Bool) :
    Within (strict.changeScopes scope activated change).state
      (lenient.changeScopes scope activated change).state := by
  unfold Keyboard.changeScopes
  dsimp only
  split
  · exact refresh { within with scopes := rfl }
  · exact { within with scopes := rfl }

variable {options : Options} {how : ModifierMatch}

theorem register (within : Within strict lenient) (text : String) (callback : κ)
    (allowed : options.policy.modifierMatch.Within how) :
    Within (strict.register text callback options).state
      (lenient.register text callback (options.withModifierMatch how)).state := by
  simp only [Keyboard.register, within.platform]
  exact refresh
    { within with platform := rfl, registry := within.registry.insert callback allowed }

theorem update (within : Within strict lenient) (id : HotkeyId) (text : String)
    (allowed : options.policy.modifierMatch.Within how) :
    Within (strict.update id text options).state
      (lenient.update id text (options.withModifierMatch how)).state := by
  rw [update_state, update_state, within.registry.contains, within.platform]
  split
  · exact refresh { within with platform := rfl, registry := within.registry.replace id allowed }
  · exact within

theorem unregister (within : Within strict lenient) (id : HotkeyId) :
    Within (strict.unregister id).state (lenient.unregister id).state := by
  rw [unregister_state, unregister_state, within.registry.contains]
  split
  · exact refresh { within with registry := within.registry.remove id }
  · exact within

end Keyboard.Within

/-- A policy that is open takes the default, and any other one stays. -/
theorem PartialOptions.resolve_within (options : PartialOptions) {strict lenient : ModifierMatch}
    (within : strict.Within lenient) :
    ∃ how, (options.resolve strict).policy.modifierMatch.Within how ∧
      options.resolve lenient = (options.resolve strict).withModifierMatch how := by
  refine ⟨options.modifierMatch.getD lenient, ?_, rfl⟩
  simp only [resolve]
  cases options.modifierMatch with
  | none => exact within
  | some how => exact how.within_refl

/-- The request leaves nothing to the default for comparing modifiers. -/
def Request.isExplicit : Request → Bool
  | .register _ options | .update _ _ options => options.modifierMatch.isSome
  | _ => true

namespace Session

def keyReplies (fired : List Triggered) : List Reply :=
  fired.map .triggered ++ [.handled (.ofNat fired.length)]

/-- The answers to one request in two runs, of which the second one may fire more. -/
inductive Widens : Request × List Reply → Request × List Reply → Prop where
  | key (event : KeyboardEvent) {fewer more : List Triggered} (sublist : fewer.Sublist more) :
      Widens (.key event, keyReplies fewer) (.key event, keyReplies more)
  | other {r : Request} (replies : List Reply) (calm : r.kind ≠ .key) :
      Widens (r, replies) (r, replies)

def dialogue (s : Session) : List Request → List (Request × List Reply)
  | [] => []
  | r :: rs => (r, (s.process r).2) :: (s.process r).1.dialogue rs

theorem dialogue_replies (s : Session) (rs : List Request) :
    (s.dialogue rs).flatMap Prod.snd = (s.processAll rs).2 := by
  induction rs generalizing s with
  | nil => rfl
  | cons r rs ih => rw [processAll_cons, dialogue, List.flatMap_cons, ih]

theorem dialogue_requests (s : Session) (rs : List Request) :
    (s.dialogue rs).map Prod.fst = rs := by
  induction rs generalizing s with
  | nil => rfl
  | cons r rs ih => rw [dialogue, List.map_cons, ih]

structure Within (strict lenient : Session) : Prop where
  keyboard : strict.keyboard.Within lenient.keyboard
  modifierMatch : strict.modifierMatch.Within lenient.modifierMatch

variable {strict lenient : Session}

/-- A request that is answered alike is no key event, and the two sessions stay related. -/
theorem Within.calm (within : Within strict lenient) {r : Request} (calm : r.kind ≠ .key)
    (kept : (strict.process r).1.keyboard.Within (lenient.process r).1.keyboard)
    (same : (lenient.process r).2 = (strict.process r).2) :
    Within (strict.process r).1 (lenient.process r).1 ∧
      Widens (r, (strict.process r).2) (r, (lenient.process r).2) := by
  have default (s : Session) : (s.process r).1.modifierMatch = s.modifierMatch := by
    cases r <;> rfl
  refine ⟨⟨kept, ?_⟩, same ▸ .other _ calm⟩
  rw [default, default]
  exact within.modifierMatch

/-- A request that changes the scopes is processed by the same change in both sessions. -/
theorem Within.changeScopes (within : Within strict lenient) {r : Request} (calm : r.kind ≠ .key)
    (scope : String) (change : ActiveScopes → Bool × ActiveScopes × Bool)
    (processed : ∀ s : Session, s.process r =
      let (activated, change) := change s.keyboard.scopes
      let o := s.keyboard.changeScopes scope activated change
      (s.after o, [scopesReply o])) :
    Within (strict.process r).1 (lenient.process r).1 ∧
      Widens (r, (strict.process r).2) (r, (lenient.process r).2) := by
  have changed := within.keyboard.changeScopes scope (change strict.keyboard.scopes).1
    (change strict.keyboard.scopes).2
  apply within.calm calm
  · rw [processed, processed, within.keyboard.scopes]
    exact changed
  · rw [processed, processed, within.keyboard.scopes]
    simp only [scopesReply, changed.scopes]

theorem Within.process (within : Within strict lenient) (r : Request) :
    Within (strict.process r).1 (lenient.process r).1 ∧
      Widens (r, (strict.process r).2) (r, (lenient.process r).2) := by
  have keyboard := within.keyboard
  cases r with
  | key event =>
    refine ⟨⟨{ keyboard with held := ?_ }, within.modifierMatch⟩, ?_⟩
    · simp only [Session.process, after, Keyboard.handle, keyboard.held]
    · exact .key event (keyboard.registry.dispatch event)
  | register keys options =>
    obtain ⟨how, allowed, resolved⟩ := options.resolve_within within.modifierMatch
    apply within.calm (by simp [Request.kind])
    · simp only [Session.process, after, resolved]
      exact keyboard.register keys () allowed
    · simp only [Session.process, Keyboard.register, Registry.insert, keyboard.registry.nextId]
  | update id keys options =>
    obtain ⟨how, allowed, resolved⟩ := options.resolve_within within.modifierMatch
    apply within.calm (by simp [Request.kind])
    · simp only [Session.process, after, resolved]
      exact keyboard.update id keys allowed
    · simp only [Session.process, Keyboard.update_answer, keyboard.registry.contains]
  | unregister id =>
    apply within.calm (by simp [Request.kind])
    · exact keyboard.unregister id
    · simp only [Session.process, Keyboard.unregister_answer, keyboard.registry.contains]
  | activateScope scope =>
    exact within.changeScopes (by simp [Request.kind]) scope
      (fun active => (true, active.activate scope)) fun _ => rfl
  | deactivateScope scope =>
    exact within.changeScopes (by simp [Request.kind]) scope
      (fun active => (false, active.deactivate scope)) fun _ => rfl
  | toggleScope scope =>
    exact within.changeScopes (by simp [Request.kind]) scope
      (fun active => ((active.toggle scope).1.isActive scope, active.toggle scope)) fun _ => rfl
  | status =>
    apply within.calm (by simp [Request.kind])
    · exact keyboard
    · simp only [Session.process, snapshot, Keyboard.hotkeys, keyboard.scopes,
        keyboard.registry.visibleHotkeys, keyboard.held]
  | ping => exact within.calm (by simp [Request.kind]) keyboard rfl

theorem Within.dialogue (within : Within strict lenient) (rs : List Request) :
    List.Forall₂ Widens (strict.dialogue rs) (lenient.dialogue rs) := by
  induction rs generalizing strict lenient with
  | nil => exact .nil
  | cons r rs ih =>
    obtain ⟨kept, widened⟩ := within.process r
    exact .cons widened (ih kept)

theorem new_within (initialScopes : List String) (platform : Platform)
    {how lenient : ModifierMatch} (within : how.Within lenient) :
    Within (.new initialScopes platform how) (.new initialScopes platform lenient) :=
  ⟨⟨rfl, rfl, rfl, rfl, rfl, .nil⟩, within⟩

/-- An explicit request does not ask for the default. -/
theorem process_explicit {r : Request} (explicit : r.isExplicit) (k : Keyboard Unit)
    (how other : ModifierMatch) :
    (process ⟨k, how⟩ r).2 = (process ⟨k, other⟩ r).2 ∧
      (process ⟨k, how⟩ r).1 = ⟨(process ⟨k, other⟩ r).1.keyboard, how⟩ := by
  have resolved {options : PartialOptions} (given : options.modifierMatch.isSome) :
      options.resolve how = options.resolve other := by
    obtain ⟨own, given⟩ := Option.isSome_iff_exists.mp given
    simp [PartialOptions.resolve, given]
  cases r with
  | register keys options | update id keys options =>
    simp only [process, after, resolved explicit, and_self]
  | _ => exact ⟨rfl, rfl⟩

theorem dialogue_explicit {rs : List Request} (explicit : ∀ r ∈ rs, r.isExplicit)
    (k : Keyboard Unit) (how other : ModifierMatch) :
    dialogue ⟨k, how⟩ rs = dialogue ⟨k, other⟩ rs ∧
      (processAll ⟨k, how⟩ rs).1.keyboard = (processAll ⟨k, other⟩ rs).1.keyboard := by
  induction rs generalizing k with
  | nil => exact ⟨rfl, rfl⟩
  | cons r rs ih =>
    obtain ⟨first, rest⟩ := List.forall_mem_cons.mp explicit
    obtain ⟨replies, left⟩ := process_explicit first k how other
    obtain ⟨_, right⟩ := process_explicit first k other other
    obtain ⟨same, kept⟩ := ih rest (process ⟨k, other⟩ r).1.keyboard
    rw [dialogue, dialogue, processAll_cons, processAll_cons, replies, left, right]
    exact ⟨congrArg _ same, kept⟩

/-- A more lenient default only ever adds firings: every other reply stays, and what an event fires
in the stricter run it fires in the more lenient one, in the same order. Where no request leaves the
comparison open, the default has no effect at all. -/
theorem lenient_fires_more (initialScopes : List String) (platform : Platform)
    (rs : List Request) :
    let start := Session.new initialScopes platform
    (∀ how, ((start how).dialogue rs).map Prod.fst = rs ∧
      ((start how).dialogue rs).flatMap Prod.snd = ((start how).processAll rs).2) ∧
    List.Forall₂ Widens ((start .exact).dialogue rs) ((start .subset).dialogue rs) ∧
    List.Forall₂ Widens ((start .subset).dialogue rs) ((start .ignore).dialogue rs) ∧
    ((∀ r ∈ rs, r.isExplicit) → ∀ how other,
      (start how).dialogue rs = (start other).dialogue rs ∧
      ((start how).processAll rs).1.keyboard = ((start other).processAll rs).1.keyboard) := by
  intro start
  refine ⟨?_, ?_, ?_, ?_⟩
  · exact fun how => ⟨dialogue_requests _ rs, dialogue_replies _ rs⟩
  · exact (new_within initialScopes platform ModifierMatch.exact_within_subset).dialogue rs
  · exact (new_within initialScopes platform ModifierMatch.subset_within_ignore).dialogue rs
  · exact fun explicit => dialogue_explicit explicit (.new initialScopes platform)

def sampleOpen : List Request := [
  .register "ctrl+a" {}, .register "a" { modifierMatch := some .subset },
  .key { key := "a", ctrl := true, shift := true }, .update ⟨1⟩ "a" {}, .key (.ofDown "A")]

def sampleExplicit : List Request := [
  .register "ctrl+a" { modifierMatch := some .subset },
  .key { key := "a", ctrl := true, shift := true },
  .update ⟨0⟩ "a" { modifierMatch := some .exact }, .key (.ofDown "A"), .status]

def firedIds (run : List (Request × List Reply)) : List (List UInt64) :=
  run.map fun answered => answered.2.filterMap fun
    | .triggered what => some what.id.number
    | _ => none

theorem lenient_fires_more_sample :
    let start := Session.new [] .other
    List.Forall₂ Widens ((start .exact).dialogue sampleOpen) ((start .subset).dialogue sampleOpen) ∧
    firedIds ((start .exact).dialogue sampleOpen) = [[], [], [1], [], [1]] ∧
    firedIds ((start .subset).dialogue sampleOpen) = [[], [], [0, 1], [], [1]] ∧
    firedIds ((start .ignore).dialogue sampleOpen) = [[], [], [0, 1], [], [0, 1]] ∧
    (∀ r ∈ sampleExplicit, r.isExplicit) ∧
    (start .exact).dialogue sampleExplicit = (start .ignore).dialogue sampleExplicit ∧
    firedIds ((start .ignore).dialogue sampleExplicit) = [[], [0], [], [0], []] := by
  have explicit : ∀ r ∈ sampleExplicit, r.isExplicit := by decide
  obtain ⟨_, widened, _, _⟩ := lenient_fires_more [] .other sampleOpen
  obtain ⟨_, _, _, same⟩ := lenient_fires_more [] .other sampleExplicit
  exact ⟨widened, by rfl, by rfl, by rfl, explicit, (same explicit .exact .ignore).1, by rfl⟩

end Session

end Keymap
