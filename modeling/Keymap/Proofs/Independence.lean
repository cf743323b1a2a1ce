import Keymap.Proofs.Visible
import Keymap.Session

/-! A session has three parts: the active scopes, the registrations and the held keys. Every kind of
request changes one of them and reads no other one to do so, so only the order of the requests of one
kind matters to what they leave behind. -/
namespace Keymap

inductive Request.Kind where
  | key
  | registration
  | scope
  | query
  deriving DecidableEq, Repr

def Request.kind : Request → Request.Kind
  | .key _ => .key
  | .register _ _ | .update _ _ _ | .unregister _ => .registration
  | .activateScope _ | .deactivateScope _ | .toggleScope _ => .scope
  | .status | .ping => .query

def Reply.isRegistration : Reply → Bool
  | .registered _ | .ack _ => true
  | _ => false

def Reply.isScopes : Reply → Bool
  | .scopes _ => true
  | _ => false

def requestsOf (kind : Request.Kind) (rs : List Request) : List Request :=
  rs.filter fun r => r.kind = kind

namespace Session

def processAll (s : Session) (rs : List Request) : Session × List Reply :=
  s.answerAll (rs.map .request)

theorem processAll_cons (s : Session) (r : Request) (rs : List Request) :
    s.processAll (r :: rs) =
      (((s.process r).1.processAll rs).1, (s.process r).2 ++ ((s.process r).1.processAll rs).2) :=
  rfl

/-- A part of the session that belongs to one kind of request. Other requests leave it alone and
give none of the replies that are shown of it; what its own requests make of it, and show, depends on
nothing else. -/
structure Owns (kind : Request.Kind) (part : Session → α) (isShown : Reply → Bool) : Prop where
  keeps : ∀ (s : Session) {r : Request}, r.kind ≠ kind → part (s.process r).1 = part s
  silent : ∀ (s : Session) {r : Request}, r.kind ≠ kind → (s.process r).2.filter isShown = []
  follows : ∀ {s t : Session} {r : Request}, r.kind = kind → part s = part t →
    part (s.process r).1 = part (t.process r).1
  shows : ∀ {s t : Session} {r : Request}, r.kind = kind → part s = part t →
    (s.process r).2.filter isShown = (t.process r).2.filter isShown

variable {kind : Request.Kind} {part : Session → α} {isShown : Reply → Bool}

/-- Requests of other kinds can be left out. -/
theorem Owns.purge (owns : Owns kind part isShown) {s t : Session} (same : part s = part t)
    (rs : List Request) :
    part (s.processAll rs).1 = part (t.processAll (requestsOf kind rs)).1 ∧
    (s.processAll rs).2.filter isShown = (t.processAll (requestsOf kind rs)).2.filter isShown := by
  induction rs generalizing s t with
  | nil => exact ⟨same, rfl⟩
  | cons r rs ih =>
    by_cases own : r.kind = kind
    · have kept : requestsOf kind (r :: rs) = r :: requestsOf kind rs := by simp [requestsOf, own]
      obtain ⟨parts, replies⟩ := ih (owns.follows own same)
      rw [kept, processAll_cons, processAll_cons, List.filter_append, List.filter_append,
        owns.shows own same, replies]
      exact ⟨parts, rfl⟩
    · have dropped : requestsOf kind (r :: rs) = requestsOf kind rs := by simp [requestsOf, own]
      obtain ⟨parts, replies⟩ := ih ((owns.keeps s own).trans same)
      rw [dropped, processAll_cons, List.filter_append, owns.silent s own]
      exact ⟨parts, replies⟩

theorem Owns.agree (owns : Owns kind part isShown) (s : Session) {rs others : List Request}
    (same : requestsOf kind rs = requestsOf kind others) :
    part (s.processAll rs).1 = part (s.processAll others).1 ∧
    (s.processAll rs).2.filter isShown = (s.processAll others).2.filter isShown := by
  obtain ⟨parts, replies⟩ := owns.purge (s := s) rfl rs
  obtain ⟨otherParts, otherReplies⟩ := owns.purge (s := s) rfl others
  rw [parts, replies, otherParts, otherReplies, same]
  exact ⟨rfl, rfl⟩

theorem shown_of_key (s : Session) (event : KeyboardEvent)
    (hidden : ∀ what, isShown (.triggered what) = false)
    (closing : ∀ count, isShown (.handled count) = false) :
    (s.process (.key event)).2.filter isShown = [] := by
  simp [process, List.filter_append, hidden, closing]

theorem owns_scopes : Owns .scope (·.keyboard.scopes) Reply.isScopes where
  keeps s r other := by
    cases r with
    | update id keys options =>
      simp only [process, after, Keyboard.update_state]
      split <;> rfl
    | unregister id =>
      simp only [process, after, Keyboard.unregister_state]
      split <;> rfl
    | activateScope scope | deactivateScope scope | toggleScope scope => exact absurd rfl other
    | _ => rfl
  silent s r other := by
    cases r with
    | key event => exact s.shown_of_key event (fun _ => rfl) fun _ => rfl
    | activateScope scope | deactivateScope scope | toggleScope scope => exact absurd rfl other
    | _ => rfl
  follows {s t r} own same := by
    cases r with
    | activateScope scope | deactivateScope scope | toggleScope scope =>
      simp only [process, after, Keyboard.activate, Keyboard.deactivate, Keyboard.toggle,
        Keyboard.changeScopes_scopes, same]
    | _ => contradiction
  shows {s t r} own same := by
    cases r with
    | activateScope scope | deactivateScope scope | toggleScope scope =>
      simp only [process, scopesReply, Keyboard.activate, Keyboard.deactivate, Keyboard.toggle,
        Keyboard.changeScopes_scopes, same]
    | _ => contradiction

def registrationPart (s : Session) :
    Table (Registration Unit) × UInt64 × Platform × ModifierMatch :=
  (s.keyboard.registry.entries, s.keyboard.registry.nextId, s.keyboard.platform, s.modifierMatch)

theorem registrationPart_changeScopes (s : Session) (scope : String) (activated : Bool)
    (change : ActiveScopes × Bool) :
    registrationPart (s.after (s.keyboard.changeScopes scope activated change)) =
      registrationPart s := by
  obtain ⟨entries, nextId, platform⟩ :=
    Keyboard.changeScopes_frame s.keyboard scope activated change
  simp only [registrationPart, after, entries, nextId, platform]

theorem owns_registrations : Owns .registration registrationPart Reply.isRegistration where
  keeps s r other := by
    cases r with
    | register keys options | update id keys options | unregister id => exact absurd rfl other
    | activateScope scope | deactivateScope scope | toggleScope scope =>
      exact registrationPart_changeScopes ..
    | _ => rfl
  silent s r other := by
    cases r with
    | key event => exact s.shown_of_key event (fun _ => rfl) fun _ => rfl
    | register keys options | update id keys options | unregister id => exact absurd rfl other
    | _ => rfl
  follows {s t r} own same := by
    obtain ⟨entries, nextId, platform, how⟩ : _ ∧ _ ∧ _ ∧ _ := by
      simpa [registrationPart] using same
    cases r with
    | register keys options =>
      simp [process, after, registrationPart, Keyboard.register, Keyboard.refresh,
        Registry.recompute, Registry.insert, entries, nextId, platform, how]
    | update id keys options =>
      obtain ⟨leftEntries, leftNext, leftPlatform⟩ :=
        Keyboard.update_frame s.keyboard id keys (options.resolve s.modifierMatch)
      obtain ⟨rightEntries, rightNext, rightPlatform⟩ :=
        Keyboard.update_frame t.keyboard id keys (options.resolve t.modifierMatch)
      simp only [process, after, registrationPart]
      rw [leftEntries, leftNext, leftPlatform, rightEntries, rightNext, rightPlatform]
      simp only [entries, nextId, platform, how]
    | unregister id =>
      obtain ⟨leftEntries, leftNext, leftPlatform⟩ := Keyboard.unregister_frame s.keyboard id
      obtain ⟨rightEntries, rightNext, rightPlatform⟩ := Keyboard.unregister_frame t.keyboard id
      simp only [process, after, registrationPart]
      rw [leftEntries, leftNext, leftPlatform, rightEntries, rightNext, rightPlatform]
      simp only [entries, nextId, platform, how]
    | _ => contradiction
  shows {s t r} own same := by
    obtain ⟨entries, nextId, platform, how⟩ : _ ∧ _ ∧ _ ∧ _ := by
      simpa [registrationPart] using same
    cases r with
    | register keys options => simp [process, Keyboard.register, Registry.insert, nextId]
    | update id keys options =>
      simp only [process, Keyboard.update_answer, Registry.contains, entries]
    | unregister id =>
      simp only [process, Keyboard.unregister_answer, Registry.contains, entries]
    | _ => contradiction

theorem nothing_shown (replies : List Reply) : replies.filter (fun _ => false) = [] :=
  List.filter_eq_nil_iff.mpr fun _ _ => Bool.false_ne_true

theorem owns_held : Owns .key (·.keyboard.held) fun _ => false where
  keeps s r other := by
    cases r with
    | key event => exact absurd rfl other
    | update id keys options =>
      simp only [process, after, Keyboard.update_state]
      split <;> rfl
    | unregister id =>
      simp only [process, after, Keyboard.unregister_state]
      split <;> rfl
    | activateScope scope | deactivateScope scope | toggleScope scope =>
      simp only [process, after, Keyboard.activate, Keyboard.deactivate, Keyboard.toggle,
        Keyboard.changeScopes]
      split <;> rfl
    | _ => rfl
  silent s r other := nothing_shown _
  follows {s t r} own same := by
    cases r with
    | key event => simp only [process, after, Keyboard.handle, same]
    | _ => contradiction
  shows {s t r} own same := (nothing_shown _).trans (nothing_shown _).symm

theorem process_fresh {s : Session} (fresh : s.keyboard.IsFresh) (r : Request) :
    (s.process r).1.keyboard.IsFresh := by
  cases r with
  | key event => exact Keyboard.perform_fresh fresh (.handle event)
  | register keys options =>
    exact Keyboard.perform_fresh fresh (.register keys () (options.resolve s.modifierMatch))
  | update id keys options =>
    exact Keyboard.perform_fresh fresh (.update id keys (options.resolve s.modifierMatch))
  | unregister id => exact Keyboard.perform_fresh fresh (.unregister id)
  | activateScope scope => exact Keyboard.perform_fresh fresh (.activate scope)
  | deactivateScope scope => exact Keyboard.perform_fresh fresh (.deactivate scope)
  | toggleScope scope => exact Keyboard.perform_fresh fresh (.toggle scope)
  | status => exact fresh
  | ping => exact fresh

theorem processAll_fresh {s : Session} (fresh : s.keyboard.IsFresh) (rs : List Request) :
    (s.processAll rs).1.keyboard.IsFresh := by
  induction rs generalizing s with
  | nil => exact fresh
  | cons r rs ih => exact ih (process_fresh fresh r)

/-- The listing follows from the registrations and the active scopes, since the cached list does. -/
theorem hotkeys_congr {k t : Keyboard κ} (fresh : k.IsFresh) (otherFresh : t.IsFresh)
    (entries : k.registry.entries = t.registry.entries) (scopes : k.scopes = t.scopes) :
    k.hotkeys = t.hotkeys := by
  rw [Keyboard.IsFresh, Registry.recompute] at fresh otherFresh
  simp only [Keyboard.hotkeys, Registry.visibleHotkeys, fresh, otherFresh, Registry.hotkeysOf?,
    entries, scopes]

/-- Two runs that agree in the requests of each kind end in the same snapshot, and give the same
ids, acknowledgements and lists of scopes; how the kinds are interleaved does not matter. -/
theorem snapshot_of_kinds (initialScopes : List String) (platform : Platform)
    (how : ModifierMatch) (rs others : List Request)
    (registrations : requestsOf .registration rs = requestsOf .registration others)
    (scopes : requestsOf .scope rs = requestsOf .scope others)
    (keys : requestsOf .key rs = requestsOf .key others) :
    let start := Session.new initialScopes platform how
    (start.processAll rs).1.snapshot = (start.processAll others).1.snapshot ∧
    (start.processAll rs).2.filter Reply.isRegistration =
      (start.processAll others).2.filter Reply.isRegistration ∧
    (start.processAll rs).2.filter Reply.isScopes =
      (start.processAll others).2.filter Reply.isScopes := by
  intro start
  have fresh : start.keyboard.IsFresh := rfl
  obtain ⟨sameScopes, scopeReplies⟩ := owns_scopes.agree start scopes
  obtain ⟨sameRegistrations, registrationReplies⟩ := owns_registrations.agree start registrations
  obtain ⟨sameHeld, _⟩ := owns_held.agree start keys
  have entries := congrArg Prod.fst sameRegistrations
  have listed := hotkeys_congr (processAll_fresh fresh rs) (processAll_fresh fresh others) entries
    sameScopes
  refine ⟨?_, registrationReplies, scopeReplies⟩
  simp only [snapshot, listed, sameScopes, sameHeld]

def sampleRequests : List Request := [
  .register "a, ctrl+b" { scopes := some ["menu"] }, .key (.ofDown "A"), .activateScope "menu",
  .key (.ofDown "b"), .update ⟨0⟩ "b" {}, .toggleScope "editor", .unregister ⟨7⟩]

def sampleInterleaved : List Request := [
  .activateScope "menu", .ping, .toggleScope "editor", .register "a, ctrl+b" { scopes := some ["menu"] },
  .update ⟨0⟩ "b" {}, .status, .key (.ofDown "A"), .unregister ⟨7⟩, .key (.ofDown "b")]

theorem snapshot_of_kinds_sample :
    requestsOf .registration sampleRequests = requestsOf .registration sampleInterleaved ∧
    requestsOf .scope sampleRequests = requestsOf .scope sampleInterleaved ∧
    requestsOf .key sampleRequests = requestsOf .key sampleInterleaved ∧
    ((Session.new [] .other .exact).processAll sampleRequests).1.snapshot =
      ((Session.new [] .other .exact).processAll sampleInterleaved).1.snapshot ∧
    ((Session.new [] .other .exact).processAll sampleRequests).2.filter Reply.isRegistration =
      [.registered ⟨0⟩, .ack true, .ack false] := by
  have registrations : requestsOf .registration sampleRequests =
      requestsOf .registration sampleInterleaved := by decide
  have scopes : requestsOf .scope sampleRequests = requestsOf .scope sampleInterleaved := by decide
  have keys : requestsOf .key sampleRequests = requestsOf .key sampleInterleaved := by decide
  obtain ⟨snapshots, replies, _⟩ :=
    snapshot_of_kinds [] .other .exact sampleRequests sampleInterleaved registrations scopes keys
  exact ⟨registrations, scopes, keys, snapshots, replies.trans (by decide)⟩

end Session

end Keymap
