import Keymap.Replay.Host

/-! The steps of a host as a relation, one rule for each thing that can happen, and its agreement
with the step functions. -/
namespace Keymap.Replay

inductive ReaderStep (l : Listener) (r : Reader) : Reader → Listener → Prop where
  | readLine {line rest : List UInt8} (stage : r.stage = .reading)
      (found : Text.nextLine? r.input = some (line, rest)) :
      ReaderStep l r { r with input := rest, stage := .checking (Text.ofBytes? line) } l
  | readRest (stage : r.stage = .reading) (unfinished : Text.nextLine? r.input = none)
      (ended : r.ended = true) (more : r.input ≠ []) :
      ReaderStep l r { r with input := [], stage := .checking (Text.ofBytes? r.input) } l
  | readEnd (stage : r.stage = .reading) (ended : r.ended = true) (empty : r.input = []) :
      ReaderStep l r { r with stage := .leaving } l
  | check {line : Option String} (stage : r.stage = .checking line) :
      ReaderStep l r { r with stage := Listener.check l.running line } l
  | reject {delivery : Delivery} (stage : r.stage = .sending delivery)
      (closed : l.channel.isOpen = false) :
      ReaderStep l r { r with stage := .leaving } l
  | send {delivery : Delivery} (stage : r.stage = .sending delivery)
      (receives : l.channel.isOpen = true) (fits : l.channel.queue.length < l.channel.capacity) :
      ReaderStep l r { r with stage := .reading }
        { l with channel := { l.channel with queue := l.channel.queue ++ [delivery] } }
  | leave (stage : r.stage = .leaving) :
      ReaderStep l r { r with stage := .gone } { l with running := false }

theorem stepReader?_eq_some {l after : Listener} {r next : Reader} :
    l.stepReader? r = some (next, after) ↔ ReaderStep l r next after := by
  constructor
  · intro moved
    unfold Listener.stepReader? at moved
    cases stage : r.stage with
    | reading =>
      rw [stage] at moved
      obtain ⟨_, read, same⟩ := Option.map_eq_some_iff.mp moved
      obtain ⟨rfl, rfl⟩ := Prod.mk.inj same
      unfold Reader.readLine? at read
      split at read
      next line rest found =>
        obtain rfl := Option.some.inj read
        exact .readLine stage found
      next unfinished =>
        split at read
        · contradiction
        next ended =>
          split at read
          next empty =>
            obtain rfl := Option.some.inj read
            exact .readEnd stage (by simpa using ended) empty
          next more =>
            obtain rfl := Option.some.inj read
            exact .readRest stage unfinished (by simpa using ended) more
    | checking line =>
      obtain ⟨rfl, rfl⟩ : _ ∧ _ := by simpa [stage] using moved
      exact .check stage
    | sending delivery =>
      simp only [stage] at moved
      split at moved
      next closed =>
        obtain ⟨rfl, rfl⟩ : _ ∧ _ := by simpa using moved
        exact .reject stage (by simpa using closed)
      next receives =>
        split at moved
        next fits =>
          obtain ⟨rfl, rfl⟩ : _ ∧ _ := by simpa using moved
          exact .send stage (by simpa using receives) fits
        · contradiction
    | leaving =>
      obtain ⟨rfl, rfl⟩ : _ ∧ _ := by simpa [stage] using moved
      exact .leave stage
    | gone => simp [stage] at moved
  · intro step
    cases step with
    | readLine stage found => simp [Listener.stepReader?, Reader.readLine?, stage, found]
    | readRest stage unfinished ended more =>
      simp [Listener.stepReader?, Reader.readLine?, stage, unfinished, ended, more]
    | readEnd stage ended empty =>
      simp [Listener.stepReader?, Reader.readLine?, stage, ended, empty, Text.nextLine?]
    | check stage => simp [Listener.stepReader?, stage]
    | reject stage closed => simp [Listener.stepReader?, stage, closed]
    | send stage receives fits => simp [Listener.stepReader?, stage, receives, fits]
    | leave stage => simp [Listener.stepReader?, stage]

theorem ReaderStep.frame {l after : Listener} {r next : Reader} (step : ReaderStep l r next after) :
    next.ended = r.ended ∧ after.readers = l.readers ∧ after.isKept = l.isKept ∧
    after.channel.capacity = l.channel.capacity := by
  cases step <;> exact ⟨rfl, rfl, rfl, rfl⟩

theorem ReaderStep.alive {l after : Listener} {r next : Reader} (step : ReaderStep l r next after) :
    r.isAlive = true := by
  cases step <;> simp [Reader.isAlive, *]

theorem only_reader {l : Listener} {r r' : Reader} {i : Nat} (single : l.readers = [r])
    (here : l.readers[i]? = some r') : i = 0 ∧ r' = r := by
  rw [single, List.getElem?_singleton] at here
  split at here
  next isFirst => exact ⟨isFirst, (Option.some.inj here).symm⟩
  · contradiction

namespace Host

inductive SessionStep (h : Host) : Host → Prop where
  | take {delivery : Delivery} {queue : List Delivery} (turn : h.turn = .receiving)
      (waiting : h.listener.channel.queue = delivery :: queue) :
      SessionStep h { h with
        listener := { h.listener with channel := { h.listener.channel with queue := queue } }
        session := (h.session.answer delivery).1
        turn := .writing (h.session.answer delivery).2 }
  | finish (turn : h.turn = .receiving) (empty : h.listener.channel.queue = [])
      (alone : h.listener.senders = 0) : SessionStep h (h.leave .finished)
  | turnBack (turn : h.turn = .writing []) : SessionStep h { h with turn := .receiving }
  | fail {reply : Reply} {replies : List Reply} (turn : h.turn = .writing (reply :: replies))
      (full : h.room = some 0) : SessionStep h (h.leave (.failed closedOutput))
  | write {reply : Reply} {replies : List Reply} (turn : h.turn = .writing (reply :: replies))
      (accepts : h.room ≠ some 0) :
      SessionStep h { h with
        written := h.written ++ [reply.encode], turn := .writing replies,
        room := h.room.map (· - 1) }

theorem stepSession?_eq_some {h next : Host} :
    h.stepSession? = some next ↔ SessionStep h next := by
  constructor
  · intro moved
    unfold stepSession? at moved
    cases turn : h.turn with
    | receiving =>
      cases queue : h.listener.channel.queue with
      | nil =>
        simp only [turn, queue] at moved
        split at moved
        next alone =>
          obtain rfl := Option.some.inj moved
          exact .finish turn queue alone
        · contradiction
      | cons delivery queue =>
        obtain rfl := by simpa [turn, queue] using moved
        exact .take turn ‹_›
    | writing replies =>
      cases replies with
      | nil =>
        obtain rfl := by simpa [turn] using moved
        exact .turnBack turn
      | cons reply replies =>
        simp only [turn] at moved
        split at moved
        next full =>
          obtain rfl := Option.some.inj moved
          exact .fail turn full
        next accepts =>
          obtain rfl := Option.some.inj moved
          exact .write turn accepts
    | finished => simp [turn] at moved
    | failed reason => simp [turn] at moved
  · intro step
    cases step with
    | take turn waiting => simp [stepSession?, turn, waiting]
    | finish turn empty alone => simp [stepSession?, turn, empty, alone]
    | turnBack turn => simp [stepSession?, turn]
    | fail turn full => simp [stepSession?, turn, full]
    | write turn accepts =>
      cases room : h.room with
      | none => simp [stepSession?, turn, room]
      | some n =>
        cases n with
        | zero => exact absurd room accepts
        | succ n => simp [stepSession?, turn, room]

/-- A session that has failed does nothing more. -/
theorem SessionStep.fine {h next : Host} (step : SessionStep h next) : h.failure? = none := by
  cases step <;> simp [failure?, *]

inductive Step (h : Host) : Mover → Host → Prop where
  | reader {i : Nat} {r next : Reader} {l : Listener} (here : h.listener.readers[i]? = some r)
      (step : ReaderStep h.listener r next l) :
      Step h (.reader i) { h with listener := { l with readers := l.readers.set i next } }
  | session {next : Host} (step : SessionStep h next) : Step h .session next
  | stop : Step h .stopper { h with listener := h.listener.stop }

theorem step?_eq_some {h next : Host} {mover : Mover} :
    h.step? mover = some next ↔ Step h mover next := by
  constructor
  · intro moved
    cases mover with
    | reader i =>
      obtain ⟨l, stepped, rfl⟩ := Option.map_eq_some_iff.mp moved
      unfold Listener.step? at stepped
      split at stepped
      · contradiction
      next r here =>
        obtain ⟨⟨_, _⟩, inner, rfl⟩ := Option.map_eq_some_iff.mp stepped
        exact .reader here (stepReader?_eq_some.mp inner)
    | session => exact .session (stepSession?_eq_some.mp moved)
    | stopper =>
      obtain rfl := Option.some.inj moved
      exact .stop
  · intro step
    cases step with
    | reader here step =>
      simp [step?, stepReader?, Listener.step?, here, stepReader?_eq_some.mpr step]
    | session step => exact stepSession?_eq_some.mpr step
    | stop => rfl

theorem execute_append (h : Host) (schedule more : List Mover) :
    h.execute (schedule ++ more) = (h.execute schedule).execute more := by
  induction schedule generalizing h with
  | nil => rfl
  | cons mover schedule ih => exact ih _

/-- What every step keeps holds after every schedule; a mover that has to wait changes nothing. -/
theorem execute_keeps {P : Host → Prop}
    (keeps : ∀ {h next : Host} {mover : Mover}, P h → Step h mover next → P next) {h : Host}
    (holds : P h) (schedule : List Mover) : P (h.execute schedule) := by
  induction schedule generalizing h with
  | nil => exact holds
  | cons mover schedule ih =>
    rw [execute]
    cases moved : h.step? mover with
    | none => exact ih holds
    | some next => exact ih (keeps holds (step?_eq_some.mp moved))

end Host

end Keymap.Replay
