import Keymap.Proofs.Lines
import Keymap.Proofs.Steps

/-! How a host ends. Its steps run out under every schedule; what is left then depends on whether
the listener is still in use, because the listener holds an end of the channel of its own. -/
namespace Keymap.Replay

/-- How far a reader is with its line; it goes down from a line to the next one. -/
def Stage.work : Stage → Nat
  | .gone => 0
  | .leaving => 1
  | .reading => 2
  | .sending _ => 3
  | .checking _ => 4

def Reader.work (r : Reader) : Nat := 3 * r.input.length + r.stage.work

def Turn.work : Turn → Nat
  | .finished | .failed _ => 0
  | .receiving => 1
  | .writing replies => replies.length + 2

theorem check_work (running : Bool) (line : Option String) :
    (Listener.check running line).work < 4 := by
  cases line with
  | none => simp [Listener.check, Stage.work]
  | some line =>
    cases running with
    | false => simp [Listener.check, Stage.work]
    | true => by_cases blank : Text.trim line = "" <;> simp [Listener.check, Stage.work, blank]

theorem ReaderStep.work_lt {l after : Listener} {r next : Reader}
    (step : ReaderStep l r next after) : next.work < r.work := by
  cases step with
  | readLine stage found =>
    have shorter := Text.nextLine?_shorter found
    simp only [Reader.work, stage, Stage.work]
    omega
  | readRest stage unfinished ended more =>
    have some := List.length_pos_iff.mpr more
    simp only [Reader.work, stage, Stage.work, List.length_nil]
    omega
  | check stage =>
    have less := check_work l.running ‹_›
    simp only [Reader.work, stage]
    exact Nat.add_lt_add_left less _
  | _ => simp [Reader.work, Stage.work, *]

/-- A reader waits for nothing but room on the channel. -/
theorem reader_moves {l : Listener} {r : Reader} (ended : r.ended = true)
    (fits : l.channel.queue.length < l.channel.capacity) (alive : r.isAlive = true) :
    ∃ next after, ReaderStep l r next after := by
  cases stage : r.stage with
  | reading =>
    cases found : Text.nextLine? r.input with
    | some cut => exact ⟨_, _, .readLine stage found⟩
    | none =>
      by_cases empty : r.input = []
      · exact ⟨_, _, .readEnd stage ended empty⟩
      · exact ⟨_, _, .readRest stage found ended empty⟩
  | checking line => exact ⟨_, _, .check stage⟩
  | sending delivery =>
    cases receives : l.channel.isOpen with
    | true => exact ⟨_, _, .send stage receives fits⟩
    | false => exact ⟨_, _, .reject stage receives⟩
  | leaving => exact ⟨_, _, .leave stage⟩
  | gone => simp [Reader.isAlive, stage] at alive

namespace Host

/-- Nobody can step, short of a stop. -/
def Waits (h : Host) : Prop := h.stepSession? = none ∧ h.listener.stepAny? = none

/-- The session waits for a delivery although the reader is gone and everything is answered. -/
structure IsStuck (h : Host) : Prop where
  gone : ∀ r ∈ h.listener.readers, r.isAlive = false
  empty : h.listener.channel.queue = []
  turn : h.turn = .receiving
  waits : h.stepSession? = none

structure Course (size : Nat) (kept : Bool) (r : Reader) (h : Host) : Prop where
  reader : h.listener.readers = [r]
  ended : r.ended = true
  capacity : h.listener.channel.capacity = size
  isKept : h.listener.isKept = kept
  unlimited : h.room = none
  fine : h.failure? = none
  /-- A session that still has a sender does not finish. -/
  finished : h.turn = .finished → kept = false

variable {size : Nat} {kept : Bool} {r : Reader} {h next : Host}

theorem start_course (settings : Settings) (input : List UInt8) (capacity : Nat) (isKept : Bool) :
    Course capacity isKept { input := input, ended := true }
      (Host.start settings input capacity isKept) :=
  ⟨rfl, rfl, rfl, rfl, rfl, rfl, nofun⟩

theorem reader_course (course : Course size kept r h) {r' : Reader} {after : Listener}
    (step : ReaderStep h.listener r r' after) :
    Course size kept r'
      { h with listener := { after with readers := after.readers.set 0 r' } } := by
  obtain ⟨ended, readers, isKept, capacity⟩ := step.frame
  refine ⟨?_, ?_, ?_, ?_, course.unlimited, course.fine, course.finished⟩
  · simp [readers, course.reader]
  · rw [ended, course.ended]
  · exact capacity.trans course.capacity
  · exact isKept.trans course.isKept

theorem session_course (course : Course size kept r h) (step : SessionStep h next) :
    Course size kept r next := by
  obtain ⟨reader, ended, capacity, isKept, unlimited, fine, finished⟩ := course
  cases step with
  | take turn waiting => exact ⟨reader, ended, capacity, isKept, unlimited, rfl, nofun⟩
  | finish turn empty alone =>
    refine ⟨reader, ended, capacity, isKept, unlimited, rfl, fun _ => ?_⟩
    cases kept with
    | false => rfl
    | true => simp [Listener.senders, isKept] at alone
  | turnBack turn => exact ⟨reader, ended, capacity, isKept, unlimited, rfl, nofun⟩
  | fail turn full => simp [unlimited] at full
  | write turn accepts =>
    exact ⟨reader, ended, capacity, isKept, by simp [unlimited], rfl, nofun⟩

theorem step_course {mover : Mover} (course : Course size kept r h)
    (step : Step h mover next) : ∃ r', Course size kept r' next := by
  cases step with
  | reader here step =>
    obtain ⟨rfl, rfl⟩ := only_reader course.reader here
    exact ⟨_, reader_course course step⟩
  | session step => exact ⟨r, session_course course step⟩
  | stop =>
    exact ⟨r, course.reader, course.ended, course.capacity, course.isKept, course.unlimited,
      course.fine, course.finished⟩

theorem execute_course (course : Course size kept r h) (schedule : List Mover) :
    ∃ r', Course size kept r' (h.execute schedule) :=
  execute_keeps (P := fun h => ∃ r, Course size kept r h)
    (fun ⟨_, course⟩ step => step_course course step) ⟨r, course⟩ schedule

/-- A step of the session takes a delivery off the channel, or writes a line, or ends. -/
theorem SessionStep.work_lt (step : SessionStep h next) :
    Prod.Lex (· < ·) (· < ·) (next.listener.channel.queue.length, next.turn.work)
      (h.listener.channel.queue.length, h.turn.work) := by
  cases step with
  | take turn waiting => exact .left _ _ (by simp [waiting])
  | finish turn empty alone =>
    simp only [leave, Listener.close, empty, turn]
    exact .right _ (by decide)
  | turnBack turn =>
    simp only [turn]
    exact .right _ (by decide)
  | @fail reply replies turn full =>
    simp only [leave, Listener.close, turn]
    cases h.listener.channel.queue with
    | nil => exact .right _ (by simp [Turn.work])
    | cons => exact .left _ _ (by simp)
  | write turn accepts =>
    simp only [turn]
    exact .right _ (by simp [Turn.work])

theorem Waits.session (waits : h.Waits) (step : SessionStep h next) : False := by
  have moved := stepSession?_eq_some.mpr step
  rw [waits.1] at moved
  contradiction

theorem Waits.reader (waits : h.Waits) (course : Course size kept r h) {r' : Reader}
    {after : Listener} (step : ReaderStep h.listener r r' after) : False := by
  have nobody := List.findSome?_eq_none_iff.mp waits.2 0 (by simp [course.reader])
  simp [Listener.step?, course.reader, stepReader?_eq_some.mpr step] at nobody

/-- When nobody can step, everything is answered; whether the session has finished is then a matter
of the listener alone. -/
theorem waits_outcome (course : Course size kept r h) (roomy : 0 < size) (waits : h.Waits) :
    if kept then h.IsStuck else h.turn = .finished := by
  cases turn : h.turn with
  | receiving =>
    have empty : h.listener.channel.queue = [] := by
      cases queue : h.listener.channel.queue with
      | nil => rfl
      | cons delivery queue => exact (waits.session (.take turn queue)).elim
    have fits : h.listener.channel.queue.length < h.listener.channel.capacity := by
      rw [empty, course.capacity]
      exact roomy
    have gone : r.isAlive = false := by
      cases alive : r.isAlive with
      | false => rfl
      | true =>
        obtain ⟨r', after, step⟩ := reader_moves course.ended fits alive
        exact (waits.reader course step).elim
    have senders : h.listener.senders = if kept then 1 else 0 := by
      simp [Listener.senders, course.isKept, course.reader, gone]
    cases kept with
    | false => exact (waits.session (.finish turn empty senders)).elim
    | true => exact ⟨by simpa [course.reader] using gone, empty, turn, waits.1⟩
  | writing replies =>
    cases replies with
    | nil => exact (waits.session (.turnBack turn)).elim
    | cons reply replies =>
      have accepts : h.room ≠ some 0 := by simp [course.unlimited]
      exact (waits.session (.write turn accepts)).elim
  | finished => simp [course.finished turn]
  | failed reason =>
    have fine := course.fine
    simp [failure?, turn] at fine

/-- A session finishes only when nothing can arrive any more. -/
def FinishesLast (h : Host) : Prop :=
  h.turn = .finished → h.listener.channel.queue = [] ∧ h.listener.senders = 0

theorem step_finishesLast {mover : Mover} (last : h.FinishesLast) (step : Step h mover next) :
    next.FinishesLast := by
  cases step with
  | reader here step =>
    intro finished
    obtain ⟨_, none⟩ := last finished
    -- The reader that steps is a sender.
    have sends := List.countP_pos_iff.mpr ⟨_, List.mem_of_getElem? here, step.alive⟩
    have counted : h.listener.readers.countP Reader.isAlive ≤ h.listener.senders := Nat.le_add_left ..
    omega
  | session step =>
    cases step with
    | finish turn empty alone => exact fun _ => ⟨rfl, alone⟩
    | _ => nofun
  | stop => exact last

theorem stuck_kept (course : Course size kept r h) (stuck : h.IsStuck) : kept = true := by
  cases kept with
  | true => rfl
  | false =>
    have gone : r.isAlive = false := stuck.gone r (by simp [course.reader])
    have alone : h.listener.senders = 0 := by
      simp [Listener.senders, course.isKept, course.reader, gone]
    have moved := stepSession?_eq_some.mpr (.finish stuck.turn stuck.empty alone)
    rw [stuck.waits] at moved
    contradiction

/-- Steps run out: the reader gets on with its input, the channel drains, or lines are written. -/
theorem waits_later {r : Reader} {h : Host} (course : Course size kept r h) :
    ∃ more, .stopper ∉ more ∧ (h.execute more).Waits := by
  cases session : h.stepSession? with
  | some next =>
    -- The reader stays where it is, and the channel and the turn get smaller in that order.
    have step := stepSession?_eq_some.mp session
    have less := step.work_lt
    obtain ⟨more, calm, waits⟩ := waits_later (session_course course step)
    exact ⟨.session :: more, by simp [calm], by simpa [execute, step?, session] using waits⟩
  | none =>
    cases reader : h.listener.stepAny? with
    | none => exact ⟨[], by simp, session, reader⟩
    | some l =>
      obtain ⟨i, _, found⟩ := List.exists_of_findSome?_eq_some reader
      have moved : h.step? (.reader i) = some { h with listener := l } := by
        simp [step?, stepReader?, found]
      cases step?_eq_some.mp moved with
      | reader here step =>
        obtain ⟨rfl, same⟩ := only_reader course.reader here
        rw [same] at step
        have less := step.work_lt
        obtain ⟨more, calm, waits⟩ := waits_later (reader_course course step)
        refine ⟨.reader 0 :: more, by simp [calm], ?_⟩
        simpa [execute, moved] using waits
termination_by (r.work, h.listener.channel.queue.length, h.turn.work)
decreasing_by
  · exact .left _ _ less
  · exact .right _ less

/-- From every reachable state the session can end up waiting for good exactly when the listener is
kept, because the listener's own end of the channel outlives the reader. It finishes exactly when the
listener is not kept, and then every run that nobody can carry on has finished. -/
theorem end_of_input (settings : Settings) (input : List UInt8) (capacity : Nat) (isKept : Bool)
    (schedule : List Mover) (roomy : 0 < capacity) :
    let h := (Host.start settings input capacity isKept).execute schedule
    ((∃ more, .stopper ∉ more ∧ (h.execute more).IsStuck) ↔ isKept = true) ∧
    ((∃ more, .stopper ∉ more ∧ (h.execute more).turn = .finished) ↔ isKept = false) ∧
    (h.Waits → if isKept then h.IsStuck else h.turn = .finished) := by
  intro h
  obtain ⟨r, course⟩ := execute_course (start_course settings input capacity isKept) schedule
  obtain ⟨more, calm, waits⟩ := waits_later course
  obtain ⟨_, later⟩ := execute_course course more
  have outcome := waits_outcome later roomy waits
  refine ⟨⟨?_, ?_⟩, ⟨?_, ?_⟩, waits_outcome course roomy⟩
  · rintro ⟨more, _, stuck⟩
    obtain ⟨_, course⟩ := execute_course course more
    exact stuck_kept course stuck
  · rintro rfl
    exact ⟨more, calm, outcome⟩
  · rintro ⟨more, _, finished⟩
    obtain ⟨_, course⟩ := execute_course course more
    exact course.finished finished
  · rintro rfl
    exact ⟨more, calm, outcome⟩

def keptHost : Host :=
  (Host.start ⟨[], .other, .exact⟩ (Text.bytes "[\"ping\"]") channelCapacity true).execute
    [.reader 0, .reader 0, .reader 0, .reader 0, .reader 0, .session, .session, .session]

theorem end_of_input_kept : 0 < channelCapacity ∧ keptHost.Waits ∧ keptHost.IsStuck := by
  have roomy : 0 < channelCapacity := by decide
  have waits : keptHost.Waits := ⟨by decide +kernel, by decide +kernel⟩
  obtain ⟨_, _, outcome⟩ :=
    end_of_input ⟨[], .other, .exact⟩ (Text.bytes "[\"ping\"]") channelCapacity true
      [.reader 0, .reader 0, .reader 0, .reader 0, .reader 0, .session, .session, .session] roomy
  exact ⟨roomy, waits, outcome waits⟩

end Host

end Keymap.Replay
