import Keymap.Proofs.Ending
import Keymap.Proofs.Transcript

/-! From the lines of an input to the lines of the output. Under every schedule a delivery is in one
place only: still with the reader, on the channel, or answered; and all of them stay in order. -/
namespace Keymap.Replay

/-- What a reader has still to forward when nobody stops it. -/
def Reader.due (r : Reader) : List Delivery :=
  let lines := (Text.byteLines r.input).map Text.ofBytes?
  match r.stage with
  | .reading => deliveries lines
  | .checking line => deliveries (line :: lines)
  | .sending delivery => delivery :: deliveries lines
  | .leaving | .gone => []

theorem due_check (r : Reader) (line : Option String) :
    Reader.due { r with stage := Listener.check true line } =
      Reader.due { r with stage := .checking line } := by
  cases line with
  | none => rfl
  | some line =>
    by_cases blank : Text.trim line = "" <;> simp [Listener.check, Reader.due, deliveries, blank]

def Listener.carries (l : Listener) : Prop := l.running = true ∧ l.channel.isOpen = true

/-- A reader keeps the order of its lines, and loses none on its own account. -/
theorem ReaderStep.forward {l after : Listener} {r next : Reader}
    (step : ReaderStep l r next after) :
    ∃ put, after.channel = { l.channel with queue := l.channel.queue ++ put } ∧
      (put = [] ∨ l.channel.isOpen = true) ∧ put ++ next.due <+: r.due ∧
      (l.carries → put ++ next.due = r.due ∧ (next.isAlive = true → after.carries)) := by
  cases step with
  | @readLine line rest stage found =>
    have same : Reader.due { r with input := rest, stage := .checking (Text.ofBytes? line) } =
        r.due := by
      simp [Reader.due, stage, Text.byteLines_of_nextLine? found]
    exact ⟨[], by simp, .inl rfl, same ▸ List.prefix_rfl,
      fun carries => ⟨same, fun _ => carries⟩⟩
  | readRest stage unfinished ended more =>
    have same : Reader.due { r with input := [], stage := .checking (Text.ofBytes? r.input) } =
        r.due := by
      rw [Reader.due, Reader.due, stage, Text.byteLines_of_unfinished unfinished more]
      rfl
    exact ⟨[], by simp, .inl rfl, same ▸ List.prefix_rfl,
      fun carries => ⟨same, fun _ => carries⟩⟩
  | readEnd stage ended empty =>
    have nothing : r.due = [] := by
      rw [Reader.due, stage, empty]
      rfl
    exact ⟨[], by simp, .inl rfl, List.nil_prefix,
      fun carries => ⟨nothing.symm, fun _ => carries⟩⟩
  | @check line stage =>
    have same : Reader.due { r with stage := .checking line } = r.due := by rw [← stage]
    refine ⟨[], by simp, .inl rfl, ?_, ?_⟩
    · cases running : l.running with
      | true =>
        rw [← same, ← due_check]
        exact List.prefix_rfl
      | false =>
        have leaves : Listener.check false line = .leaving := by cases line <;> rfl
        rw [leaves]
        exact List.nil_prefix
    · intro carries
      rw [carries.1]
      exact ⟨(due_check r line).trans same, fun _ => carries⟩
  | reject stage closed =>
    refine ⟨[], by simp, .inl rfl, List.nil_prefix, ?_⟩
    intro carries
    simp [carries.2] at closed
  | @send delivery stage receives fits =>
    have same : [delivery] ++ Reader.due { r with stage := .reading } = r.due := by
      simp [Reader.due, stage]
    exact ⟨[delivery], rfl, .inr receives, same ▸ List.prefix_rfl,
      fun carries => ⟨same, fun _ => carries⟩⟩
  | leave stage =>
    have nothing : r.due = [] := by rw [Reader.due, stage]
    exact ⟨[], by simp, .inl rfl, List.nil_prefix, fun _ => ⟨nothing.symm, nofun⟩⟩

def Turn.pending : Turn → List Reply
  | .writing replies => replies
  | _ => []

/-- What has happened so far, which the host itself does not keep. -/
structure Past where
  sent : List Delivery := []
  taken : List Delivery := []
  /-- The replies that were not written, and the deliveries that were not taken, when the output
  refused a line. -/
  lost : List Reply := []
  dropped : List Delivery := []

/-- Where the deliveries of an input are. `first` is the session at the start, `all` is what the
lines of the input are forwarded as, and `r` is the only reader. -/
structure Flow (first : Session) (all : List Delivery) (isCalm : Prop) (past : Past) (r : Reader)
    (h : Host) : Prop where
  reader : h.listener.readers = [r]
  ended : r.ended = true
  session : (first.answerAll past.taken).1 = h.session
  replies : h.written ++ (h.turn.pending ++ past.lost).map Reply.encode =
    (first.answerAll past.taken).2.map Reply.encode
  queued : past.taken ++ (h.listener.channel.queue ++ past.dropped) = past.sent
  lossless : h.listener.channel.isOpen = true ∨ h.failure? = none →
    past.lost = [] ∧ past.dropped = []
  due : past.sent ++ r.due <+: all
  complete : isCalm → h.failure? = none →
    past.sent ++ r.due = all ∧ (r.isAlive = true → h.listener.carries)

namespace Host

variable {first : Session} {all : List Delivery} {isCalm : Prop} {past : Past} {r : Reader}
  {h next : Host}

def puts (h : Host) : Mover → List Delivery
  | .reader i => ((h.step? (.reader i)).getD h).listener.channel.queue.drop
      h.listener.channel.queue.length
  | _ => []

def forwarded (h : Host) : List Mover → List Delivery
  | [] => []
  | mover :: schedule => h.puts mover ++ ((h.step? mover).getD h).forwarded schedule

theorem reader_flow (flow : Flow first all isCalm past r h) {r' : Reader} {after : Listener}
    (step : ReaderStep h.listener r r' after) :
    ∃ put, after.channel.queue = h.listener.channel.queue ++ put ∧
      Flow first all isCalm { past with sent := past.sent ++ put } r'
        { h with listener := { after with readers := after.readers.set 0 r' } } := by
  obtain ⟨ended, readers, _⟩ := step.frame
  obtain ⟨put, channel, receives, due, complete⟩ := step.forward
  refine ⟨put, by rw [channel], ?_⟩
  refine ⟨?_, ?_, flow.session, flow.replies, ?_, ?_, ?_, ?_⟩
  · simp [readers, flow.reader]
  · rw [ended, flow.ended]
  -- Something is put on an open channel only, and nothing has been dropped while it is open.
  · rcases receives with rfl | receives
    · simpa [channel] using flow.queued
    · have nothing := (flow.lossless (.inl receives)).2
      have queued := flow.queued
      simp [channel, nothing, ← queued]
  · have receives : after.channel.isOpen = h.listener.channel.isOpen := by rw [channel]
    exact fun fine => flow.lossless (receives ▸ fine)
  · rw [List.append_assoc]
    exact ((List.prefix_append_right_inj past.sent).mpr due).trans flow.due
  · intro calm fine
    obtain ⟨whole, carries⟩ := flow.complete calm fine
    obtain ⟨same, keeps⟩ := complete (carries step.alive)
    rw [List.append_assoc, same]
    exact ⟨whole, keeps⟩

theorem session_flow (flow : Flow first all isCalm past r h) (step : SessionStep h next) :
    ∃ past', past'.sent = past.sent ∧ Flow first all isCalm past' r next := by
  have fine := step.fine
  obtain ⟨kept, nothing⟩ := flow.lossless (.inr fine)
  cases step with
  | @take delivery queue turn waiting =>
    have answered := first.answerAll_snoc past.taken delivery
    rw [flow.session] at answered
    refine ⟨{ past with taken := past.taken ++ [delivery] }, rfl, flow.reader, flow.ended, ?_, ?_,
      ?_, ?_, flow.due, ?_⟩
    · rw [answered]
    · have replies := flow.replies
      simp only [turn, Turn.pending, kept, List.append_nil, List.map_nil] at replies
      simp [answered, replies, Turn.pending, kept]
    · simpa [waiting] using flow.queued
    · exact fun _ => ⟨kept, nothing⟩
    · exact fun calm _ => flow.complete calm fine
  | finish turn empty alone =>
    refine ⟨past, rfl, flow.reader, flow.ended, flow.session, ?_, ?_, ?_, flow.due, ?_⟩
    · simpa [leave, turn, Turn.pending] using flow.replies
    · simpa [leave, Listener.close, empty] using flow.queued
    · exact fun _ => ⟨kept, nothing⟩
    -- A reader that is alive is a sender, so the session could not have finished.
    · intro calm _
      obtain ⟨whole, _⟩ := flow.complete calm fine
      refine ⟨whole, fun alive => ?_⟩
      simp [Listener.senders, flow.reader, alive] at alone
  | turnBack turn =>
    refine ⟨past, rfl, flow.reader, flow.ended, flow.session, ?_, flow.queued, ?_, flow.due, ?_⟩
    · simpa [turn, Turn.pending] using flow.replies
    · exact fun _ => ⟨kept, nothing⟩
    · exact fun calm _ => flow.complete calm fine
  | @fail reply replies turn full =>
    refine ⟨{ past with
        lost := reply :: replies ++ past.lost
        dropped := h.listener.channel.queue ++ past.dropped },
      rfl, flow.reader, flow.ended, flow.session, ?_, flow.queued, ?_, flow.due, ?_⟩
    · simpa [leave, turn, Turn.pending] using flow.replies
    · intro usable
      simp [leave, Listener.close, failure?] at usable
    · intro _ unfailed
      simp [leave, failure?] at unfailed
  | @write reply replies turn accepts =>
    refine ⟨past, rfl, flow.reader, flow.ended, flow.session, ?_, flow.queued, ?_, flow.due, ?_⟩
    · simpa [turn, Turn.pending] using flow.replies
    · exact fun _ => ⟨kept, nothing⟩
    · exact fun calm _ => flow.complete calm fine

theorem stop_flow (flow : Flow first all isCalm past r h) (hurried : ¬isCalm) :
    Flow first all isCalm past r { h with listener := h.listener.stop } :=
  ⟨flow.reader, flow.ended, flow.session, flow.replies, flow.queued, flow.lossless, flow.due,
    fun calm => absurd calm hurried⟩

/-- Whoever steps, the deliveries stay in order, and only a stop or a refused line loses any. -/
theorem step_flow {mover : Mover} (flow : Flow first all isCalm past r h) (step : Step h mover next)
    (calm : mover = .stopper → ¬isCalm) :
    ∃ past' r', past'.sent = past.sent ++ h.puts mover ∧ Flow first all isCalm past' r' next := by
  have moved := step?_eq_some.mpr step
  cases step with
  | @reader i r next l here step =>
    obtain ⟨rfl, rfl⟩ := only_reader flow.reader here
    obtain ⟨put, queue, later⟩ := reader_flow flow step
    have puts : h.puts (.reader 0) = put := by simp [Host.puts, moved, queue]
    exact ⟨_, _, by rw [puts], later⟩
  | session step =>
    obtain ⟨past', same, later⟩ := session_flow flow step
    exact ⟨past', r, by simp [same, Host.puts], later⟩
  | stop => exact ⟨past, r, by simp [Host.puts], stop_flow flow (calm rfl)⟩

theorem execute_flow {schedule : List Mover} (flow : Flow first all isCalm past r h)
    (calm : .stopper ∈ schedule → ¬isCalm) :
    ∃ past' r', past'.sent = past.sent ++ h.forwarded schedule ∧
      Flow first all isCalm past' r' (h.execute schedule) := by
  induction schedule generalizing past r h with
  | nil => exact ⟨past, r, by simp [forwarded], flow⟩
  | cons mover schedule ih =>
    have later : .stopper ∈ schedule → ¬isCalm := fun member => calm (List.mem_cons_of_mem _ member)
    cases moved : h.step? mover with
    | none =>
      have puts : h.puts mover = [] := by cases mover <;> simp [Host.puts, moved]
      simpa [execute, forwarded, moved, puts] using ih flow later
    | some next =>
      have here : mover = .stopper → ¬isCalm := by
        rintro rfl
        exact calm List.mem_cons_self
      obtain ⟨past', r', sent, flow⟩ := step_flow flow (step?_eq_some.mp moved) here
      simpa [execute, forwarded, moved, sent] using ih flow later

def unwritten (h : Host) : String := unlines (h.turn.pending.map Reply.encode)

theorem start_flow (settings : Settings) (input : List UInt8) (capacity : Nat) (isKept : Bool)
    (room : Option Nat) (isCalm : Prop) :
    let start := { Host.start settings input capacity isKept with room := room }
    Flow start.session (deliveries ((Text.byteLines input).map Text.ofBytes?)) isCalm {}
      { input := input, ended := true } start :=
  ⟨rfl, rfl, rfl, rfl, rfl, fun _ => ⟨rfl, rfl⟩, List.prefix_rfl,
    fun _ _ => ⟨rfl, fun _ => ⟨rfl, rfl⟩⟩⟩

theorem flow_written (flow : Flow first all isCalm past r h) :
    h.written ++ h.turn.pending.map Reply.encode <+: (first.answerAll all).2.map Reply.encode := by
  have taken : past.taken <+: past.sent := ⟨_, flow.queued⟩
  have taken : past.taken <+: all := (taken.trans (List.prefix_append ..)).trans flow.due
  have answered := (first.answerAll_prefix taken).map Reply.encode
  rw [← flow.replies, List.map_append, ← List.append_assoc] at answered
  exact (List.prefix_append ..).trans answered

/-- Without a stop or a refused line everything is answered once the reader is gone, the channel is
empty and no reply is left to be written. -/
theorem flow_answered (flow : Flow first all isCalm past r h) (calm : isCalm)
    (gone : r.isAlive = false) (empty : h.listener.channel.queue = [])
    (fine : h.failure? = none) (idle : h.turn.pending = []) :
    h.session = (first.answerAll all).1 ∧
    h.written = (first.answerAll all).2.map Reply.encode := by
  obtain ⟨whole, _⟩ := flow.complete calm fine
  obtain ⟨kept, nothing⟩ := flow.lossless (.inr fine)
  have nothingDue : r.due = [] := by
    have stage : r.stage = .gone := by simpa [Reader.isAlive] using gone
    rw [Reader.due, stage]
  have taken : past.taken = all := by
    rw [← whole, nothingDue, ← flow.queued, empty, nothing]
    simp
  rw [← taken, ← flow.replies, idle, kept]
  exact ⟨flow.session.symm, by simp⟩

theorem flow_settled (flow : Flow first all isCalm past r h) (calm : isCalm)
    (gone : r.isAlive = false) (empty : h.listener.channel.queue = []) (turn : h.turn = .receiving) :
    h.written = (first.answerAll all).2.map Reply.encode :=
  (flow_answered flow calm gone empty (by simp [failure?, turn]) (by simp [turn, Turn.pending])).2

/-- Where nobody stops the reader and the output is without limit, everything is answered once
nobody can step any more. -/
theorem waits_answered {size : Nat} {kept : Bool} {schedule : List Mover} {start : Host}
    (flow : Flow first all (.stopper ∉ schedule) past r start)
    (course : Course size kept r start) (last : start.FinishesLast) (roomy : 0 < size)
    (calm : .stopper ∉ schedule) (waits : (start.execute schedule).Waits) :
    (start.execute schedule).session = (first.answerAll all).1 ∧
    (start.execute schedule).written = (first.answerAll all).2.map Reply.encode := by
  obtain ⟨_, r, _, flow⟩ := execute_flow flow fun member calm => calm member
  obtain ⟨_, course⟩ := execute_course course schedule
  have outcome := waits_outcome course roomy waits
  have last := execute_keeps step_finishesLast last schedule
  generalize start.execute schedule = h at *
  cases kept with
  | true =>
    obtain ⟨gone, empty, turn, _⟩ : h.IsStuck := outcome
    exact flow_answered flow calm (gone r (by simp [flow.reader])) empty (by simp [failure?, turn])
      (by simp [turn, Turn.pending])
  | false =>
    have turn : h.turn = .finished := outcome
    obtain ⟨empty, none⟩ := last turn
    have gone : r.isAlive = false := by
      simp [Listener.senders, flow.reader] at none
      exact none.2
    exact flow_answered flow calm gone empty (by simp [failure?, turn]) (by simp [turn, Turn.pending])

/-- The output is at every moment a beginning of what the session would answer to the lines one
after the other, and all of it once everybody waits; a stop cuts the forwarded lines off, but leaves
no gap. -/
theorem replay_in_order (settings : Settings) (text : String) (capacity : Nat) (isKept : Bool)
    (room : Option Nat) (schedule : List Mover) :
    let start := { Host.start settings (Text.bytes text) capacity isKept with room := room }
    let h := start.execute schedule
    let lines := Text.linesOf text
    let reference := start.session.transcript lines
    (∀ part, part <+: Text.bytes h.unwritten →
      Text.bytes h.output ++ part <+: Text.bytes reference) ∧
    (.stopper ∉ schedule → (∀ r ∈ h.listener.readers, r.isAlive = false) →
      h.listener.channel.queue = [] → h.turn = .receiving → h.output = reference) ∧
    start.forwarded schedule <+:
      (lines.filter fun line => Text.trim line ≠ "").map Delivery.ofLine := by
  intro start h lines reference
  have all : deliveries ((Text.byteLines (Text.bytes text)).map Text.ofBytes?) =
      deliveries (lines.map some) := by
    rw [Text.byteLines_bytes]
  have first := start_flow settings (Text.bytes text) capacity isKept room (.stopper ∉ schedule)
  rw [all] at first
  obtain ⟨past, r, sent, flow⟩ := execute_flow first fun member calm => calm member
  have output : h.output = unlines h.written := rfl
  have complete : reference =
      unlines ((start.session.answerAll (deliveries (lines.map some))).2.map Reply.encode) := by
    rw [← Session.readLines_eq]
    rfl
  refine ⟨?_, ?_, ?_⟩
  · intro part begun
    have whole := unlines_prefix (flow_written flow)
    rw [unlines_append, Text.bytes_append] at whole
    rw [output, complete]
    exact ((List.prefix_append_right_inj _).mpr begun).trans whole
  · intro calm gone empty turn
    have ended : r.isAlive = false := by
      apply gone
      rw [flow.reader]
      exact List.mem_singleton_self r
    rw [output, complete, flow_settled flow calm ended empty turn]
  · rw [← deliveries_text]
    have forwarded : start.forwarded schedule = past.sent := sent.symm
    rw [forwarded]
    exact (List.prefix_append ..).trans flow.due

def sampleInput : String := "[\"ping\"]\r\n \n["

def sampleStart : Host := Host.start ⟨[], .other, .exact⟩ (Text.bytes sampleInput) 1 true

def sampleSchedule : List Mover :=
  [.reader 0, .reader 0, .session, .reader 0, .reader 0, .session, .reader 0, .session, .session,
    .reader 0, .reader 0, .reader 0, .reader 0, .reader 0, .session, .session, .session]

theorem replay_in_order_sample :
    .stopper ∉ sampleSchedule ∧
    (∀ r ∈ (sampleStart.execute sampleSchedule).listener.readers, r.isAlive = false) ∧
    (sampleStart.execute sampleSchedule).listener.channel.queue = [] ∧
    (sampleStart.execute sampleSchedule).turn = .receiving ∧
    (sampleStart.execute sampleSchedule).written.length = 2 ∧
    (sampleStart.execute sampleSchedule).output =
      sampleStart.session.transcript ["[\"ping\"]", " ", "["] := by
  have calm : .stopper ∉ sampleSchedule := by decide
  have gone : ∀ r ∈ (sampleStart.execute sampleSchedule).listener.readers, r.isAlive = false := by
    decide +kernel
  have empty : (sampleStart.execute sampleSchedule).listener.channel.queue = [] := by
    decide +kernel
  have turn : (sampleStart.execute sampleSchedule).turn = .receiving := by decide +kernel
  have lines : Text.linesOf sampleInput = ["[\"ping\"]", " ", "["] := by decide +kernel
  obtain ⟨_, complete, _⟩ :=
    replay_in_order ⟨[], .other, .exact⟩ sampleInput 1 true none sampleSchedule
  refine ⟨calm, gone, empty, turn, by decide +kernel, ?_⟩
  rw [← lines]
  exact complete calm gone empty turn

end Host

end Keymap.Replay
