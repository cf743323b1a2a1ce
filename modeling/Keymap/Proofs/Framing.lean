import Keymap.Proofs.Flow
import Keymap.Proofs.Replies
import Mathlib.Data.List.Forall2

/-! The stream of replies can be taken apart again: at its line ends into the replies, and at the
replies that end an answer into the answers, one for every delivery. -/
namespace Keymap

namespace Text

/-- No byte of a text without control characters is one of them. -/
theorem bytes_printable {s : String} (printable : ∀ c ∈ s.toList, 0x20 ≤ c.toNat) :
    ∀ b ∈ bytes s, 0x20 ≤ b.toNat := by
  intro b member
  rw [bytes_eq, encode] at member
  obtain ⟨c, here, byte⟩ := List.mem_flatMap.mp member
  by_cases ascii : c.toNat < 128
  · rw [ascii_byte ascii] at byte
    rw [List.mem_singleton.mp byte, UInt8.toNat_ofNat', Nat.mod_eq_of_lt (by omega)]
    exact printable c here
  · have high := high_bytes (Nat.not_lt.mp ascii) b byte
    omega

theorem cutLines_line {line : List Char} (plain : ∀ c ∈ line, c ≠ '\n' ∧ c ≠ '\r')
    (rest : List Char) :
    cutLines '\n' '\r' (line ++ '\n' :: rest) = line :: cutLines '\n' '\r' rest := by
  have ended : cutLines '\n' '\r' ('\n' :: rest) = [] :: cutLines '\n' '\r' rest := by
    simp [cutLines]
  cases line with
  | nil => exact ended
  | cons c line =>
    rw [cutLines_append plain (by simp), ended, joinFirst, List.append_nil]

/-- Lines without line ends are the lines of what is written for them. -/
theorem linesOf_unlines {lines : List String}
    (plain : ∀ line ∈ lines, ∀ c ∈ line.toList, c ≠ '\n' ∧ c ≠ '\r') :
    linesOf (unlines lines) = lines := by
  induction lines with
  | nil => rfl
  | cons line lines ih =>
    obtain ⟨here, later⟩ := List.forall_mem_cons.mp plain
    have front : unlines (line :: lines) = line ++ "\n" ++ unlines lines := by
      rw [← List.singleton_append, unlines_append]
      simp [unlines]
    have rest := ih later
    rw [linesOf] at rest
    rw [linesOf, front, String.toList_append, String.toList_append, List.append_assoc]
    rw [show "\n".toList = ['\n'] from rfl, List.singleton_append, cutLines_line here, List.map_cons,
      rest, String.ofList_toList]

end Text

namespace Reply

def isTriggered : Reply → Bool
  | .triggered _ => true
  | _ => false

/-- Cuts replies behind every one that does not announce a hotkey. -/
def groups : List Reply → List (List Reply)
  | [] => []
  | r :: rs => if r.isTriggered then Text.joinFirst [r] (groups rs) else [r] :: groups rs

theorem groups_triggered (fired : List Triggered) {terminal : Reply}
    (ends : terminal.isTriggered = false) (rest : List Reply) :
    groups (fired.map .triggered ++ [terminal] ++ rest) =
      (fired.map .triggered ++ [terminal]) :: groups rest := by
  induction fired with
  | nil => simp [groups, ends]
  | cons what fired ih =>
    rw [List.map_cons, List.cons_append, List.cons_append, groups, ih]
    simp [isTriggered, Text.joinFirst]

end Reply

/-- The shape of an answer. What a delivery is answered with at the end depends on nothing but its
kind, and only a keyboard event has replies in front of that, which are counted at the end. -/
inductive Delivery.AnsweredBy : Delivery → List Reply → Prop where
  | key {event : KeyboardEvent} (fired : List Triggered) {count : UInt64}
      (counted : fired.length < UInt64.size → count.toNat = fired.length) :
      AnsweredBy (.request (.key event)) (fired.map .triggered ++ [.handled count])
  | register {keys : String} {options : PartialOptions} (id : HotkeyId) :
      AnsweredBy (.request (.register keys options)) [.registered id]
  | update {id : HotkeyId} {keys : String} {options : PartialOptions} (changed : Bool) :
      AnsweredBy (.request (.update id keys options)) [.ack changed]
  | unregister {id : HotkeyId} (changed : Bool) :
      AnsweredBy (.request (.unregister id)) [.ack changed]
  | activateScope {scope : String} (active : List String) :
      AnsweredBy (.request (.activateScope scope)) [.scopes active]
  | deactivateScope {scope : String} (active : List String) :
      AnsweredBy (.request (.deactivateScope scope)) [.scopes active]
  | toggleScope {scope : String} (active : List String) :
      AnsweredBy (.request (.toggleScope scope)) [.scopes active]
  | status (snapshot : Snapshot) : AnsweredBy (.request .status) [.status snapshot]
  | ping : AnsweredBy (.request .ping) [.pong]
  | malformed {e : ProtocolError} (code message : String) :
      AnsweredBy (.malformed e) [.error code message]

/-- An answer is the first group of the replies that begin with it. -/
theorem Delivery.AnsweredBy.groups {d : Delivery} {replies : List Reply}
    (answered : d.AnsweredBy replies) (rest : List Reply) :
    Reply.groups (replies ++ rest) = replies :: Reply.groups rest := by
  cases answered with
  | key fired counted => exact Reply.groups_triggered fired rfl rest
  | _ => exact Reply.groups_triggered [] rfl rest

namespace Session

theorem answer_answers (s : Session) (d : Delivery) : d.AnsweredBy (s.answer d).2 := by
  cases d with
  | malformed e => exact .malformed _ _
  | request r =>
    cases r with
    | key event =>
      exact .key (s.keyboard.handle event).answer.fired UInt64.toNat_ofNat_of_lt
    -- All other requests have a single reply.
    | register keys options => exact .register _
    | update id keys options => exact .update _
    | unregister id => exact .unregister _
    | activateScope scope => exact .activateScope _
    | deactivateScope scope => exact .deactivateScope _
    | toggleScope scope => exact .toggleScope _
    | status => exact .status _
    | ping => exact .ping

/-- The groups of the replies are the answers to the deliveries, in their order. -/
theorem groups_answerAll (s : Session) (ds : List Delivery) :
    List.Forall₂ Delivery.AnsweredBy ds (Reply.groups (s.answerAll ds).2) := by
  induction ds generalizing s with
  | nil => exact .nil
  | cons d ds ih =>
    have answered := s.answer_answers d
    rw [answerAll]
    simp only [answered.groups]
    exact .cons answered (ih _)

end Session

namespace Replay.Host

/-- A host on whose channel deliveries wait already, in front of those of an input. -/
def fed (s : Session) (waiting : List Delivery) (input : List UInt8) (capacity : Nat)
    (isKept : Bool) : Host where
  listener := {
    channel := { queue := waiting, capacity := capacity }
    running := true
    readers := [{ input := input, ended := true }]
    isKept := isKept }
  session := s

theorem fed_flow (s : Session) (waiting : List Delivery) (input : List UInt8) (capacity : Nat)
    (isKept : Bool) (isCalm : Prop) :
    Flow s (waiting ++ deliveries ((Text.byteLines input).map Text.ofBytes?)) isCalm
      { sent := waiting } { input := input, ended := true } (fed s waiting input capacity isKept) :=
  ⟨rfl, rfl, rfl, rfl, List.append_nil _, fun _ => ⟨rfl, rfl⟩, List.prefix_rfl,
    fun _ _ => ⟨rfl, fun _ => ⟨rfl, rfl⟩⟩⟩

theorem fed_course (s : Session) (waiting : List Delivery) (input : List UInt8) (capacity : Nat)
    (isKept : Bool) :
    Course capacity isKept { input := input, ended := true }
      (fed s waiting input capacity isKept) :=
  ⟨rfl, rfl, rfl, rfl, rfl, rfl, nofun⟩

def decoded (h : Host) : List (Except Json.Failure Reply) :=
  (Text.linesOf h.output).map Reply.decode

theorem decode_lines (replies : List Reply) :
    (replies.map Reply.encode).map Reply.decode = replies.map .ok := by
  rw [List.map_map]
  exact List.map_congr_left fun r _ => r.decode_encode

/-- The lines of the output are the lines written, when these are lines of replies. -/
theorem decoded_eq {h : Host} {replies : List Reply}
    (written : ∀ line ∈ h.written, line ∈ replies.map Reply.encode) :
    h.decoded = h.written.map Reply.decode := by
  have plain : ∀ line ∈ h.written, ∀ c ∈ line.toList, c ≠ '\n' ∧ c ≠ '\r' := by
    intro line member c here
    obtain ⟨r, _, rfl⟩ := List.mem_map.mp (written line member)
    have printable := r.encode_printable c here
    exact ⟨by rintro rfl; contradiction, by rintro rfl; contradiction⟩
  have lines : Text.linesOf h.output = h.written := Text.linesOf_unlines plain
  rw [decoded, lines]

/-- At every moment the output and what is about to be written are the replies to the deliveries that
the session has taken. -/
theorem decoded_taken {first : Session} {all : List Delivery} {isCalm : Prop} {past : Past}
    {r : Reader} {h : Host} (flow : Flow first all isCalm past r h) (fine : h.failure? = none) :
    past.taken ++ h.listener.channel.queue = past.sent ∧
    h.decoded ++ h.turn.pending.map .ok = (first.answerAll past.taken).2.map .ok := by
  obtain ⟨kept, nothing⟩ := flow.lossless (.inr fine)
  have queued := flow.queued
  have replies := flow.replies
  rw [nothing, List.append_nil] at queued
  rw [kept, List.append_nil] at replies
  refine ⟨queued, ?_⟩
  have written : ∀ line ∈ h.written, line ∈ (first.answerAll past.taken).2.map Reply.encode := by
    intro line member
    rw [← replies]
    exact List.mem_append_left _ member
  rw [decoded_eq written, ← decode_lines, ← decode_lines, ← List.map_append, replies]

/-- The stream of replies is unambiguous. Every reply is read back from its line, which holds no
control character. Cut behind the replies that end an answer, the replies to any deliveries are one
answer for each of them, in the same order. At every moment of a run the lines of the output are
replies to the deliveries taken so far, all but those still to be written; and a run without a stop
comes to an end, where everything that arrives is answered. -/
theorem replies_unambiguous (s : Session) (waiting : List Delivery) (input : List UInt8)
    (capacity : Nat) (isKept : Bool) :
    let start := fed s waiting input capacity isKept
    let arriving := waiting ++ deliveries ((Text.byteLines input).map Text.ofBytes?)
    (∀ r : Reply, Reply.decode r.encode = .ok r ∧ ∀ b ∈ Text.bytes r.encode, 0x20 ≤ b.toNat) ∧
    (∀ ds, List.Forall₂ Delivery.AnsweredBy ds (Reply.groups (s.answerAll ds).2)) ∧
    (∀ schedule,
      let h := start.execute schedule
      ∃ taken, taken ++ h.listener.channel.queue = waiting ++ start.forwarded schedule ∧
        h.decoded ++ h.turn.pending.map .ok = (s.answerAll taken).2.map .ok) ∧
    (0 < capacity → ∀ schedule, .stopper ∉ schedule →
      (∃ more, .stopper ∉ more ∧ (start.execute (schedule ++ more)).Waits) ∧
      ((start.execute schedule).Waits →
        (start.execute schedule).decoded = (s.answerAll arriving).2.map .ok)) := by
  intro start arriving
  have begun (isCalm : Prop) : Flow s arriving isCalm { sent := waiting }
      { input := input, ended := true } start := fed_flow ..
  have course : Course capacity isKept { input := input, ended := true } start := fed_course ..
  refine ⟨?_, s.groups_answerAll, ?_, ?_⟩
  · intro r
    exact ⟨r.decode_encode, Text.bytes_printable r.encode_printable⟩
  · intro schedule h
    obtain ⟨past, _, sent, flow⟩ :=
      execute_flow (begun (.stopper ∉ schedule)) fun member calm => calm member
    obtain ⟨_, course⟩ := execute_course course schedule
    have taken := decoded_taken flow course.fine
    rw [sent] at taken
    exact ⟨past.taken, taken⟩
  · intro roomy schedule calm
    obtain ⟨_, later⟩ := execute_course course schedule
    obtain ⟨more, calmMore, waits⟩ := waits_later later
    refine ⟨⟨more, calmMore, by rwa [execute_append]⟩, ?_⟩
    intro waits
    obtain ⟨_, written⟩ := waits_answered (begun _) course nofun roomy calm waits
    rw [decoded_eq fun line member => written ▸ member, written, decode_lines]

def waitingSample : List Delivery :=
  [.request (.register "a" {}), .request (.key (.ofDown "a"))]

def fedSample : Host :=
  fed (.new [] .other .exact) waitingSample (Text.bytes "[\"ping\"]") 1 false

def fedTurns : List Mover := (List.replicate 16 [.reader 0, .session]).flatten

def firedSample : Triggered := ⟨⟨0⟩, ⟨["a"], .none, "+", none, ["*"]⟩⟩

theorem replies_unambiguous_sample :
    0 < 1 ∧ .stopper ∉ fedTurns ∧ (fedSample.execute fedTurns).Waits ∧
    (fedSample.execute fedTurns).decoded =
      [.ok (.registered ⟨0⟩), .ok (.triggered firedSample), .ok (.handled 1), .ok .pong] := by
  have calm : .stopper ∉ fedTurns := by decide +kernel
  have waits : (fedSample.execute fedTurns).Waits := ⟨by decide +kernel, by decide +kernel⟩
  obtain ⟨_, _, _, complete⟩ := replies_unambiguous (.new [] .other .exact) waitingSample
    (Text.bytes "[\"ping\"]") 1 false
  have answers : ((Session.new [] .other .exact).answerAll (waitingSample ++
      deliveries ((Text.byteLines (Text.bytes "[\"ping\"]")).map Text.ofBytes?))).2 =
        [.registered ⟨0⟩, .triggered firedSample, .handled 1, .pong] := by
    decide +kernel
  have decoded := (complete (by decide) fedTurns calm).2 waits
  rw [answers] at decoded
  exact ⟨by decide, calm, waits, decoded⟩

end Replay.Host

end Keymap
