import Keymap.Proofs.Flow

/-! Lines that are no requests. A session answers each of them by one error and goes on as if the
line had not been there. A line that is not even text is different: the reader ends at it, so neither
this line nor any line behind it is answered. -/
namespace Keymap

namespace Text

theorem mem_joinFirst {α : Type} {piece : List α} {lines : List (List α)} {line : List α}
    (member : line ∈ joinFirst piece lines) :
    line ∈ lines ∨ line = piece ∨ ∃ first ∈ lines, line = piece ++ first := by
  cases lines with
  | nil => exact .inr (.inl (List.mem_singleton.mp member))
  | cons first lines =>
    rcases List.mem_cons.mp member with rfl | later
    · exact .inr (.inr ⟨first, List.mem_cons_self, rfl⟩)
    · exact .inl (List.mem_cons_of_mem _ later)

theorem cutLines_absent {α : Type} [DecidableEq α] {feed ret : α} {cs : List α} :
    ∀ line ∈ cutLines feed ret cs, feed ∉ line := by
  induction cs with
  | nil => simp [cutLines]
  | cons c cs ih =>
    rw [cutLines]
    split
    · simpa using ih
    next other =>
      split
      · exact ih
      · have single : feed ∉ [c] := by simpa using Ne.symm other
        intro line member
        rcases mem_joinFirst member with old | rfl | ⟨first, old, rfl⟩
        · exact ih line old
        · exact single
        · rw [List.mem_append]
          exact not_or.mpr ⟨single, ih first old⟩

/-- Any lines are the lines of some input: one that ends each of them by a return and a feed. -/
theorem exists_byteLines {lines : List (List UInt8)} (absent : ∀ line ∈ lines, lineFeed ∉ line) :
    ∃ input, byteLines input = lines := by
  induction lines with
  | nil => exact ⟨[], rfl⟩
  | cons line lines ih =>
    obtain ⟨rest, same⟩ := ih fun other later => absent other (List.mem_cons_of_mem _ later)
    have plain : lineFeed ∉ line ++ [carriageReturn] := by
      simp [absent line List.mem_cons_self, return_ne_feed.symm]
    refine ⟨line ++ [carriageReturn] ++ lineFeed :: rest, ?_⟩
    rw [byteLines_feed plain, same]
    simp [dropReturn]

end Text

def isMalformed : Option String → Bool
  | none => true
  | some line => Text.trim line ≠ "" && !(Request.decode line).isOk

/-- The lines in front of the first one that is not text. -/
def heard : List (Option String) → List String
  | some line :: lines => line :: heard lines
  | _ => []

theorem deliveries_heard (lines : List (Option String)) :
    deliveries lines = deliveries ((heard lines).map some) := by
  induction lines with
  | nil => rfl
  | cons line lines ih =>
    cases line with
    | none => rfl
    | some line => simp only [heard, List.map_cons, deliveries, ih]

theorem heard_prefix (lines : List (Option String)) : (heard lines).map some <+: lines := by
  induction lines with
  | nil => exact List.prefix_rfl
  | cons line lines ih =>
    cases line with
    | none => exact List.nil_prefix
    | some line => exact (List.prefix_cons_inj _).mpr ih

theorem heard_all {lines : List (Option String)} :
    (heard lines).map some = lines ↔ ∀ line ∈ lines, line.isSome := by
  constructor
  · intro same line member
    rw [← same] at member
    obtain ⟨text, _, rfl⟩ := List.mem_map.mp member
    rfl
  · intro texts
    induction lines with
    | nil => rfl
    | cons line lines ih =>
      cases line with
      | none => simpa using texts none List.mem_cons_self
      | some line =>
        simp only [heard, List.map_cons]
        rw [ih fun other later => texts other (List.mem_cons_of_mem _ later)]

theorem heard_map_some (texts : List String) : heard (texts.map some) = texts := by
  induction texts with
  | nil => rfl
  | cons text texts ih => rw [List.map_cons, heard, ih]

/-- One line, and what a session does about it. -/
structure Exchange where
  line : String
  before : Session
  replies : List Reply
  after : Session

namespace Session

def exchange (s : Session) (line : String) : Exchange :=
  if Text.trim line = "" then ⟨line, s, [], s⟩
  else ⟨line, s, (s.answer (.ofLine line)).2, (s.answer (.ofLine line)).1⟩

def exchanges (s : Session) : List String → List Exchange
  | [] => []
  | line :: lines => s.exchange line :: (s.exchange line).after.exchanges lines

theorem exchange_blank (s : Session) {line : String} (blank : Text.trim line = "") :
    s.exchange line = ⟨line, s, [], s⟩ := if_pos blank

theorem exchange_malformed (s : Session) {line : String} (malformed : isMalformed (some line)) :
    ∃ message, s.exchange line = ⟨line, s, [.error "malformed_request" message], s⟩ := by
  obtain ⟨some, refused⟩ : Text.trim line ≠ "" ∧ (Request.decode line).isOk = false := by
    simpa [isMalformed] using malformed
  cases decoded : Request.decode line with
  | ok r => simp [decoded, Except.isOk, Except.toBool] at refused
  | error failure =>
    refine ⟨(ProtocolError.malformed failure (Text.trim line)).message, ?_⟩
    simp [exchange, some, Delivery.ofLine, decoded, answer, ProtocolError.reply,
      ProtocolError.code]

theorem exchange_request (s : Session) {line : String} {r : Request}
    (decoded : Request.decode line = .ok r) :
    s.exchange line = ⟨line, s, (s.process r).2, (s.process r).1⟩ := by
  have some : Text.trim line ≠ "" := by
    intro blank
    rw [Request.decode, blank] at decoded
    contradiction
  simp [exchange, some, Delivery.ofLine, decoded, answer]

theorem answer_some (s : Session) (d : Delivery) : (s.answer d).2 ≠ [] := by
  cases d with
  | request r => cases r <;> simp [answer, process]
  | malformed e => simp [answer]

theorem exchange_line (s : Session) (line : String) : (s.exchange line).line = line := by
  unfold exchange
  split <;> rfl

theorem readLines_cons (s : Session) (line : String) (lines : List String) :
    s.readLines (line :: lines) = (((s.exchange line).after.readLines lines).1,
      (s.exchange line).replies ++ ((s.exchange line).after.readLines lines).2) := by
  by_cases blank : Text.trim line = ""
  · simp [readLines, exchange_blank s blank, blank]
  · cases decoded : Request.decode line <;>
      simp [readLines, exchange, blank, Delivery.ofLine, decoded, answer]

theorem exchanges_replies (s : Session) (lines : List String) :
    (s.exchanges lines).flatMap (·.replies) = (s.readLines lines).2 := by
  induction lines generalizing s with
  | nil => rfl
  | cons line lines ih => rw [readLines_cons, exchanges, List.flatMap_cons, ih]

theorem exchanges_lines (s : Session) (lines : List String) :
    (s.exchanges lines).map (·.line) = lines := by
  induction lines generalizing s with
  | nil => rfl
  | cons line lines ih => rw [exchanges, List.map_cons, exchange_line, ih]

theorem mem_exchanges {s : Session} {lines : List String} {e : Exchange}
    (member : e ∈ s.exchanges lines) : ∃ t line, e = Session.exchange t line := by
  induction lines generalizing s with
  | nil => simp [exchanges] at member
  | cons line lines ih =>
    rcases List.mem_cons.mp member with rfl | later
    · exact ⟨s, line, rfl⟩
    · exact ih later

/-- Without the malformed lines the other ones find the same sessions and get the same replies. -/
theorem exchanges_filter (s : Session) (lines : List String) :
    s.exchanges (lines.filter fun line => !isMalformed (some line)) =
      (s.exchanges lines).filter fun e => !isMalformed (some e.line) := by
  induction lines generalizing s with
  | nil => rfl
  | cons line lines ih =>
    by_cases malformed : isMalformed (some line)
    · obtain ⟨message, exchanged⟩ := s.exchange_malformed malformed
      simp [exchanges, exchanged, malformed, ih]
    · simp [exchanges, exchange_line, malformed, ih]

theorem readLines_filter (s : Session) (lines : List String) :
    (s.readLines (lines.filter fun line => !isMalformed (some line))).1 =
      (s.readLines lines).1 := by
  induction lines generalizing s with
  | nil => rfl
  | cons line lines ih =>
    by_cases malformed : isMalformed (some line)
    · obtain ⟨message, exchanged⟩ := s.exchange_malformed malformed
      simp [readLines_cons, exchanged, malformed, ih]
    · simp [readLines_cons, malformed, ih]

end Session

namespace Replay.Host

variable {settings : Settings} {input : List UInt8} {h next : Host}

/-- A host that has read this input without being stopped, and in which nobody can step. -/
def Ends (settings : Settings) (input : List UInt8) (h : Host) : Prop :=
  ∃ capacity isKept schedule, 0 < capacity ∧ .stopper ∉ schedule ∧
    h = (Host.start settings input capacity isKept).execute schedule ∧ h.Waits

/-- Every run can be carried on to an end. -/
theorem ends_later (settings : Settings) (input : List UInt8) {capacity : Nat} (isKept : Bool)
    {schedule : List Mover} (roomy : 0 < capacity) (calm : .stopper ∉ schedule) :
    ∃ more, Ends settings input
      ((Host.start settings input capacity isKept).execute (schedule ++ more)) := by
  obtain ⟨r, course⟩ := execute_course (start_course settings input capacity isKept) schedule
  obtain ⟨more, calmMore, waits⟩ := waits_later course
  refine ⟨more, capacity, isKept, schedule ++ more, roomy, ?_, rfl, ?_⟩
  · simp [calm, calmMore]
  · rwa [execute_append]

/-- At the end the lines that were heard are answered, and no others. -/
theorem ends_answered (ends : Ends settings input h) :
    let first := Session.new settings.initialScopes settings.platform settings.modifierMatch
    let texts := heard ((Text.byteLines input).map Text.ofBytes?)
    h.session = (first.readLines texts).1 ∧
    h.written = (first.readLines texts).2.map Reply.encode := by
  intro first texts
  obtain ⟨capacity, isKept, schedule, roomy, calm, rfl, waits⟩ := ends
  have begun : Flow first (deliveries ((Text.byteLines input).map Text.ofBytes?))
      (.stopper ∉ schedule) {} { input := input, ended := true }
      (Host.start settings input capacity isKept) :=
    start_flow settings input capacity isKept none _
  have answered := waits_answered begun (start_course settings input capacity isKept) nofun roomy
    calm waits
  rwa [deliveries_heard, ← Session.readLines_eq] at answered

/-- Every run comes to an end, where each line that was heard has its answer: a blank line none, a
malformed one a single error that leaves the session as it is, and a request what processing it
gives. When all lines are text they are all heard, and the session and the replies to the other lines
are those of an input without the malformed lines. A line that is not text is not heard, and nor is
what follows it. -/
theorem malformed_line_answered (settings : Settings) (input : List UInt8) :
    let first := Session.new settings.initialScopes settings.platform settings.modifierMatch
    let lines := (Text.byteLines input).map Text.ofBytes?
    let exchanges := first.exchanges (heard lines)
    (∀ capacity isKept schedule, 0 < capacity → .stopper ∉ schedule → ∃ more, Ends settings input
      ((Host.start settings input capacity isKept).execute (schedule ++ more))) ∧
    (∀ h, Ends settings input h → h.written = (exchanges.flatMap (·.replies)).map Reply.encode) ∧
    exchanges.map (·.line) = heard lines ∧
    (∀ e ∈ exchanges,
      (Text.trim e.line = "" → e.replies = [] ∧ e.after = e.before) ∧
      (Text.trim e.line ≠ "" → e.replies ≠ []) ∧
      (isMalformed (some e.line) → e.after = e.before ∧
        ∃ message, e.replies = [.error "malformed_request" message]) ∧
      (∀ r, Request.decode e.line = .ok r → (e.after, e.replies) = e.before.process r)) ∧
    (heard lines).map some <+: lines ∧
    ((heard lines).map some = lines ↔ ∀ line ∈ lines, line.isSome) ∧
    ((∀ line ∈ lines, line.isSome) →
      let others := (Text.byteLines input).filter fun line => !isMalformed (Text.ofBytes? line)
      (∃ rest, Text.byteLines rest = others) ∧
      ∀ rest, Text.byteLines rest = others →
        ∀ h g, Ends settings input h → Ends settings rest g → g.session = h.session ∧
          g.written = ((exchanges.filter fun e => !isMalformed (some e.line)).flatMap
            (·.replies)).map Reply.encode) := by
  intro first lines exchanges
  refine ⟨?_, ?_, first.exchanges_lines _, ?_, heard_prefix lines, heard_all, ?_⟩
  · intro capacity isKept schedule roomy calm
    exact ends_later settings input isKept roomy calm
  · intro h ends
    rw [first.exchanges_replies]
    exact (ends_answered ends).2
  · intro e member
    obtain ⟨t, line, rfl⟩ := Session.mem_exchanges member
    rw [t.exchange_line]
    refine ⟨?_, ?_, ?_, ?_⟩
    · intro blank
      simp [t.exchange_blank blank]
    · intro some
      rw [Session.exchange, if_neg some]
      exact t.answer_some _
    · intro malformed
      obtain ⟨message, exchanged⟩ := t.exchange_malformed malformed
      simp [exchanged]
    · intro r decoded
      simp [t.exchange_request decoded]
  · intro texts others
    refine ⟨Text.exists_byteLines ?_, ?_⟩
    · intro line member
      exact Text.cutLines_absent line (List.mem_filter.mp member).1
    · intro rest kept h g ends endsToo
      have left : heard ((Text.byteLines rest).map Text.ofBytes?) =
          (heard lines).filter fun line => !isMalformed (some line) := by
        have filtered : (Text.byteLines rest).map Text.ofBytes? =
            lines.filter fun line => !isMalformed line := by
          rw [kept, List.filter_map]
          rfl
        rw [filtered, ← heard_all.mpr texts, List.filter_map, heard_map_some, heard_map_some]
        rfl
      obtain ⟨session, written⟩ := ends_answered endsToo
      rw [left] at session written
      rw [written, session, (ends_answered ends).1, first.readLines_filter,
        ← first.exchanges_filter, first.exchanges_replies]
      exact ⟨rfl, rfl⟩

def sampleSettings : Settings := ⟨[], .other, .exact⟩

def takeTurns (input : List UInt8) : Host :=
  (Host.start sampleSettings input channelCapacity false).execute
    (List.replicate 20 [.reader 0, .session]).flatten

theorem takeTurns_ends {input : List UInt8} (waits : (takeTurns input).Waits) :
    Ends sampleSettings input (takeTurns input) :=
  ⟨channelCapacity, false, _, by decide, by decide, rfl, waits⟩

def mixedInput : List UInt8 := Text.bytes "[\"ping\"]\n[\n[\"status\"]"

def cleanInput : List UInt8 := Text.bytes "[\"ping\"]\n[\"status\"]"

def brokenInput : List UInt8 := 255 :: 10 :: Text.bytes "[\"ping\"]"

theorem malformed_line_answered_sample :
    (∀ line ∈ (Text.byteLines mixedInput).map Text.ofBytes?, line.isSome) ∧
    (takeTurns mixedInput).written.length = 3 ∧
    (takeTurns cleanInput).session = (takeTurns mixedInput).session ∧
    (takeTurns cleanInput).written =
      [Reply.pong, .status ⟨["*"], [], []⟩].map Reply.encode ∧
    (takeTurns brokenInput).Waits ∧ (takeTurns brokenInput).written = [] := by
  have texts : ∀ line ∈ (Text.byteLines mixedInput).map Text.ofBytes?, line.isSome := by
    decide +kernel
  have mixed : Ends sampleSettings mixedInput (takeTurns mixedInput) :=
    takeTurns_ends ⟨by decide +kernel, by decide +kernel⟩
  have clean : Ends sampleSettings cleanInput (takeTurns cleanInput) :=
    takeTurns_ends ⟨by decide +kernel, by decide +kernel⟩
  have broken : (takeTurns brokenInput).Waits := ⟨by decide +kernel, by decide +kernel⟩
  obtain ⟨_, _, _, _, _, _, removed⟩ := malformed_line_answered sampleSettings mixedInput
  obtain ⟨_, silent, _⟩ := malformed_line_answered sampleSettings brokenInput
  have kept : Text.byteLines cleanInput =
      (Text.byteLines mixedInput).filter fun line => !isMalformed (Text.ofBytes? line) := by
    decide +kernel
  obtain ⟨session, _⟩ := (removed texts).2 cleanInput kept _ _ mixed clean
  have answered : (takeTurns mixedInput).written.length = 3 := by decide +kernel
  have lines : (takeTurns cleanInput).written =
      [Reply.pong, .status ⟨["*"], [], []⟩].map Reply.encode := by decide +kernel
  have nothing : (takeTurns brokenInput).written = [] :=
    (silent _ (takeTurns_ends broken)).trans (by decide +kernel)
  exact ⟨texts, answered, session, lines, broken, nothing⟩

end Replay.Host

end Keymap
