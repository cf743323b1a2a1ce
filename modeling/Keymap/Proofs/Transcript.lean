import Keymap.Proofs.Lines
import Keymap.Session

/-! What a session answers to lines that it reads one after the other, with no listener in between.
The reader of a host decides which deliveries arrive, and in the order of the lines these are the
same answers. -/
namespace Keymap

def unlines (lines : List String) : String := String.join (lines.map (· ++ "\n"))

theorem unlines_append (before after : List String) :
    unlines (before ++ after) = unlines before ++ unlines after := by
  simp [unlines, String.join_append]

theorem unlines_prefix {before after : List String} (more : before <+: after) :
    Text.bytes (unlines before) <+: Text.bytes (unlines after) := by
  obtain ⟨rest, rfl⟩ := more
  rw [unlines_append, Text.bytes_append]
  exact List.prefix_append ..

namespace Session

/-- Answers lines in their order. Blank lines are passed over; a line that is no request gets an
error and leaves the session alone. -/
def readLines (s : Session) : List String → Session × List Reply
  | [] => (s, [])
  | line :: lines =>
    if Text.trim line = "" then s.readLines lines
    else
      let (s, replies) := match Request.decode line with
        | .ok request => s.process request
        | .error failure => (s, [(ProtocolError.malformed failure (Text.trim line)).reply])
      let (s, more) := s.readLines lines
      (s, replies ++ more)

def transcript (s : Session) (lines : List String) : String :=
  unlines ((s.readLines lines).2.map Reply.encode)

theorem answerAll_append (s : Session) (before after : List Delivery) :
    s.answerAll (before ++ after) =
      (((s.answerAll before).1.answerAll after).1,
        (s.answerAll before).2 ++ ((s.answerAll before).1.answerAll after).2) := by
  induction before generalizing s with
  | nil => rfl
  | cons delivery before ih => simp [answerAll, ih]

theorem answerAll_snoc (s : Session) (before : List Delivery) (delivery : Delivery) :
    s.answerAll (before ++ [delivery]) =
      (((s.answerAll before).1.answer delivery).1,
        (s.answerAll before).2 ++ ((s.answerAll before).1.answer delivery).2) := by
  simp [answerAll_append, answerAll]

theorem answerAll_prefix (s : Session) {before after : List Delivery} (more : before <+: after) :
    (s.answerAll before).2 <+: (s.answerAll after).2 := by
  obtain ⟨rest, rfl⟩ := more
  rw [answerAll_append]
  exact List.prefix_append ..

end Session

/-- What lines are forwarded as, up to the first one that is not text. -/
def deliveries : List (Option String) → List Delivery
  | [] => []
  | none :: _ => []
  | some line :: lines =>
    if Text.trim line = "" then deliveries lines else .ofLine line :: deliveries lines

theorem deliveries_text (lines : List String) :
    deliveries (lines.map some) =
      (lines.filter fun line => Text.trim line ≠ "").map Delivery.ofLine := by
  induction lines with
  | nil => rfl
  | cons line lines ih => by_cases blank : Text.trim line = "" <;> simp [deliveries, blank, ih]

theorem Session.readLines_eq (s : Session) (lines : List String) :
    s.readLines lines = s.answerAll (deliveries (lines.map some)) := by
  induction lines generalizing s with
  | nil => rfl
  | cons line lines ih =>
    by_cases blank : Text.trim line = ""
    · simp [readLines, deliveries, blank, ih]
    · simp only [readLines, deliveries, List.map_cons, blank, if_false, answerAll, Delivery.ofLine]
      cases Request.decode line <;> simp [answer, ih]

end Keymap
