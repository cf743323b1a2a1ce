import Keymap.Replay.Host

/-! The replay host as a program: requests come on the standard input, one per line, and replies go
to the standard output. -/
namespace Keymap

open Replay

/-- The bytes up to the next line feed, or to the end of the input. -/
partial def readLine (input : IO.FS.Stream) (line : ByteArray) : IO ByteArray := do
  let next ← input.read 1
  let line := line ++ next
  if next.isEmpty || next.data.contains Text.lineFeed then return line
  readLine input line

/-- Answers the lines of the input until it ends or a line is not text. -/
partial def serve (input output : IO.FS.Stream) (session : Session) : IO Unit := do
  let bytes := (← readLine input .empty).toList
  if bytes.isEmpty then return
  let line := ((Text.nextLine? bytes).map Prod.fst).getD bytes
  match Listener.check true (Text.ofBytes? line) with
  | .sending delivery =>
    let (session, replies) := session.answer delivery
    for reply in replies do
      output.putStrLn reply.encode
    output.flush
    serve input output session
  | .leaving => return
  | _ => serve input output session

/-- The end of the input does not end the program; only a signal does. -/
partial def waitForSignal : IO Unit := do
  IO.sleep 60000
  waitForSignal

end Keymap

open Keymap in
/-- Wrong settings are reported and end the program with code 1, an output that refuses a line ends
it with code 0. -/
def main : IO UInt32 := do
  let names := [Settings.initialScopesVariable, Settings.platformVariable,
    Settings.modifierMatchVariable]
  let values ← names.mapM fun name => do return (name, ← IO.getEnv name)
  match Settings.ofVariables fun name => (values.lookup name).join with
  | .error e =>
    IO.eprintln ("Error: " ++ e.message)
    return 1
  | .ok settings =>
    let session : Session := .new settings.initialScopes settings.platform settings.modifierMatch
    try
      serve (← IO.getStdin) (← IO.getStdout) session
      waitForSignal
    catch _ => pure ()
    return 0
