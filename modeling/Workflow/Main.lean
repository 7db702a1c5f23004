import Std.Time.DateTime.Timestamp
import Workflow.Command.Identifier
import Workflow.Command.Run

open Workflow Workflow.Command

/-- The text of a file, if it can be read. -/
def readText (name : String) : IO (Option String) := do
  try
    return some (← IO.FS.readFile name)
  catch _ => return none

/-- Read what the command line needs, do what it asks for, and take the time that this takes. -/
def main (arguments : List String) : IO UInt32 := do
  let nanos := (← Std.Time.Timestamp.now).toNanosecondsSinceUnixEpoch.toInt.toNat
  let ms := nanos / 1000000
  let run ← IO.rand 0 (1024 * Number.word64)
  let trace ← IO.rand 0 (1024 * Number.word64)
  let files ← (filesOf arguments).mapM (fun name => do return (name, ← readText name))
  let response := respond {
    file? := fun name => (files.lookup name).join
    traceId := identifier ms trace
    eventTime := (Timestamp.ofNanos nanos).render
    naming := ⟨identifier ms run, fun t => (Timestamp.ofNanos (nanos + t * 1000000)).render⟩ } arguments
  if response.elapsedMs ≠ 0 then IO.sleep (UInt32.ofNat response.elapsedMs)
  (← IO.getStdout).putStr response.output
  (← IO.getStderr).putStr response.errors
  return UInt32.ofNat response.status
