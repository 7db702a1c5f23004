import Workflow.Document.Read
import Workflow.Number.Word
import Workflow.Run.Backoff
import Workflow.Toml.Read

namespace Workflow

/-- How runs are executed: the number of nodes at a time, the time for a run, and the pauses between
attempts. -/
structure Config where
  parallel : Nat := 16
  timeoutMs : Option Nat := none
  backoff : Backoff := .fixed

def Backoff.read? (t : Tree) : Option Backoff := do
  let (choice, body) ← t.asChoice? "strategy"
  match ← choice.asChoiceName? ["fixed", "exponential"] with
  | "fixed" => some .fixed
  | _ => do
    let r ← body.asRecord? .json ["factor", "max_ms"]
    some (.exponential (← Tree.need r "factor" Tree.asFloat?)
      (← Tree.need r "max_ms" (Tree.asNat? Number.word64)))

namespace Config

def read? (t : Tree) : Option Config := do
  let r ← t.asRecord? .json ["max_parallel_nodes", "run_timeout_ms", "backoff"]
  some {
    parallel := ← Tree.orElse r "max_parallel_nodes" 16 (Tree.asNat? Number.word64)
    timeoutMs := ← Tree.optional? r "run_timeout_ms" (Tree.asNat? Number.word64)
    backoff := ← Tree.orElse r "backoff" .fixed Backoff.read? }

/-- The configuration of a text. Where there is none, or it cannot be read, the defaults hold; a run
always executes at least one node at a time. -/
def ofText (text : Option String) : Config :=
  match (text.bind Tree.ofTomlText?).bind read? with
  | some c => if c.parallel = 0 then { c with parallel := 16 } else c
  | none => {}

end Config

def Backoff.toJson : Backoff → Json
  | fixed => .ofFields [("strategy", .str "fixed")]
  | exponential factor maxMs =>
    .ofFields [("strategy", .str "exponential"), ("factor", .ofFloat factor), ("max_ms", .ofNat maxMs)]

def Config.toJson (c : Config) : Json :=
  .ofFields ([("max_parallel_nodes", .ofNat c.parallel), ("backoff", c.backoff.toJson)]
    ++ (c.timeoutMs.map (fun n => ("run_timeout_ms", Json.ofNat n))).toList)

end Workflow
