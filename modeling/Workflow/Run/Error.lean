import Workflow.Json.Basic
import Workflow.Port.Kind

namespace Workflow

/-- The kinds of errors of nodes and runs. -/
inductive ErrorKind where
  | timeout
  | invocation
  | outputSchema
  | cancelled
  | expression
  | missingInput
  | noOutput
  deriving DecidableEq

namespace ErrorKind

def all : List ErrorKind :=
  [timeout, invocation, outputSchema, cancelled, expression, missingInput, noOutput]

def name : ErrorKind → String
  | timeout => "timeout"
  | invocation => "invocation"
  | outputSchema => "output_schema"
  | cancelled => "cancelled"
  | expression => "expression"
  | missingInput => "missing_input"
  | noOutput => "no_output"

def ofName? (s : String) : Option ErrorKind := all.find? (fun k => k.name = s)

/-- Whether an attempt that failed so may be made again. -/
def isRetryable : ErrorKind → Bool
  | timeout => true
  | invocation => true
  | outputSchema => true
  | _ => false

end ErrorKind

/-- An error of a run, and the node that it comes from if there is one. -/
structure RunError where
  nodeId : Option String
  kind : ErrorKind
  attempts : Nat
  message : String
  deriving DecidableEq

namespace RunError

/-- An error of the run itself, which makes no attempts. -/
def ofRun (kind : ErrorKind) (message : String) : RunError := ⟨none, kind, 0, message⟩

def render (e : RunError) : String :=
  match e.nodeId with
  | some id => s!"node '{id}' failed after {e.attempts} attempt(s) ({e.kind.name}): {e.message}"
  | none => s!"run failed ({e.kind.name}): {e.message}"

/-- The members of an error but for the node. -/
def fields (e : RunError) : List (String × Json) :=
  [("kind", .str e.kind.name), ("attempts", .ofNat e.attempts), ("message", .str e.message)]

/-- What an error port of a kind delivers: text, or an object. -/
def portValue (e : RunError) (kind : PortKind) : Json :=
  match kind with
  | .string => .str e.render
  | _ => .ofFields (("node_id", .ofOption (e.nodeId.map .str)) :: e.fields)

/-- An error as a value, without a node when there is none. -/
def toJson (e : RunError) : Json :=
  match e.nodeId with
  | some id => .ofFields (("node_id", .str id) :: e.fields)
  | none => .ofFields e.fields

end RunError

end Workflow
