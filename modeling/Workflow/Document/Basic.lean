import Workflow.Port.Kind

namespace Workflow

/-- A typed slot of a node for values. -/
structure Port where
  name : String
  kind : PortKind
  optional : Bool
  schema : Option Json

/-- What happens when a model's answer does not fit the output schema. -/
inductive Fallback where
  | raise
  | model (ref : String)
  | static (response : Json)

/-- A question to a model, with what its answer must look like. -/
structure Prompt where
  template : String
  system : Option String
  model : String
  schema : Option Json
  fallback : Fallback

inductive Transform where
  | declarative (operation : String) (args : Json)
  | code (body : String)
  | prompt (p : Prompt)

/-- How a node is executed: time for one attempt, number of attempts, pause between them, number of
executions at a time, and the context fields it needs. -/
structure RuntimePolicy where
  timeoutMs : Nat := 30000
  retries : Nat := 1
  backoffMs : Nat := 1000
  maxConcurrency : Option Nat := none
  requiredFields : List String := []

/-- How long the state of a node lives. -/
inductive StateScope where
  | request
  | session
  deriving DecidableEq

/-- The state of a node: under which key, for how long, and in which store. -/
structure StateConfig where
  scope : StateScope
  keyTemplate : String
  ttlSecs : Option Nat
  backend : Option String

/-- A step of a flow with typed inputs and outputs. -/
structure Node where
  inputs : List Port
  outputs : List Port
  errorPort : Option Port
  transform : Transform
  policy : RuntimePolicy
  state : Option StateConfig

structure LinkSpec where
  source : String
  target : String
  condition : Option String
  transform : Option String
  deriving DecidableEq

/-- A workflow as it is written, unchecked. Nodes keep their order and repeated ids. -/
structure Document where
  version : String
  metadata : Assoc Json
  requires : List String
  nodes : List (String × Node)
  links : List LinkSpec
  deployment : Option Json

namespace Transform

def kind : Transform → String
  | declarative _ _ => "declarative"
  | code _ => "code"
  | prompt _ => "prompt"

end Transform

namespace StateScope

def name : StateScope → String
  | request => "request"
  | session => "session"

end StateScope

namespace Node

def inputPort? (n : Node) (name : String) : Option Port := n.inputs.find? (fun p => p.name = name)

/-- Where a link may start: the output ports and the error port. -/
def sources (n : Node) : List Port := n.outputs ++ n.errorPort.toList

def outputPort? (n : Node) (name : String) : Option Port := n.sources.find? (fun p => p.name = name)

def isErrorPort (n : Node) (name : String) : Bool := n.errorPort.any (fun p => p.name = name)

def ports (n : Node) : List Port := n.inputs ++ n.sources

end Node

end Workflow
