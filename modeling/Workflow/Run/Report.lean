import Workflow.Assoc
import Workflow.Run.Error

namespace Workflow

/-- How a node of a run ended. A routed node failed, and its error went along its error port; a skipped
one lacked an input. -/
inductive NodeStatus where
  | succeeded
  | failed
  | routed
  | skipped
  | cancelled
  deriving DecidableEq

def NodeStatus.name : NodeStatus → String
  | succeeded => "succeeded"
  | failed => "failed"
  | routed => "routed"
  | skipped => "skipped"
  | cancelled => "cancelled"

/-- What is told of a node: how it ended, after how many attempts, and when and for how long it was
executed, if it was. -/
structure Record where
  nodeId : String
  status : NodeStatus
  attempts : Nat
  startedAt : Option Nat
  durationMs : Nat
  error : Option RunError
  deriving DecidableEq

/-- How a run ended. -/
inductive RunStatus where
  | succeeded
  | failed
  | aborted
  deriving DecidableEq

def RunStatus.name : RunStatus → String
  | succeeded => "succeeded"
  | failed => "failed"
  | aborted => "aborted"

/-- The outcome of a run: outputs of nodes, values at the run's own outputs, and a trace of records in
the order in which nodes ended. -/
structure Report where
  traceId : String
  status : RunStatus
  outputs : Assoc Json
  boundary : Assoc Json
  error : Option RunError
  trace : List Record

namespace Report

def isSuccess (r : Report) : Bool := r.status = .succeeded

end Report

end Workflow
