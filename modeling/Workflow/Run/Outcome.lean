import Workflow.Run.Error

namespace Workflow

/-- How the execution of a node ended. -/
inductive Outcome where
  | succeeded (output : Json)
  | failed (e : RunError)
  | cancelled

end Workflow
