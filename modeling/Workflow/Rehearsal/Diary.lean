import Workflow.Capability.Basic

namespace Workflow.Rehearsal

/-- A call of something that a host can do. -/
inductive Call where
  | operation (name : String) (inputs : Inputs)
  | model (request : ModelRequest)
  | code (body : String) (inputs : Inputs) (key : Option String)

/-- The calls so far, with the times at which they began. -/
abbrev Diary := List (Nat × Call)

namespace Call

def isOperation (name : String) : Call → Bool
  | operation other _ => other = name
  | _ => false

def isModel (name : String) : Call → Bool
  | model request => request.model = name
  | _ => false

end Call

/-- Note a call, and tell how many there were of a sort before it. -/
def begin (sort : Call → Bool) (call : Call) : Activity (World Diary) Nat :=
  .step (fun now w => (w.memory.countP (fun e => sort e.2), { w with memory := w.memory ++ [(now, call)] }))

end Workflow.Rehearsal
