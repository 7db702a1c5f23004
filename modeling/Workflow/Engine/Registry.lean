import Workflow.Assoc
import Workflow.Number.Word

namespace Workflow

/-- The runs under way by their trace ids, which runs may share. -/
abbrev Registry := Assoc (List Nat)

namespace Registry

def register (g : Registry) (traceId : String) (run : Nat) : Registry :=
  g.insert traceId ((g.get? traceId).getD [] ++ [run])

/-- Take a run off the list of its trace id, if there is one. -/
def retainOthers (g : Registry) (traceId : String) (run : Nat) : Registry :=
  match g.get? traceId with
  | some runs => g.insert traceId (runs.filter (· ≠ run))
  | none => g

def dropEmpty (g : Registry) (traceId : String) : Registry :=
  match g.get? traceId with
  | some [] => g.erase traceId
  | _ => g

def unregister (g : Registry) (traceId : String) (run : Nat) : Registry :=
  (g.retainOthers traceId run).dropEmpty traceId

def runsOf (g : Registry) (traceId : String) : List Nat := (g.get? traceId).getD []

def count (g : Registry) : Nat := Number.total (g.values.map List.length)

end Registry

end Workflow
