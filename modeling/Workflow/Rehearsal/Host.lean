import Workflow.Capability.Builtin
import Workflow.Rehearsal.Program
import Workflow.Rehearsal.Script

namespace Workflow.Rehearsal

/-- What a host is to do: scripts for operations and, if there are any, models, whether it knows the
built-in operations, and whether it runs code. -/
structure Casting where
  builtins : Bool := true
  operations : Assoc Script := []
  models : Option (Assoc Script) := none
  code : Bool := false

/-- A host that follows scripts. Scripts take the place of built-in operations of the same names. -/
def Casting.host (c : Casting) : Host (World Diary) where
  operations :=
    c.operations.foldl (fun t e => t.insert e.1 (operation e.1 e.2))
      (if c.builtins then Builtin.operations else [])
  code := if c.code then some Rehearsal.code else none
  model := c.models.map Rehearsal.models

/-- How often an attempt of a transform rests at most. -/
def rests : Transform → Nat
  | .declarative _ _ => 1
  | .code body => body.length
  | .prompt _ => 2

end Workflow.Rehearsal
