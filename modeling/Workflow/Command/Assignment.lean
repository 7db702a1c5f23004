import Workflow.Json.Reader
import Workflow.Text.Blank
import Workflow.Text.Cut
import Workflow.Tree.Resolve

namespace Workflow.Command

inductive AssignmentError where
  | noValue (text : String)
  | noName (text : String)

def AssignmentError.message : AssignmentError → String
  | noValue text => s!"expected NAME=VALUE, got '{text}'"
  | noName text => s!"empty name in '{text}'"

/-- The value of a text: JSON if it is that, or else the text itself. -/
def valueOf (text : String) : Json := (Json.parse? text).getD (.str text)

/-- The name and the value of a text with an equals sign between them. -/
def assignment (text : String) : Except AssignmentError (String × Json) :=
  match Text.cut? ['='] text.toList with
  | none => .error (.noValue text)
  | some (name, value) =>
    if (Text.trim name).isEmpty then .error (.noName text)
    else .ok (String.ofList (Text.trim name), valueOf (String.ofList value))

/-- The values that texts assign to names; of equal names the last counts. -/
def assignments (texts : List String) : Except AssignmentError (Assoc Json) :=
  (texts.mapM assignment).map Assoc.ofList

end Workflow.Command
