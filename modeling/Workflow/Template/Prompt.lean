import Workflow.Json.Path
import Workflow.Json.Printer
import Workflow.Template.Segment
import Workflow.Text.Blank

namespace Workflow.Template

/-- References of a prompt stand between double braces. -/
def promptMarks : Marks where
  opening := ['\x7b', '\x7b']
  closing := ['\x7d', '\x7d']

/-- What stands for a reference: the value at its path, or the reference as it is written. -/
def reference (root : Json) (body : List Char) : List Char :=
  match root.lookupChars? (Text.trim body) with
  | some v => v.display.toList
  | none => promptMarks.opening ++ body ++ promptMarks.closing

def renderChars (root : Json) (template : List Char) : List Char :=
  fill (reference root) (segments promptMarks template)

/-- A template with every reference replaced by the value at its path. -/
def render (root : Json) (template : String) : String :=
  String.ofList (renderChars root template.toList)

end Workflow.Template
