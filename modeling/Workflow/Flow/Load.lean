import Workflow.Document.Read
import Workflow.Document.Write
import Workflow.Flow.Validate
import Workflow.Yaml.Read

namespace Workflow

namespace Format

/-- The part of a file name after its last point; a point in front does not count. -/
def extension? (name : String) : Option (List Char) :=
  match (Text.split '.' ((Text.split '/' name.toList).getLast?.getD [])).reverse with
  | ending :: start :: rest => if rest.isEmpty ∧ start.isEmpty then none else some ending
  | _ => none

/-- The format of a file by its name: JSON when the name ends so in any case, or else YAML. -/
def ofFileName (name : String) : Format :=
  if (extension? name).any (fun cs => cs.map Char.toLower = "json".toList) then .json else .yaml

/-- The tree of a text. -/
def tree? (f : Format) (text : String) : Option Tree :=
  match f with
  | .json => Tree.ofJsonText? text
  | .yaml => Tree.ofYamlText? text

end Format

/-- The document that a text writes down. -/
def Document.ofText? (f : Format) (text : String) : Option Document :=
  (f.tree? text).bind (Document.read? f)

/-- The JSON text of a document. -/
def Document.toText (d : Document) : String := d.toTree.compact

namespace Flow

/-- The flow that a text writes down, or everything that is wrong with it. -/
def ofText (f : Format) (text : String) : Except (List Issue) Flow :=
  match Document.ofText? f text with
  | some d => validate d
  | none => .error [.unreadable]

/-- The text of a flow, without a deployment that is null. -/
def toText (f : Flow) : String :=
  ({ f.toDocument with deployment := f.deployment.filter (fun v => !v.isNull) }).toText

/-- Whether two flows are written alike and their links agree. -/
def agrees (f g : Flow) : Bool := f.toText = g.toText && f.links = g.links

end Flow

/-- Why no flow can be loaded from a file. -/
inductive LoadError where
  | noFile
  | invalid (issues : List Issue)

def LoadError.message : LoadError → String
  | noFile => "I/O error: No such file or directory (os error 2)"
  | invalid issues => Issue.summary issues

/-- The flow of a file by its name and its text, if it is there. -/
def Flow.load (name : String) (text : Option String) : Except LoadError Flow :=
  match text with
  | none => .error .noFile
  | some text => (Flow.ofText (.ofFileName name) text).mapError .invalid

end Workflow
