import Workflow.Json.Printer
import Workflow.Port.Kind

namespace Workflow

/-- How a value changes on its way along a link. -/
inductive Coercion where
  | identity
  | stringify
  | documentText
  | wrapDocument
  | firstRow
  deriving DecidableEq, Inhabited

/-- The coercion between two kinds of ports; nothing when they cannot be connected. -/
def PortKind.coercionTo : PortKind → PortKind → Option Coercion
  | .string, .string => some .identity
  | .number, .number => some .identity
  | .boolean, .boolean => some .identity
  | .object, .object => some .identity
  | .array, .array => some .identity
  | .document, .document => some .identity
  | .table, .array => some .identity
  | .embedding, .array => some .identity
  | .string, .document => some .wrapDocument
  | .number, .string => some .stringify
  | .boolean, .string => some .stringify
  | .document, .string => some .documentText
  | .table, .object => some .firstRow
  | _, _ => none

/-- Why a coercion does not apply to a value. -/
inductive CoercionError where
  | notPrintable (v : Json)
  | noContent
  | notDocument (v : Json)
  | notString (v : Json)
  | noRows
  | notTable (v : Json)

def CoercionError.message : CoercionError → String
  | notPrintable v => s!"cannot cast {v.compact} to string"
  | noContent => "document has no text content"
  | notDocument v => s!"{v.compact} is not a document"
  | notString v => s!"{v.compact} is not a string"
  | noRows => "table has no rows"
  | notTable v => s!"{v.compact} is not a table"

namespace Coercion

def stringifyValue : Json → Except CoercionError Json
  | .str s => .ok (.str s)
  | .int n => .ok (.str (Json.int n).compact)
  | .float x => .ok (.str (Json.float x).compact)
  | .bool b => .ok (.str (Json.bool b).compact)
  | v => .error (.notPrintable v)

def textOfDocument : Json → Except CoercionError Json
  | .str s => .ok (.str s)
  | .obj fields =>
    match Assoc.get? fields "content" with
    | some (.str s) => .ok (.str s)
    | _ => .error .noContent
  | v => .error (.notDocument v)

def documentOfText : Json → Except CoercionError Json
  | .str s => .ok (.obj [("content", .str s)])
  | v => if (v.get? "content").isSome then .ok v else .error (.notString v)

def firstOfTable : Json → Except CoercionError Json
  | .arr (row :: _) => .ok row
  | .arr [] => .error .noRows
  | v => .error (.notTable v)

/-- Convert a value; one that has the target's form already stays as it is, but for tables. -/
def apply : Coercion → Json → Except CoercionError Json
  | identity => .ok
  | stringify => stringifyValue
  | documentText => textOfDocument
  | wrapDocument => documentOfText
  | firstRow => firstOfTable

end Coercion

end Workflow
