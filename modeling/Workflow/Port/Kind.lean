import Workflow.Json.Basic

namespace Workflow

/-- What a port carries. -/
inductive PortKind where
  | string
  | number
  | boolean
  | object
  | array
  | document
  | table
  | embedding
  deriving DecidableEq, Inhabited

namespace PortKind

def all : List PortKind := [string, number, boolean, object, array, document, table, embedding]

def name : PortKind → String
  | string => "string"
  | number => "number"
  | boolean => "boolean"
  | object => "object"
  | array => "array"
  | document => "document"
  | table => "table"
  | embedding => "embedding"

def ofName? (s : String) : Option PortKind := all.find? (fun k => k.name = s)

/-- Whether a value has the shape of a kind. A document is a string or an object whose `content` is
one; a table is a list of objects and an embedding a list of numbers. -/
def accepts : PortKind → Json → Bool
  | string, v => v.isString
  | number, v => v.isNumber
  | boolean, v => v.isBool
  | object, v => v.isObject
  | array, v => v.isArray
  | document, v => v.isString || (v.get? "content").any Json.isString
  | table, v => v.asArray?.any (fun rows => rows.all Json.isObject)
  | embedding, v => v.asArray?.any (fun items => items.all Json.isNumber)

theorem ofName?_name (k : PortKind) : ofName? k.name = some k := by
  cases k <;> decide

end PortKind

end Workflow
