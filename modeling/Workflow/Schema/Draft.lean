import Workflow.Json.Basic

namespace Workflow.Schema

/-- The drafts of the rules by which schemas are read. -/
inductive Draft where
  | four
  | six
  | seven
  deriving DecidableEq

namespace Draft

def ofName? : String → Option Draft
  | "http://json-schema.org/draft-04/schema" => some four
  | "http://json-schema.org/draft-06/schema" => some six
  | "http://json-schema.org/draft-07/schema" => some seven
  | _ => none

/-- The draft that a document names, with or without hash signs after the name, or else the last one. -/
def ofDocument (document : Json) : Draft :=
  match document.get? "$schema" with
  | some (.str name) =>
    (ofName? (String.ofList (name.toList.reverse.dropWhile (· = '#')).reverse)).getD seven
  | _ => seven

/-- Whether a keyword says anything in a draft, when it says something in another one. -/
def knows (d : Draft) (keyword : String) : Bool :=
  match d with
  | seven => keyword ≠ "id"
  | six => keyword ∉ ["id", "$comment", "else", "if", "readOnly", "then"]
  | four => keyword ∉ ["$comment", "$id", "$ref", "const", "contains", "contentEncoding", "contentMediaType",
    "else", "examples", "if", "propertyNames", "readOnly", "then"]

/-- Whether the name of a form of text says anything in a draft, when it says something in the last one. -/
def knowsFormat (d : Draft) (name : String) : Bool :=
  match d with
  | seven => true
  | six => name ∉ ["idn-hostname", "iri", "iri-reference", "relative-json-pointer"]
  | four => name ∉ ["idn-hostname", "iri", "iri-reference", "json-pointer", "relative-json-pointer",
    "uri-reference", "uri-template"]

/-- Whether a schema under a keyword may be a mere verdict. -/
def allowsVerdict (d : Draft) (keyword : String) : Bool :=
  d ≠ four || keyword ∈ ["additionalItems", "additionalProperties"]

end Draft

end Workflow.Schema
