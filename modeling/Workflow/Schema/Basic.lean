import Workflow.Json.Printer
import Workflow.Number.Order
import Workflow.Schema.Content
import Workflow.Schema.Draft
import Workflow.Schema.Format

namespace Workflow

namespace Schema

/-- The kinds of values that schemas name. In the first of the drafts a number counts as an integer only as it
is written. -/
inductive Kind where
  | array
  | boolean
  | integer
  | writtenInteger
  | null
  | number
  | object
  | string
  deriving DecidableEq

namespace Kind

/-- The kinds in the alphabetical order of their names, each name once. -/
def all : List Kind := [array, boolean, integer, null, number, object, string]

def name : Kind → String
  | array => "array"
  | boolean => "boolean"
  | integer => "integer"
  | writtenInteger => "integer"
  | null => "null"
  | number => "number"
  | object => "object"
  | string => "string"

def ofName? (s : String) : Option Kind := all.find? (fun k => k.name = s)

/-- A kind as a draft takes it. -/
def within (d : Draft) (k : Kind) : Kind := if d = .four ∧ k = integer then writtenInteger else k

def admits : Kind → Json → Bool
  | array, v => v.isArray
  | boolean, v => v.isBool
  | integer, v => v.isWhole
  | writtenInteger, .int _ => true
  | writtenInteger, _ => false
  | null, v => v.isNull
  | number, v => v.isNumber
  | object, v => v.isObject
  | string, v => v.isString

end Kind

/-- The bounds on numbers. -/
inductive Bound where
  | minimum
  | maximum
  | exclusiveMinimum
  | exclusiveMaximum

namespace Bound

/-- Whether a number keeps within a bound. -/
def holds : Bound → Json → Json → Bool
  | minimum, limit, v => limit.numberLe v
  | maximum, limit, v => v.numberLe limit
  | exclusiveMinimum, limit, v => limit.numberLt v
  | exclusiveMaximum, limit, v => v.numberLt limit

def phrase : Bound → String
  | minimum => "is less than the minimum of"
  | maximum => "is greater than the maximum of"
  | exclusiveMinimum => "is less than or equal to the minimum of"
  | exclusiveMaximum => "is greater than or equal to the maximum of"

end Bound

/-- What is counted: the characters of a text, the items of a list, the members of an object. -/
inductive Measure where
  | characters
  | items
  | members

namespace Measure

def count? : Measure → Json → Option Nat
  | characters, .str s => some s.length
  | items, .arr vs => some vs.length
  | members, .obj fields => some fields.length
  | _, _ => none

def noun (m : Measure) (n : Nat) : String :=
  match m with
  | characters => if n = 1 then "character" else "characters"
  | items => if n = 1 then "item" else "items"
  | members => if n = 1 then "property" else "properties"

def tooFew : Measure → String
  | characters => "is shorter than"
  | _ => "has less than"

def tooMany : Measure → String
  | characters => "is longer than"
  | _ => "has more than"

end Measure

end Schema

mutual

/-- A description of the values that are allowed. -/
inductive Schema where
  | verdict (allowed : Bool)
  | reference (target : String)
  | rules (rs : List Schema.Rule)

/-- One demand of a schema. -/
inductive Schema.Rule where
  | kinds (ks : List Schema.Kind)
  | options (vs : List Json)
  | constant (v : Json)
  | bound (b : Schema.Bound) (limit : Json)
  | multipleOf (m : Float)
  | atLeast (m : Schema.Measure) (n : Nat)
  | atMost (m : Schema.Measure) (n : Nat)
  | distinct
  | pattern (text : String) (p : Pattern)
  | format (name : String) (f : Schema.Format)
  | content (c : Schema.Content)
  | required (names : List String)
  | members (declared : List (String × Schema))
  | matching (patterns : List (Pattern × Schema))
  | refuseMembers
  | refuseAny
  | refuseRest (declared : List (String × Schema)) (patterns : List (Pattern × Schema))
  | checkRest (declared : List (String × Schema)) (patterns : List (Pattern × Schema)) (rest : Schema)
  | names (s : Schema)
  | items (s : Schema)
  | places (ss : List Schema)
  | refuseItems (count : Nat)
  | laterItems (count : Nat) (s : Schema)
  | contains (s : Schema)
  | dependencies (ds : List (String × Schema))
  | allOf (ss : List Schema)
  | anyOf (ss : List Schema)
  | oneOf (ss : List Schema)
  | not (raw : Json) (s : Schema)
  | when (test yes no : Schema)

end

namespace Schema

/-- What a value does wrong. -/
inductive Fault where
  | refused (v : Json)
  | unresolved (target : String)
  | kind (v : Json) (ks : List Kind)
  | option (v : Json) (options : List Json)
  | constant (expected : Json)
  | bound (v : Json) (b : Bound) (limit : Json)
  | multiple (v : Json) (m : Float)
  | tooFew (v : Json) (m : Measure) (n : Nat)
  | tooMany (v : Json) (m : Measure) (n : Nat)
  | repeated (v : Json)
  | mismatch (v : Json) (pattern : String)
  | malformed (v : Json) (format : String)
  | content (v : Json) (flaw : Content.Flaw)
  | missing (name : String)
  | unexpectedMembers (names : List String)
  | unexpectedItems (vs : List Json)
  | noneContained (v : Json)
  | noAlternative (v : Json) (keyword : String)
  | manyAlternatives (v : Json)
  | excluded (raw v : Json)

namespace Fault

def wereOrWas (n : Nat) : String := if n = 1 then "was" else "were"

def flawMessage (v : Json) : Content.Flaw → String
  | .encoding => s!"{v.compact} is not compliant with \"base64\" content encoding"
  | .mediaType => s!"{v.compact} is not compliant with \"application/json\" media type"
  | .brokenText index (some length) =>
    s!"invalid utf-8 sequence of {length} bytes from index {index}"
  | .brokenText index none => s!"incomplete utf-8 byte sequence from index {index}"

def message : Fault → String
  | refused v => s!"False schema does not allow {v.compact}"
  | unresolved target => s!"Invalid reference: json-schema:///{target}"
  | kind v [k] => s!"{v.compact} is not of type \"{k.name}\""
  | kind v ks =>
    let names := ", ".intercalate (ks.map (fun k => "\"" ++ k.name ++ "\""))
    s!"{v.compact} is not of types {names}"
  | option v options => s!"{v.compact} is not one of {(Json.arr options).compact}"
  | constant expected => s!"{expected.compact} was expected"
  | bound v b limit => s!"{v.compact} {b.phrase} {limit.compact}"
  | multiple v m => s!"{v.compact} is not a multiple of {Number.positional m}"
  | tooFew v m n => s!"{v.compact} {m.tooFew} {n} {m.noun n}"
  | tooMany v m n => s!"{v.compact} {m.tooMany} {n} {m.noun n}"
  | repeated v => s!"{v.compact} has non-unique elements"
  | mismatch v pattern => s!"{v.compact} does not match \"{pattern}\""
  | malformed v format => s!"{v.compact} is not a \"{format}\""
  | content v flaw => flawMessage v flaw
  | missing name => s!"{Json.quote name} is a required property"
  | unexpectedMembers names =>
    let quoted := ", ".intercalate (names.map (fun s => "'" ++ s ++ "'"))
    s!"Additional properties are not allowed ({quoted} {wereOrWas names.length} unexpected)"
  | unexpectedItems vs =>
    let texts := ", ".intercalate (vs.map Json.compact)
    s!"Additional items are not allowed ({texts} {wereOrWas vs.length} unexpected)"
  | noneContained v => s!"None of {v.compact} are valid under the given schema"
  | noAlternative v keyword =>
    s!"{v.compact} is not valid under any of the schemas listed in the '{keyword}' keyword"
  | manyAlternatives v =>
    s!"{v.compact} is valid under more than one of the schemas listed in the 'oneOf' keyword"
  | excluded raw v => s!"{raw.compact} is not allowed for {v.compact}"

end Fault

/-- A fault and the place inside the value where it is. -/
structure Violation where
  path : List String
  fault : Fault

namespace Violation

/-- A step of a path with the two characters that mark steps escaped. -/
def escapeStep (step : String) : String :=
  String.ofList (step.toList.flatMap (fun c =>
    if c = '~' then ['~', '0'] else if c = '/' then ['~', '1'] else [c]))

def message (x : Violation) : String :=
  match x.path with
  | [] => x.fault.message
  | path => String.join (path.map (fun step => "/" ++ escapeStep step)) ++ ": " ++ x.fault.message

end Violation

end Schema

end Workflow
