import Workflow.Schema.Basic

namespace Workflow.Schema

/-- What stands under a keyword: schemas in one of three arrangements, or any other value. -/
inductive Part where
  | one (s : Schema)
  | list (ss : List Schema)
  | table (entries : List (String × Schema))
  | other

/-- Keywords with a schema under them. -/
def holdsOne (d : Draft) (keyword : String) : Bool :=
  d.knows keyword && keyword ∈ ["additionalItems", "additionalProperties", "contains", "else", "if",
    "items", "not", "propertyNames", "then"]

/-- Keywords with a list of schemas under them. -/
def holdsList (keyword : String) : Bool := keyword ∈ ["allOf", "anyOf", "items", "oneOf"]

/-- Keywords with named schemas under them. -/
def holdsTable (keyword : String) : Bool :=
  keyword ∈ ["definitions", "dependencies", "patternProperties", "properties"]

def texts? (v : Json) : Option (List String) := do (← v.asArray?).mapM Json.asString?

def pairwiseDistinct : List String → Bool
  | [] => true
  | s :: rest => s ∉ rest && pairwiseDistinct rest

/-- Names, each once; in the first of the drafts there has to be one. -/
def names? (d : Draft) (v : Json) : Option (List String) := do
  let names ← texts? v
  if pairwiseDistinct names ∧ ¬ (d = .four ∧ names.isEmpty) then some names else none

/-- A whole number that is not negative; in later drafts in either written form. -/
def count? (d : Draft) : Json → Option Nat
  | .int n => if 0 ≤ n then some n.toNat else none
  | .float x => if d = .four ∨ x < 0 ∨ x.floor != x then none else some x.toUInt64.toNat
  | _ => none

def kinds? (d : Draft) : Json → Option (List Kind)
  | .str s => (Kind.ofName? s).map (fun k => [k.within d])
  | v => do
    let names ← names? d v
    let ks ← names.mapM Kind.ofName?
    if ks.isEmpty then none else some ((Kind.all.filter (fun k => k ∈ ks)).map (Kind.within d))

def allDistinct : List Json → Bool
  | [] => true
  | v :: rest => !rest.any v.same && allDistinct rest

/-- The values that are allowed; before the last draft at least one, and each once. -/
def options? (d : Draft) (v : Json) : Option (List Json) := do
  let vs ← v.asArray?
  if d = .seven ∨ (allDistinct vs ∧ ¬ vs.isEmpty) then some vs else none

def always : Schema := .verdict true

def partAt? (parts : Assoc Part) (keyword : String) : Option Schema :=
  match parts.get? keyword with
  | some (.one s) => some s
  | _ => none

def tableAt (parts : Assoc Part) (keyword : String) : List (String × Schema) :=
  match parts.get? keyword with
  | some (.table entries) => entries
  | _ => []

def patternsOf? (entries : List (String × Schema)) : Option (List (Pattern × Schema)) :=
  entries.mapM (fun e => (Pattern.parse? e.1).map (fun p => (p, e.2)))

/-- Whether another keyword takes over the declared members and the patterns. -/
def restIsRuled (fields : Assoc Json) : Bool :=
  match fields.get? "additionalProperties" with
  | some (.bool false) => true
  | some (.obj _) => true
  | _ => false

def restRules? (fields : Assoc Json) (parts : Assoc Part) (v : Json) (s : Schema) :
    Option (List Rule) := do
  let declared := tableAt parts "properties"
  let patterns ← patternsOf? (tableAt parts "patternProperties")
  match v with
  | .bool true => some []
  | .bool false =>
    if fields.contains "properties" ∨ fields.contains "patternProperties" then
      some [.refuseRest declared patterns]
    else some [.refuseAny]
  | _ => some [.checkRest declared patterns s]

def laterItemRules (parts : Assoc Part) (v : Json) (s : Schema) : List Rule :=
  match parts.get? "items", v with
  | some (.list ss), .bool false => [.refuseItems ss.length]
  | some (.list ss), .obj _ => [.laterItems ss.length s]
  | _, _ => []

def nameRules (v : Json) (s : Schema) : List Rule :=
  match v with
  | .bool true => []
  | .bool false => [.refuseMembers]
  | _ => [.names s]

/-- The rules of a keyword with schemas under it, which may depend on other keywords. -/
def rulesOfPart? (fields : Assoc Json) (parts : Assoc Part) (keyword : String) (v : Json) :
    Part → Option (List Rule)
  | .one s =>
    match keyword with
    | "additionalItems" => some (laterItemRules parts v s)
    | "additionalProperties" => restRules? fields parts v s
    | "contains" => some [.contains s]
    | "if" =>
      match partAt? parts "then", partAt? parts "else" with
      | none, none => some []
      | yes, no => some [.when s (yes.getD always) (no.getD always)]
    | "items" => some [.items s]
    | "not" => some [.not v s]
    | "propertyNames" => some (nameRules v s)
    | _ => some []
  | .list ss =>
    match keyword with
    | "items" => some [.places ss]
    | "allOf" => if ss.isEmpty then none else some [.allOf ss]
    | "anyOf" => if ss.isEmpty then none else some [.anyOf ss]
    | "oneOf" => if ss.isEmpty then none else some [.oneOf ss]
    | _ => some []
  | .table entries =>
    match keyword with
    | "properties" => some (if restIsRuled fields then [] else [.members entries])
    | "patternProperties" => do
      let patterns ← patternsOf? entries
      some (if restIsRuled fields then [] else [.matching patterns])
    | "dependencies" => some [.dependencies entries]
    | _ => some []
  | .other => some []

def boundRule? (b : Bound) (v : Json) : Option (List Rule) :=
  if v.isNumber then some [.bound b v] else none

def isTrue : Option Json → Bool
  | some (.bool b) => b
  | _ => false

/-- The rule of a bound. In the first of the drafts another keyword beside it may say that the bound itself is
not allowed. -/
def boundOr? (d : Draft) (fields : Assoc Json) (b strict : Bound) (keyword : String) (v : Json) :
    Option (List Rule) :=
  boundRule? (if d = .four ∧ isTrue (fields.get? keyword) then strict else b) v

/-- The rule of a bound that is not allowed itself. In the first of the drafts this only says so of a bound
beside it. -/
def strictBound? (d : Draft) (fields : Assoc Json) (strict : Bound) (keyword : String) (v : Json) :
    Option (List Rule) :=
  if d = .four then if v.isBool ∧ fields.contains keyword then some [] else none
  else boundRule? strict v

def textOnly? (v : Json) : Option (List Rule) := if v.isString then some [] else none

def addressOnly? (admits : List Char → Bool) (v : Json) : Option (List Rule) :=
  if v.asString?.any (fun s => admits s.toList) then some [] else none

/-- What texts hold by the words for their media type and their encoding; other words say nothing, and an
encoding says nothing beside a media type. -/
def contentOf? (mediaType encoding : Option Json) : Option Content :=
  match mediaType, encoding with
  | none, some (.str "base64") => some .base64
  | some (.str "application/json"), none => some .json
  | some (.str "application/json"), some (.str "base64") => some .jsonInBase64
  | _, _ => none

/-- The rules of a keyword that a draft knows, without schemas under it; nothing when its value is not as it
must be. Unknown keywords say nothing. -/
def rulesOfKnown? (d : Draft) (fields : Assoc Json) (keyword : String) (v : Json) : Option (List Rule) :=
  match keyword with
  | "type" => (kinds? d v).map (fun ks => [.kinds ks])
  | "enum" => (options? d v).map (fun vs => [.options vs])
  | "const" => some [.constant v]
  | "minimum" => boundOr? d fields .minimum .exclusiveMinimum "exclusiveMinimum" v
  | "maximum" => boundOr? d fields .maximum .exclusiveMaximum "exclusiveMaximum" v
  | "exclusiveMinimum" => strictBound? d fields .exclusiveMinimum "minimum" v
  | "exclusiveMaximum" => strictBound? d fields .exclusiveMaximum "maximum" v
  | "multipleOf" => v.asFloat?.bind (fun m => if 0 < m then some [.multipleOf m] else none)
  | "minLength" => (count? d v).map (fun n => [.atLeast .characters n])
  | "maxLength" => (count? d v).map (fun n => [.atMost .characters n])
  | "minItems" => (count? d v).map (fun n => [.atLeast .items n])
  | "maxItems" => (count? d v).map (fun n => [.atMost .items n])
  | "minProperties" => (count? d v).map (fun n => [.atLeast .members n])
  | "maxProperties" => (count? d v).map (fun n => [.atMost .members n])
  | "uniqueItems" =>
    match v with
    | .bool b => some (if b then [.distinct] else [])
    | _ => none
  | "pattern" => do
    let text ← v.asString?
    let p ← Pattern.parse? text
    some [.pattern text p]
  | "required" => (names? d v).map (fun names => [.required names])
  | "$ref" => addressOnly? Address.isUriReference v
  | "$id" => addressOnly? Address.isUriReference v
  | "id" => textOnly? v
  | "$schema" => if d = .four then textOnly? v else addressOnly? Address.isUri v
  | "$comment" => textOnly? v
  | "title" => textOnly? v
  | "description" => textOnly? v
  | "format" => v.asString?.map (fun name =>
    if d.knowsFormat name then ((Format.ofName? name).map (Rule.format name)).toList else [])
  | "contentMediaType" => do
    let _ ← v.asString?
    some ((contentOf? (some v) (fields.get? "contentEncoding")).map Rule.content).toList
  | "contentEncoding" => do
    let _ ← v.asString?
    some (if fields.contains "contentMediaType" then []
      else ((contentOf? none (some v)).map Rule.content).toList)
  | "readOnly" => if v.isBool then some [] else none
  | "examples" => if v.isArray then some [] else none
  | _ => some []

def rulesOfValue? (d : Draft) (fields : Assoc Json) (keyword : String) (v : Json) : Option (List Rule) :=
  if d.knows keyword then rulesOfKnown? d fields keyword v else some []

def rulesOf? (d : Draft) (fields : Assoc Json) (parts : Assoc Part) (e : String × Json) :
    Option (List Rule) :=
  match parts.get? e.1 with
  | some .other => rulesOfValue? d fields e.1 e.2
  | some part => rulesOfPart? fields parts e.1 e.2 part
  | none => some []

/-- The schema of an object, given what stands under its keywords. A reference makes all other
keywords void, but they must be as they must be. -/
def assemble? (d : Draft) (fields : Assoc Json) (parts : Assoc Part) : Option Schema := do
  let rs ← fields.mapM (rulesOf? d fields parts)
  match fields.get? "$ref" with
  | some (.str target) => some (.reference target)
  | _ => some (.rules rs.flatten)

mutual

/-- The schema that a value describes by the rules of a draft. -/
def read? (d : Draft) : Json → Option Schema
  | .bool b => some (.verdict b)
  | .obj fields => do
    let parts ← readParts? d fields
    assemble? d fields parts
  | _ => none

def readParts? (d : Draft) : List (String × Json) → Option (List (String × Part))
  | [] => some []
  | (keyword, v) :: rest => do
    let part ←
      match v with
      | .arr items =>
        if holdsList keyword then (readList? d items).map .list
        else if holdsOne d keyword ∨ holdsTable keyword then none
        else some .other
      | .obj fields =>
        if holdsOne d keyword then (read? d (.obj fields)).map .one
        else if holdsTable keyword then
          (readTable? d (keyword = "dependencies") fields).map .table
        else if holdsList keyword then none
        else some .other
      | .bool b =>
        if holdsOne d keyword then if d.allowsVerdict keyword then some (.one (.verdict b)) else none
        else if holdsList keyword ∨ holdsTable keyword then none
        else some .other
      | _ =>
        if holdsOne d keyword ∨ holdsList keyword ∨ holdsTable keyword then none else some .other
    let parts ← readParts? d rest
    some ((keyword, part) :: parts)

def readList? (d : Draft) : List Json → Option (List Schema)
  | [] => some []
  | v :: rest => do
    let s ← if v.isBool ∧ d = .four then none else read? d v
    let ss ← readList? d rest
    some (s :: ss)

/-- Named schemas. Where `lists` allows it, a list of names stands for the schema that requires
them. -/
def readTable? (d : Draft) (lists : Bool) : List (String × Json) → Option (List (String × Schema))
  | [] => some []
  | (name, v) :: rest => do
    let s ←
      if lists ∧ v.isArray then (names? d v).map (fun names => .rules [.required names])
      else if v.isBool ∧ d = .four then none
      else read? d v
    let ss ← readTable? d lists rest
    some ((name, s) :: ss)

end

end Workflow.Schema
