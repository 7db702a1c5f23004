import Workflow.Json.Path
import Workflow.Number.Remainder
import Workflow.Schema.Read

namespace Workflow

namespace Schema

/-- How a part of a value at a place is checked against a part of a schema. -/
abbrev Checker := Schema → List String → Json → List Violation

/-- Numbers closer than this are the same constant. -/
def epsilon : Float := Float.scaleB 1 (-52)

def isConstant (expected v : Json) : Bool :=
  match expected.isNumber, expected.asFloat?, v.asFloat? with
  | true, some x, some y => (x - y).abs < epsilon
  | _, _, _ => expected.same v

def fraction (x : Float) : Float := Number.remainder x 1

/-- Whether the quotient of two floats is a whole number, exactly. -/
def dividesExactly (m x : Float) : Bool :=
  match (Json.float x).aligned? (.float m) with
  | some (a, b) => b ≠ 0 ∧ a % b = 0
  | none => false

def isMultiple (m : Float) (v : Json) : Bool :=
  match v.asFloat? with
  | none => true
  | some x =>
    if fraction m == 0 then fraction x == 0 && Number.remainder x m == 0
    else
      let r := fraction (x / m)
      if r.isNaN then dividesExactly m x else r < epsilon

def pathOf (path : List String) (step : String) : List String := path ++ [step]

def withPlaces (items : List Json) : List (Nat × Json) := (List.range items.length).zip items

namespace Rule

/-- The violations of the schemas of all patterns that match a name. -/
def byPattern (check : Checker) (patterns : List (Pattern × Schema)) (path : List String)
    (name : String) (v : Json) : List Violation :=
  (patterns.filter (fun p => p.1.occursIn name)).flatMap (fun p => check p.2 (pathOf path name) v)

def declaredAt? (declared : List (String × Schema)) (name : String) : Option Schema :=
  (declared.find? (fun d => d.1 = name)).map Prod.snd

def isKnown (declared : List (String × Schema)) (patterns : List (Pattern × Schema)) (name : String) :
    Bool :=
  (declaredAt? declared name).isSome || patterns.any (fun p => p.1.occursIn name)

/-- The violations of a member that is declared or matches a pattern. -/
def byName (check : Checker) (declared : List (String × Schema)) (patterns : List (Pattern × Schema))
    (path : List String) (name : String) (v : Json) : List Violation :=
  (match declaredAt? declared name with
    | some s => check s (pathOf path name) v
    | none => [])
  ++ byPattern check patterns path name v

def onObject (v : Json) (f : Assoc Json → List Violation) : List Violation :=
  match v with
  | .obj fields => f fields
  | _ => []

def onArray (v : Json) (f : List Json → List Violation) : List Violation :=
  match v with
  | .arr vs => f vs
  | _ => []

def failIf (b : Bool) (path : List String) (fault : Fault) : List Violation :=
  if b then [⟨path, fault⟩] else []

def itemsFrom (check : Checker) (path : List String) (vs : List Json) (count : Nat) (s : Schema) :
    List Violation :=
  ((withPlaces vs).drop count).flatMap (fun p => check s (pathOf path (toString p.1)) p.2)

/-- The violations of one rule, given how parts are checked. -/
def check (sub : Checker) (path : List String) (v : Json) : Rule → List Violation
  | kinds ks => failIf (!ks.any (fun k => k.admits v)) path (.kind v ks)
  | options ws => failIf (!ws.any (fun w => w.same v)) path (.option v ws)
  | constant w => failIf (!isConstant w v) path (.constant w)
  | bound b limit => failIf (v.isNumber && !b.holds limit v) path (.bound v b limit)
  | multipleOf m => failIf (!isMultiple m v) path (.multiple v m)
  | atLeast m n => failIf ((m.count? v).any (· < n)) path (.tooFew v m n)
  | atMost m n => failIf ((m.count? v).any (n < ·)) path (.tooMany v m n)
  | distinct => failIf (v.asArray?.any (fun vs => !allDistinct vs)) path (.repeated v)
  | pattern text p => failIf (v.asString?.any (fun s => !p.occursIn s)) path (.mismatch v text)
  | format name f => failIf (v.asString?.any (fun s => !f.admits s)) path (.malformed v name)
  | content c =>
    match v.asString?.bind c.check with
    | some flaw => [⟨path, .content v flaw⟩]
    | none => []
  | required ns => onObject v (fun fields =>
    (ns.filter (fun name => !Assoc.contains fields name)).map (fun name => ⟨path, .missing name⟩))
  | members declared => onObject v (fun fields =>
    declared.flatMap (fun d =>
      match Assoc.get? fields d.1 with
      | some w => sub d.2 (pathOf path d.1) w
      | none => []))
  | matching patterns => onObject v (fun fields =>
    patterns.flatMap (fun p =>
      (fields.filter (fun e => p.1.occursIn e.1)).flatMap (fun e => sub p.2 (pathOf path e.1) e.2)))
  | refuseMembers => onObject v (fun fields => failIf (!fields.isEmpty) path (.refused v))
  | refuseAny => onObject v (fun fields =>
    match fields with
    | [] => []
    | e :: _ => [⟨path, .refused e.2⟩])
  | refuseRest declared patterns => onObject v (fun fields =>
    let extra := (fields.filter (fun e => !isKnown declared patterns e.1)).map Prod.fst
    fields.flatMap (fun e => byName sub declared patterns path e.1 e.2)
      ++ failIf (!extra.isEmpty) path (.unexpectedMembers extra))
  | checkRest declared patterns rest => onObject v (fun fields =>
    fields.flatMap (fun e =>
      if isKnown declared patterns e.1 then byName sub declared patterns path e.1 e.2
      else sub rest (pathOf path e.1) e.2))
  | names s => onObject v (fun fields =>
    fields.flatMap (fun e => (sub s path (.str e.1)).map (fun x => ⟨path, x.fault⟩)))
  | items s => onArray v (fun vs => itemsFrom sub path vs 0 s)
  | places ss => onArray v (fun vs =>
    ((withPlaces vs).zip ss).flatMap (fun p => sub p.2 (pathOf path (toString p.1.1)) p.1.2))
  | refuseItems count => onArray v (fun vs =>
    failIf (count < vs.length) path (.unexpectedItems (vs.drop count)))
  | laterItems count s => onArray v (fun vs => itemsFrom sub path vs count s)
  | contains s => onArray v (fun vs =>
    failIf (!vs.any (fun w => (sub s path w).isEmpty)) path (.noneContained v))
  | dependencies ds => onObject v (fun fields =>
    (ds.filter (fun d => Assoc.contains fields d.1)).flatMap (fun d => sub d.2 path v))
  | allOf ss => ss.flatMap (fun s => sub s path v)
  | anyOf ss => failIf (!ss.any (fun s => (sub s path v).isEmpty)) path (.noAlternative v "anyOf")
  | oneOf ss =>
    match ss.filter (fun s => (sub s path v).isEmpty) with
    | [] => [⟨path, .noAlternative v "oneOf"⟩]
    | [_] => []
    | _ => [⟨path, .manyAlternatives v⟩]
  | not raw s => failIf (sub s path v).isEmpty path (.excluded raw v)
  | when test yes no => if (sub test path v).isEmpty then sub yes path v else sub no path v

end Rule

/-- A step of a pointer into a value. -/
def pointerStep? (v : Json) (step : List Char) : Option Json :=
  let rec unescape : List Char → List Char
    | '~' :: '1' :: rest => '/' :: unescape rest
    | '~' :: '0' :: rest => '~' :: unescape rest
    | c :: rest => c :: unescape rest
    | [] => []
  v.step? (unescape step)

/-- The part of a document that a local reference names. -/
def target? (document : Json) (target : String) : Option Schema := do
  let part ←
    match target.toList with
    | ['#'] => some document
    | '#' :: '/' :: rest => (Text.split '/' rest).foldlM pointerStep? document
    | _ => none
  read? (.ofDocument document) part

/-- Every violation of a schema that is part of a document, with at most `fuel` schemas inside one
another. -/
def checkWithin (document : Json) : Nat → Checker
  | 0, _, _, _ => []
  | _ + 1, verdict allowed, path, v => Rule.failIf (!allowed) path (.refused v)
  | fuel + 1, reference target, path, v =>
    match target? document target with
    | some s => checkWithin document fuel s path v
    | none => [⟨[], .unresolved target⟩]
  | fuel + 1, rules rs, path, v => rs.flatMap (Rule.check (checkWithin document fuel) path v)

end Schema

/-- A schema together with the document that its references point into. -/
structure CompiledSchema where
  document : Json
  schema : Schema

namespace CompiledSchema

/-- The schema of a document, by the rules of the draft that it names; nothing when the document does not
describe one. -/
def compile? (document : Json) : Option CompiledSchema :=
  (Schema.read? (.ofDocument document) document).map (fun s => ⟨document, s⟩)

/-- Every violation by a value. A chain of schemas inside one another meets each part of the document at
most once per level of the value. -/
def violations (s : CompiledSchema) (v : Json) : List Schema.Violation :=
  Schema.checkWithin s.document ((s.document.size + 1) * (v.size + 1)) s.schema [] v

/-- Check a value; all violations make one message. -/
def check (s : CompiledSchema) (v : Json) : Except String Unit :=
  match s.violations v with
  | [] => .ok ()
  | xs => .error ("; ".intercalate (xs.map Schema.Violation.message))

end CompiledSchema

end Workflow
