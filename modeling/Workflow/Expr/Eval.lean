import Workflow.Context.Basic
import Workflow.Expr.Parser
import Workflow.Number.Remainder
import Workflow.Text.Blank
import Workflow.Text.Casing
import Workflow.Text.Cut

namespace Workflow

/-- Whether a value counts as true: not null, false, zero or the empty text. -/
def Json.truthy : Json → Bool
  | null => false
  | bool b => b
  | int n => n ≠ 0
  | float x => x != 0
  | str s => s ≠ ""
  | arr _ => true
  | obj _ => true

namespace Expr

/-- Numbers this close count as equal. -/
def tolerance : Float := 0.000001

def nearlyEqual (x y : Float) : Bool := (x - y).abs < tolerance

def applyNumbers (op : Op) (x y : Float) : Json :=
  match op with
  | .add => .ofFloat (x + y)
  | .subtract => .ofFloat (x - y)
  | .multiply => .ofFloat (x * y)
  | .divide => .ofFloat (x / y)
  | .floorDivide => .ofFloat (x / y).floor
  | .modulus => .ofFloat (Number.remainder x y)
  | .exponent => .ofFloat (x.pow y)
  | .less => .bool (x < y)
  | .lessEqual => .bool (x ≤ y)
  | .greater => .bool (y < x)
  | .greaterEqual => .bool (y ≤ x)
  | .equal => .bool (nearlyEqual x y)
  | .notEqual => .bool (!nearlyEqual x y)
  | _ => .bool false

def applyTexts? (op : Op) (s t : String) : Option Json :=
  match op with
  | .add => some (.str (s ++ t))
  | .less => some (.bool (s < t))
  | .lessEqual => some (.bool (s ≤ t))
  | .greater => some (.bool (t < s))
  | .greaterEqual => some (.bool (t ≤ s))
  | .equal => some (.bool (s = t))
  | .contained => some (.bool (Text.occurs s.toList t.toList))
  | _ => none

def sameValue : Json → Json → Bool
  | .null, .null => true
  | .bool a, .bool b => a == b
  | .arr a, .arr b => Json.arr a == Json.arr b
  | .obj a, .obj b => Json.obj a == Json.obj b
  | _, _ => false

/-- An operator on two values other than `notEqual`, `and` and `or`. -/
def applyStrict (op : Op) (left right : Json) : Except ExprError Json :=
  match left.asFloat?, right.asFloat? with
  | some x, some y => .ok (applyNumbers op x y)
  | _, _ =>
    match op, left, right with
    | op, .str s, .str t =>
      match applyTexts? op s t with
      | some v => .ok v
      | none => .error (.badOperands op left right)
    | .contained, v, .arr items => .ok (.bool (items.any (fun w => w == v)))
    | .contained, .str s, .obj fields => .ok (.bool (Assoc.contains fields s))
    | .equal, v, w => .ok (.bool (sameValue v w))
    | op, v, w => .error (.badOperands op v w)

def apply (op : Op) (left right : Json) : Except ExprError Json :=
  match op with
  | .and => .ok (if left.truthy then right else left)
  | .or => .ok (if left.truthy then left else right)
  | .notEqual => do
    let v ← applyStrict .equal left right
    return .bool (!v.truthy)
  | op => applyStrict op left right

/-- The named transforms, on a subject and further arguments. -/
def transform? (name : String) (args : List Json) : Option Json :=
  let text := ((args.head?.bind Json.asString?).getD "")
  match name with
  | "lower" => some (.str (Text.toLower text))
  | "upper" => some (.str (Text.toUpper text))
  | "trim" => some (.str (String.ofList (Text.trim text.toList)))
  | "contains" =>
    match args with
    | .str s :: .str part :: _ => some (.bool (Text.occurs part.toList s.toList))
    | .arr items :: v :: _ => some (.bool (items.any (fun w => w == v)))
    | _ => some (.bool false)
  | "length" =>
    match args with
    | .str s :: _ => some (.float (Float.ofNat s.length))
    | .arr items :: _ => some (.float (Float.ofNat items.length))
    | .obj fields :: _ => some (.float (Float.ofNat fields.length))
    | _ => some (.float 0)
  | "keys" =>
    match args with
    | .obj fields :: _ => some (.strings (Assoc.keys fields))
    | _ => some (.arr [])
  | "first" =>
    match args with
    | .arr (v :: _) :: _ => some v
    | _ => some .null
  | _ => none

/-- The whole number at or below a float, taken as a place in a list. -/
def placeOf (x : Float) : Nat := if x < 0 then 0 else x.floor.toUInt64.toNat

def indexed (subject place : Json) : Except ExprError Json :=
  match place with
  | .str name => .ok (.ofOption (subject.get? name))
  | _ =>
    match place.asFloat? with
    | some x =>
      match subject with
      | .arr items => .ok (.ofOption (items[placeOf x]?))
      | _ => .ok .null
    | none => .error .badIndex

/-- The items whose member stands in relation `op` to `right`. -/
def filtered (subject : Json) (name : String) (op : Op) (right : Json) : Except ExprError Json :=
  match subject with
  | .arr items =>
    .ok (.arr (items.filter (fun v =>
      match apply op (.ofOption (v.get? name)) right with
      | .ok w => w.truthy
      | .error _ => false)))
  | _ => .error .badFilter

mutual

/-- The value of an expression. The right side of `and` and `or` and the branches of a choice are
evaluated only when they are needed; a test that fails counts as false. -/
def eval (scope : Assoc Json) : Expr → Except ExprError Json
  | .number x => .ok (.ofFloat x)
  | .text s => .ok (.str s)
  | .bool b => .ok (.bool b)
  | .null => .ok .null
  | .ident id =>
    match scope.get? id with
    | some v => .ok v
    | none => .error (.unknownName id)
  | .list items => (evalItems scope items).map .arr
  | .record fields => (evalFields scope [] fields).map .obj
  | .binary .and left right =>
    match eval scope left with
    | .ok v => if v.truthy then eval scope right else .ok v
    | .error e => .error e
  | .binary .or left right =>
    match eval scope left with
    | .ok v => if v.truthy then .ok v else eval scope right
    | .error _ => eval scope right
  | .binary op left right => do
    let v ← eval scope left
    let w ← eval scope right
    apply op v w
  | .conditional test yes no =>
    match eval scope test with
    | .ok v => if v.truthy then eval scope yes else eval scope no
    | .error _ => eval scope no
  | .transform subject name args => do
    let v ← eval scope subject
    let vs ← evalItems scope args
    match transform? name (v :: vs) with
    | some w => return w
    | none => throw (.unknownTransform name)
  | .member subject name => do
    let v ← eval scope subject
    return .ofOption (v.get? name)
  | .index subject place => do
    let v ← eval scope subject
    let p ← eval scope place
    indexed v p
  | .filter subject name op right => do
    let v ← eval scope subject
    if v.isArray then
      let w ← eval scope right
      filtered v name op w
    else throw .badFilter

def evalItems (scope : Assoc Json) : List Expr → Except ExprError (List Json)
  | [] => .ok []
  | e :: rest => do
    let v ← eval scope e
    let vs ← evalItems scope rest
    return v :: vs

/-- The members of a record added to those in front of them. -/
def evalFields (scope : Assoc Json) (done : Assoc Json) :
    List (String × Expr) → Except ExprError (Assoc Json)
  | [] => .ok done
  | (name, e) :: rest =>
    if done.contains name then .error (.duplicateKey name)
    else do
      let v ← eval scope e
      evalFields scope (done.insert name v) rest

end

/-- The value of the text of an expression in a scope, which must be an object. -/
def evaluate (text : String) (scope : Json) : Except ExprError Json :=
  match scope with
  | .obj fields =>
    match parse? text with
    | some e => eval fields e
    | none => .error .malformed
  | _ => .error .noScope

def holds (text : String) (scope : Json) : Except ExprError Bool :=
  (evaluate text scope).map Json.truthy

/-- What expressions on a link see: the members of the value, the value under the name of its port and
under `value`, the whole output, and the context. -/
def linkScope (port : String) (value output : Json) (ctx : Context) : Json :=
  let fields : Assoc Json := value.asObject?.getD []
  .obj ((((fields.insert port value).insert "value" value).insert "output" output).insert
    "context" ctx.view)

end Expr

end Workflow
