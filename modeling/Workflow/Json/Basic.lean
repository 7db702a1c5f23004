import Workflow.Assoc

namespace Workflow

/-- A JSON value. Whole numbers and binary floating-point numbers are different values, and the
members of an object are in increasing order of their names. -/
inductive Json where
  | null
  | bool (b : Bool)
  | int (n : Int)
  | float (x : Float)
  | str (s : String)
  | arr (items : List Json)
  | obj (fields : List (String × Json))
  deriving Inhabited

namespace Json

mutual

/-- Equality of values: numbers of different kinds differ, and floats compare as numbers do. -/
protected def beq : Json → Json → Bool
  | null, null => true
  | bool a, bool b => a == b
  | int a, int b => a == b
  | float a, float b => a == b
  | str a, str b => a == b
  | arr a, arr b => beqItems a b
  | obj a, obj b => beqFields a b
  | _, _ => false

def beqItems : List Json → List Json → Bool
  | [], [] => true
  | a :: as, b :: bs => a.beq b && beqItems as bs
  | _, _ => false

def beqFields : List (String × Json) → List (String × Json) → Bool
  | [], [] => true
  | (k, a) :: as, (l, b) :: bs => k == l && a.beq b && beqFields as bs
  | _, _ => false

end

instance : BEq Json := ⟨Json.beq⟩

/-- The object of a list of members in any order; of equal names the last counts. -/
def ofFields (fields : List (String × Json)) : Json := obj (Assoc.ofList fields)

def ofNat (n : Nat) : Json := int n

def ofOption (o : Option Json) : Json := o.getD null

/-- A float as a value; what is no number is null. -/
def ofFloat (x : Float) : Json := if x.isFinite then float x else null

def strings (names : List String) : Json := arr (names.map str)

/-- The member `name` of an object. -/
def get? (v : Json) (name : String) : Option Json :=
  match v with
  | obj fields => Assoc.get? fields name
  | _ => none

def isNull : Json → Bool
  | null => true
  | _ => false

def isString : Json → Bool
  | str _ => true
  | _ => false

def isNumber : Json → Bool
  | int _ => true
  | float _ => true
  | _ => false

def isBool : Json → Bool
  | bool _ => true
  | _ => false

def isObject : Json → Bool
  | obj _ => true
  | _ => false

def isArray : Json → Bool
  | arr _ => true
  | _ => false

def asString? : Json → Option String
  | str s => some s
  | _ => none

def asArray? : Json → Option (List Json)
  | arr items => some items
  | _ => none

def asObject? : Json → Option (Assoc Json)
  | obj fields => some fields
  | _ => none

/-- A number as a float. -/
def asFloat? : Json → Option Float
  | int n => some (Float.ofInt n)
  | float x => some x
  | _ => none

/-- The name of the kind of a value. -/
def kind : Json → String
  | null => "null"
  | bool _ => "boolean"
  | int _ => "number"
  | float _ => "number"
  | str _ => "string"
  | arr _ => "array"
  | obj _ => "object"

end Json

end Workflow
