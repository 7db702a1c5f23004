import Workflow.Json.Printer

namespace Workflow.Expr

/-- The operators that stand between two operands. -/
inductive Op where
  | add
  | subtract
  | multiply
  | divide
  | floorDivide
  | modulus
  | exponent
  | less
  | lessEqual
  | greater
  | greaterEqual
  | equal
  | notEqual
  | and
  | or
  | contained
  deriving DecidableEq

def Op.name : Op → String
  | add => "Add"
  | subtract => "Subtract"
  | multiply => "Multiply"
  | divide => "Divide"
  | floorDivide => "Floor division"
  | modulus => "Modulus"
  | exponent => "Exponent"
  | less => "Less than"
  | lessEqual => "Less than or equal to"
  | greater => "Greater than"
  | greaterEqual => "Greater than or equal to"
  | equal => "Equal"
  | notEqual => "Not equal"
  | and => "Bitwise And"
  | or => "Bitwise Or"
  | contained => "In"

end Expr

/-- An expression over the members of a scope. -/
inductive Expr where
  | number (x : Float)
  | text (s : String)
  | bool (b : Bool)
  | null
  | ident (id : String)
  | list (items : List Expr)
  | record (fields : List (String × Expr))
  | binary (op : Expr.Op) (left right : Expr)
  | conditional (test yes no : Expr)
  | transform (subject : Expr) (name : String) (args : List Expr)
  | member (subject : Expr) (name : String)
  | index (subject place : Expr)
  | filter (subject : Expr) (name : String) (op : Expr.Op) (right : Expr)
  deriving Inhabited

/-- Why an expression has no value. -/
inductive ExprError where
  | malformed
  | noScope
  | badOperands (op : Expr.Op) (left right : Json)
  | unknownName (name : String)
  | unknownTransform (name : String)
  | duplicateKey (name : String)
  | badIndex
  | badFilter

namespace ExprError

/-- What went wrong inside the expression. -/
def reason : ExprError → String
  | malformed => "Parsing error: not an expression"
  | noScope => "scope must be a JSON object"
  | badOperands op left right =>
    s!"Invalid binary operation, left: {left.compact}, right: {right.compact}, operation: {op.name}"
  | unknownName name => s!"Identifier '{name}' is undefined"
  | unknownTransform name => s!"Unknown transform: {name}"
  | duplicateKey name => s!"Duplicate object key: {name}"
  | badIndex => "Invalid index type"
  | badFilter => "Invalid filter"

def message (e : ExprError) : String :=
  match e with
  | noScope => "invalid context: " ++ e.reason
  | _ => "expression evaluation failed: " ++ e.reason

end ExprError

end Workflow
