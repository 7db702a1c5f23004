import Workflow.Json.Basic
import Workflow.Number.Read
import Workflow.Number.Word
import Workflow.Text.Cut

namespace Workflow.Json

/-- A place in a list: decimal digits, with or without a plus in front, of a number that 64 bits
hold. -/
def index? (segment : List Char) : Option Nat :=
  let ds :=
    match segment with
    | '+' :: rest => rest
    | _ => segment
  if ds.isEmpty ∨ ¬ ds.all Char.isDigit then none
  else
    let n := Number.ofDigits ds
    if n < Number.word64 then some n else none

/-- One step into a value: the member of an object, or the item of a list. -/
def step? (v : Json) (segment : List Char) : Option Json :=
  match v with
  | obj fields => Assoc.get? fields (String.ofList segment)
  | arr items => (index? segment).bind (fun i => items[i]?)
  | _ => none

/-- The value that a path of steps leads to. -/
def follow? (v : Json) : List (List Char) → Option Json
  | [] => some v
  | segment :: rest => (v.step? segment).bind (fun w => follow? w rest)

/-- The value at a path with points between its steps. The empty path leads nowhere. -/
def lookupChars? (v : Json) (path : List Char) : Option Json :=
  if path.isEmpty then none else v.follow? (Text.split '.' path)

def lookup? (v : Json) (path : String) : Option Json := v.lookupChars? path.toList

theorem follow?_append (v : Json) (p q : List (List Char)) :
    v.follow? (p ++ q) = (v.follow? p).bind (fun w => w.follow? q) := by
  induction p generalizing v with
  | nil => rfl
  | cons segment rest ih =>
    simp only [List.cons_append, follow?]
    cases v.step? segment with
    | none => rfl
    | some w => simpa using ih w

end Workflow.Json
