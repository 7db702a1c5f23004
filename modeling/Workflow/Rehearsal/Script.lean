import Workflow.Rehearsal.Diary

namespace Workflow.Rehearsal

/-- What a call comes to: a value, something of what it was given, or an error. -/
inductive Effect where
  | answer (v : Json)
  | give (what : String)
  | fail (reason : String)
  | invalidArgs (reason : String)
  | panic (reason : String)

/-- What a call does: it rests, and then comes to something. -/
structure Behaviour where
  restMs : Nat := 0
  effect : Effect := .answer .null

/-- What the calls of one name do, in their order; all further ones do what the last one does. -/
abbrev Script := List Behaviour

def Script.at (s : Script) (n : Nat) : Behaviour := (s[n]?).getD (s.getLast?.getD {})

/-- What a call of an operation can give: its inputs, its arguments, the fields of the request, or the
value at an input port. -/
def given (args : Json) (inputs : Inputs) (ctx : Context) (what : String) : Json :=
  match what with
  | "inputs" => .obj inputs
  | "args" => args
  | "raw" => .obj ctx.raw
  | port => .ofOption (inputs.get? port)

def operation (name : String) (script : Script) : Operation (World Diary) :=
  fun args inputs ctx => do
    let behaviour := script.at (← begin (Call.isOperation name) (.operation name inputs))
    Activity.sleep behaviour.restMs
    match behaviour.effect with
    | .answer v => return .ok v
    | .give what => return .ok (given args inputs ctx what)
    | .fail reason => return .error (.failed reason)
    | .invalidArgs reason => return .error (.invalidArgs reason)
    | .panic reason => return .error (.panicked reason)

/-- A question to a model as a value. -/
def questionOf (r : ModelRequest) : Json :=
  .ofFields [("model", .str r.model), ("system", .ofOption (r.system.map .str)),
    ("prompt", .str r.prompt), ("schema", .ofOption r.schema)]

/-- Models that answer by scripts; a model without a script is not there. -/
def models (scripts : Assoc Script) : Model (World Diary) := fun request => do
  let earlier ← begin (Call.isModel request.model) (.model request)
  match scripts.get? request.model with
  | none => return .error (.unknownModel request.model)
  | some script =>
    let behaviour := script.at earlier
    Activity.sleep behaviour.restMs
    match behaviour.effect with
    | .answer v => return .ok v
    | .give "prompt" => return .ok (.str request.prompt)
    | .give "request" => return .ok (questionOf request)
    | .give _ => return .ok .null
    | .fail reason => return .error (.provider reason)
    | .invalidArgs _ => return .ok .null
    | .panic reason => return .error (.panicked reason)

end Workflow.Rehearsal
