import Workflow.Capability.Basic
import Workflow.Json.Path
import Workflow.Template.Prompt

namespace Workflow.Builtin

/-- An operation that needs no time. -/
abbrev Plain := Json → Inputs → Context → Except OperationError Json

/-- The only input, or all of them. -/
def identity : Plain := fun _ inputs _ =>
  match inputs with
  | [(_, v)] => .ok v
  | _ => .ok (.obj inputs)

def constant : Plain := fun args _ _ =>
  match args.get? "value" with
  | some v => .ok v
  | none => .error (.invalidArgs "constant requires args.value")

def textArg (args : Json) (name : String) : Except OperationError String :=
  match args.get? name with
  | some (.str s) => .ok s
  | _ => .error (.invalidArgs s!"missing string argument '{name}'")

/-- The input that the arguments name, or the only one. -/
def chosenInput (args : Json) (inputs : Inputs) : Except OperationError Json :=
  match args.get? "from", inputs with
  | some (.str port), _ =>
    match inputs.get? port with
    | some v => .ok v
    | none => .error (.invalidArgs s!"no input on port '{port}'")
  | _, [(_, v)] => .ok v
  | _, _ => .error (.invalidArgs "args.from is required when a node has several inputs")

/-- A template filled from the inputs and the context. -/
def template : Plain := fun args inputs ctx => do
  let text ← textArg args "template"
  return .str (Template.render (.obj [("context", ctx.view), ("inputs", .obj inputs)]) text)

def join : Plain := fun args inputs _ =>
  let separator := ((args.get? "separator").bind Json.asString?).getD " "
  .ok (.str (separator.intercalate (inputs.values.map Json.display)))

/-- The value at a path inside an input, or null. -/
def pick : Plain := fun args inputs _ => do
  let path ← textArg args "path"
  let source ← chosenInput args inputs
  return (source.lookup? path).getD .null

def length : Plain := fun args inputs _ => do
  match ← chosenInput args inputs with
  | .str s => return .ofNat s.length
  | .arr items => return .ofNat items.length
  | .obj fields => return .ofNat fields.length
  | v => throw (.failed s!"cannot take the length of {v.compact}")

def all : Assoc Plain :=
  [("constant", constant), ("identity", identity), ("join", join), ("length", length),
    ("pick", pick), ("template", template)]

def operations {σ : Type} : Assoc (Operation σ) :=
  all.mapValues (fun f args inputs ctx => .done (f args inputs ctx))

end Workflow.Builtin
