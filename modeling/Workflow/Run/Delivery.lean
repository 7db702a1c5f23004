import Workflow.Expr.Eval
import Workflow.Plan
import Workflow.Run.Error

namespace Workflow

/-- Whether a value may stand at a port: its kind first, then its schema. -/
def Port.check (port : Port) (schema : Option CompiledSchema) (v : Json) : Except String Unit :=
  if !port.kind.accepts v then
    .error s!"port '{port.name}' expects {port.kind.name}, got {v.kind}"
  else
    match schema with
    | none => .ok ()
    | some s => (s.check v).mapError (fun reason => s!"port '{port.name}': {reason}")

namespace Node

/-- The value at a port of an output. A node with one output port puts its whole output there; with
several, the output is an object with a member for each. -/
def valueAt? (n : Node) (output : Json) (port : String) : Option Json :=
  match n.outputs with
  | [only] => if only.name = port then some output else none
  | _ => output.get? port

end Node

namespace Plan

/-- Whether a value may stand at an output port; null is no value. -/
def checkOutput (p : Plan) (place : Nat) (port : Port) (v : Json) : Except String Unit :=
  if v.isNull ∧ port.optional then .ok () else port.check (p.schema? place port.name) v

/-- Whether every port has its member in an output. -/
def checkMembers (p : Plan) (place : Nat) (fields : Assoc Json) : List Port → Except String Unit
  | [] => .ok ()
  | port :: rest =>
    match fields.get? port.name with
    | some v => do
      p.checkOutput place port v
      p.checkMembers place fields rest
    | none =>
      if port.optional then p.checkMembers place fields rest
      else .error s!"missing output port '{port.name}'"

/-- Whether an output fits the output ports of a node. -/
def validate (p : Plan) (place : Nat) (n : Node) (output : Json) : Except String Unit :=
  match n.outputs with
  | [] => .ok ()
  | [port] => p.checkOutput place port output
  | ports =>
    match output with
    | .obj fields => p.checkMembers place fields ports
    | v => .error s!"expected an object keyed by output port, got {v.kind}"

/-- The error of a link, which is the error of the node that it leads to, or else comes from. -/
def linkError (l : Link) (place : Nat) (kind : ErrorKind) (reason : String) : RunError :=
  let message := s!"{l.describe place}: {reason}"
  match l.target.nodeId?.or l.source.nodeId? with
  | some id => ⟨some id, kind, 0, message⟩
  | none => .ofRun kind message

/-- Whether the condition of a link holds. -/
def passes (l : Link) (place : Nat) (scope : Json) : Except RunError Bool :=
  match l.condition with
  | none => .ok true
  | some text =>
    (Expr.holds text scope).mapError (fun e =>
      linkError l place .expression s!"condition '{text}': {e.message}")

/-- The value after the inline transform of a link. -/
def transformed (l : Link) (place : Nat) (scope value : Json) : Except RunError Json :=
  match l.transform with
  | none => .ok value
  | some text =>
    (Expr.evaluate text scope).mapError (fun e =>
      linkError l place .expression s!"transform '{text}': {e.message}")

/-- Check a value at the port that a link leads to. -/
def checkTarget (p : Plan) (l : Link) (place : Nat) (v : Json) : Except RunError Unit :=
  match p.flow.placeAt? l.target.endpoint with
  | none => .ok ()
  | some i =>
    match (p.flow.nodes[i]?).bind (fun e => e.2.inputPort? l.target.port) with
    | none => .ok ()
    | some port => (port.check (p.schema? i port.name) v).mapError (linkError l place .invocation)

/-- What a link delivers of a value: nothing when its condition fails or the value is null. -/
def deliver (p : Plan) (ctx : Context) (l : Link) (place : Nat) (value output : Json) :
    Except RunError (Option Json) := do
  let scope := Expr.linkScope l.source.port value output ctx
  if !(← passes l place scope) then return none
  let v ← transformed l place scope value
  if v.isNull then return none
  let v ← (l.coercion.apply v).mapError (fun e => linkError l place .invocation e.message)
  p.checkTarget l place v
  return some v

end Plan

end Workflow
