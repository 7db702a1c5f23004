import Workflow.Capability.Basic
import Workflow.Template.Prompt

namespace Workflow

namespace PromptCall

/-- What templates of a prompt see. -/
def view (inputs : Inputs) (ctx : Context) (state : Json) : Json :=
  .obj [("context", ctx.view), ("inputs", .obj inputs), ("state", state)]

def request (c : PromptCall) (root : Json) : ModelRequest where
  model := c.prompt.model
  system := c.prompt.system.map (Template.render root)
  prompt := Template.render root c.prompt.template
  schema := c.prompt.schema

/-- The value of a response: text that holds a JSON value stands for that value. -/
def valueOf (response : Json) : Json :=
  match response with
  | .str s => (Json.parse? s).getD (.str s)
  | v => v

/-- A response that keeps to a schema, as a value. -/
def conform (s : CompiledSchema) (response : Json) : Except String Json :=
  match s.check (valueOf response) with
  | .ok _ => .ok (valueOf response)
  | .error reason => .error reason

variable {σ : Type}

/-- Ask the model of the prompt. When the answer does not keep to the schema, the fallback decides: an
error, a fixed answer, or the same question to another model. -/
def ask (c : PromptCall) (model : Model σ) (root : Json) : Activity σ (Except InvokeError Json) := do
  let request := c.request root
  match ← model request with
  | .error e => return .error (.invocation e.message)
  | .ok response =>
    match c.schema with
    | none => return .ok response
    | some s =>
      match conform s response with
      | .ok v => return .ok v
      | .error reason =>
        match c.prompt.fallback with
        | .raise => return .error (.outputSchema reason)
        | .static answer => return .ok answer
        | .model other =>
          match ← model { request with model := other } with
          | .error e => return .error (.invocation e.message)
          | .ok response =>
            match conform s response with
            | .ok v => return .ok v
            | .error reason => return .error (.outputSchema s!"fallback model '{other}': {reason}")

end PromptCall

namespace Capability

variable {μ : Type}

/-- The value of the state of a node; null when it has none or it is not set. -/
def stateValue (slot : Option Slot) : Activity (World μ) (Except StoreError Json) :=
  match slot with
  | none => .done (.ok .null)
  | some slot => .step (fun now w =>
    let (v, w) := slot.get now w
    (v.map (fun o => o.getD .null), w))

def invoke (c : Capability (World μ)) (inputs : Inputs) (ctx : Context) (slot : Option Slot) :
    Activity (World μ) (Except InvokeError Json) := do
  match c with
  | operation _ op args =>
    return (← op args inputs ctx).mapError (fun e => .invocation e.message)
  | code body runtime =>
    return (← runtime body inputs ctx slot).mapError (fun e => .invocation e.message)
  | prompt call model =>
    match ← stateValue slot with
    | .error e => return .error (.invocation e.message)
    | .ok state => call.ask model (PromptCall.view inputs ctx state)

end Capability

end Workflow
