import Workflow.Activity
import Workflow.Context.Basic
import Workflow.Run.Error
import Workflow.Schema.Check
import Workflow.State.Slot

namespace Workflow

inductive OperationError where
  | invalidArgs (reason : String)
  | failed (reason : String)
  | panicked (reason : String)

def OperationError.message : OperationError → String
  | invalidArgs reason => "invalid arguments: " ++ reason
  | failed reason => reason
  | panicked reason => "capability panicked: " ++ reason

inductive ModelError where
  | unknownModel (name : String)
  | provider (reason : String)
  | panicked (reason : String)

def ModelError.message : ModelError → String
  | unknownModel name => s!"model '{name}' is not available"
  | provider reason => "provider error: " ++ reason
  | panicked reason => "capability panicked: " ++ reason

structure ModelRequest where
  model : String
  system : Option String
  prompt : String
  schema : Option Json

abbrev Inputs := Assoc Json

abbrev Operation (σ : Type) := Json → Inputs → Context → Activity σ (Except OperationError Json)

abbrev CodeRuntime (σ : Type) :=
  String → Inputs → Context → Option Slot → Activity σ (Except OperationError Json)

abbrev Model (σ : Type) := ModelRequest → Activity σ (Except ModelError Json)

/-- What a host can do for flows: named operations, and if it has them a runtime for code and a
provider of models. -/
structure Host (σ : Type) where
  operations : Assoc (Operation σ)
  code : Option (CodeRuntime σ)
  model : Option (Model σ)

/-- A prompt with its compiled answer schema. -/
structure PromptCall where
  prompt : Prompt
  schema : Option CompiledSchema

/-- What a node does, ready to be done by a host. -/
inductive Capability (σ : Type) where
  | operation (name : String) (op : Operation σ) (args : Json)
  | code (body : String) (runtime : CodeRuntime σ)
  | prompt (call : PromptCall) (model : Model σ)

/-- Why a host cannot do what a node does. -/
inductive DispatchError where
  | unknownOperation (name : String)
  | noCodeRuntime
  | noModelProvider
  | invalidSchema

def DispatchError.message : DispatchError → String
  | unknownOperation name => s!"unknown operation '{name}'"
  | noCodeRuntime => "code transform requires a code runtime, none is configured"
  | noModelProvider => "prompt transform requires a model provider, none is configured"
  | invalidSchema => "invalid output schema: not a schema"

inductive InvokeError where
  | invocation (reason : String)
  | outputSchema (reason : String)

namespace InvokeError

def kind : InvokeError → ErrorKind
  | invocation _ => .invocation
  | outputSchema _ => .outputSchema

def message : InvokeError → String
  | invocation reason => reason
  | outputSchema reason => "output schema violation: " ++ reason

end InvokeError

namespace Host

variable {σ : Type}

/-- What a transform is for a host. -/
def resolve (h : Host σ) : Transform → Except DispatchError (Capability σ)
  | .declarative name args =>
    match h.operations.get? name with
    | some op => .ok (.operation name op args)
    | none => .error (.unknownOperation name)
  | .code body =>
    match h.code with
    | some runtime => .ok (.code body runtime)
    | none => .error .noCodeRuntime
  | .prompt p =>
    match h.model with
    | none => .error .noModelProvider
    | some model =>
      match p.schema with
      | none => .ok (.prompt ⟨p, none⟩ model)
      | some v =>
        match CompiledSchema.compile? v with
        | some s => .ok (.prompt ⟨p, some s⟩ model)
        | none => .error .invalidSchema

end Host

def Capability.describe {σ : Type} : Capability σ → String
  | operation name _ _ => s!"Operation({name})"
  | code _ _ => "Code"
  | prompt call _ => s!"Prompt({call.prompt.model})"

end Workflow
