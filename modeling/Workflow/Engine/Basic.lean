import Workflow.Capability.Invoke
import Workflow.Config
import Workflow.Plan
import Workflow.Run.Report

namespace Workflow

/-- A request for a run: inputs, the fields of its context, and a time limit of its own. -/
structure Request where
  inputs : Inputs := []
  fields : Assoc Json := []
  deadlineMs : Option Nat := none

/-- What runs flows: a host, a configuration, and what stands in contexts by default. An attempt of a
transform rests at most `rests` times. -/
structure Engine (μ : Type) where
  host : Host (World μ)
  config : Config
  defaults : Context.Defaults
  rests : Transform → Nat

inductive StartError where
  | plan (e : PlanError)
  | dispatch (node : String) (e : DispatchError)
  | context (e : ContextError)

def StartError.message : StartError → String
  | plan e => e.message
  | dispatch node e => s!"node '{node}': {e.message}"
  | context e => "context error: " ++ e.message

/-- What a node does with its inputs and its state in one attempt. -/
abbrev Work (μ : Type) := Inputs → Option Slot → Activity (World μ) (Except InvokeError Json)

/-- A run ready to start: for every node its work, which acts in the context of the run. -/
structure Prepared (μ : Type) where
  plan : Plan
  work : List (Work μ)
  context : Context
  inputs : Inputs
  deadlineMs : Option Nat

namespace Engine

variable {μ : Type}

/-- The capabilities of nodes in order; the first that cannot be resolved is reported. -/
def resolveNodes (h : Host (World μ)) :
    List (String × Node) → Except (String × DispatchError) (List (Capability (World μ)))
  | [] => .ok []
  | (id, n) :: rest => do
    let c ← (h.resolve n.transform).mapError (fun e => (id, e))
    let cs ← resolveNodes h rest
    return c :: cs

def resolve (e : Engine μ) (p : Plan) : Except StartError (List (Capability (World μ))) :=
  (resolveNodes e.host p.flow.nodes).mapError (fun f => .dispatch f.1 f.2)

def workIn (ctx : Context) (cs : List (Capability (World μ))) : List (Work μ) :=
  cs.map (fun c inputs slot => c.invoke inputs ctx slot)

def prepare (e : Engine μ) (f : Flow) (request : Request) : Except StartError (Prepared μ) := do
  let ctx ← (Context.ofFields e.defaults request.fields).mapError .context
  (ctx.require f.requires).mapError .context
  let plan ← (Plan.ofFlow f).mapError .plan
  let capabilities ← e.resolve plan
  return ⟨plan, workIn ctx capabilities, ctx, request.inputs,
    request.deadlineMs.or e.config.timeoutMs⟩

def notStarted (ctx : Context) (err : RunError) : Report :=
  ⟨ctx.traceId, .failed, [], [], some err, []⟩

/-- Make a run of a plan in a context ready; what stops it is told in a report. -/
def preparePlan (e : Engine μ) (p : Plan) (ctx : Context) (inputs : Inputs) :
    Except Report (Prepared μ) :=
  match ctx.require p.flow.requires with
  | .error err => .error (notStarted ctx (.ofRun .missingInput err.message))
  | .ok _ =>
    match resolveNodes e.host p.flow.nodes with
    | .error (id, err) => .error (notStarted ctx ⟨some id, .invocation, 0, err.message⟩)
    | .ok capabilities =>
      .ok ⟨p, workIn ctx capabilities, ctx, inputs, e.config.timeoutMs⟩

end Engine

end Workflow
