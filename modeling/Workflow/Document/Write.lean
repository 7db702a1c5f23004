import Workflow.Document.Basic
import Workflow.Json.Printer
import Workflow.Tree

namespace Workflow

/-- A member that is left out when there is nothing to say. -/
def member? (name : String) (v : Option Json) : List (String × Json) :=
  match v with
  | some v => [(name, v)]
  | none => []

def Port.toJson (p : Port) : Json :=
  .ofFields ([("name", .str p.name), ("type", .str p.kind.name), ("optional", .bool p.optional)]
    ++ member? "validation_schema" p.schema)

def Fallback.toJson : Fallback → Json
  | raise => .ofFields [("policy", .str "raise")]
  | model ref => .ofFields [("policy", .str "model"), ("model_ref", .str ref)]
  | static response => .ofFields [("policy", .str "static"), ("response", response)]

def Transform.toJson : Transform → Json
  | declarative operation args =>
    .ofFields [("kind", .str "declarative"), ("op_name", .str operation), ("args", args)]
  | code body => .ofFields [("kind", .str "code"), ("body", .str body)]
  | prompt p =>
    .ofFields ([("kind", .str "prompt"), ("template", .str p.template), ("model_ref", .str p.model),
      ("fallback", p.fallback.toJson)]
      ++ member? "system" (p.system.map .str) ++ member? "output_schema" p.schema)

def RuntimePolicy.toJson (p : RuntimePolicy) : Json :=
  .ofFields ([("timeout_ms", .ofNat p.timeoutMs), ("retries", .ofNat p.retries),
    ("retry_backoff_ms", .ofNat p.backoffMs)]
    ++ member? "max_concurrency" (p.maxConcurrency.map .ofNat)
    ++ member? "required_context_fields"
      (if p.requiredFields.isEmpty then none else some (.strings p.requiredFields)))

def StateConfig.toJson (s : StateConfig) : Json :=
  .ofFields ([("scope", .str s.scope.name), ("key_template", .str s.keyTemplate)]
    ++ member? "ttl_secs" (s.ttlSecs.map .ofNat) ++ member? "backend_ref" (s.backend.map .str))

def Node.toJson (n : Node) : Json :=
  .ofFields ([("input_ports", .arr (n.inputs.map Port.toJson)),
    ("output_ports", .arr (n.outputs.map Port.toJson)), ("transform", n.transform.toJson),
    ("runtime_policy", n.policy.toJson)]
    ++ member? "error_port" (n.errorPort.map Port.toJson)
    ++ member? "state_config" (n.state.map StateConfig.toJson))

def LinkSpec.toJson (l : LinkSpec) : Json :=
  .ofFields ([("from", .str l.source), ("to", .str l.target)]
    ++ member? "condition" (l.condition.map .str) ++ member? "inline_transform" (l.transform.map .str))

namespace Tree

mutual

def compact : Tree → String
  | scalar .null => Json.null.compact
  | scalar (.bool b) => (Json.bool b).compact
  | scalar (.int n) => (Json.int n).compact
  | scalar (.float x) => (Json.float x).compact
  | scalar (.text s) => Json.quote s
  | scalar (.written s _ _) => Json.quote s
  | list _ items => "[" ++ compactItems items ++ "]"
  | map _ entries => "\x7b" ++ compactEntries entries ++ "\x7d"

def compactItems : List Tree → String
  | [] => ""
  | [t] => compact t
  | t :: rest => compact t ++ "," ++ compactItems rest

def compactEntries : List (Tree × Tree) → String
  | [] => ""
  | [(k, t)] => compact k ++ ":" ++ compact t
  | (k, t) :: rest => compact k ++ ":" ++ compact t ++ "," ++ compactEntries rest

end

end Tree

namespace Document

def entry (name : String) (t : Tree) : Tree × Tree := (.scalar (.text name), t)

/-- The tree of a document. Nodes keep their order; metadata and deployment are left out when there
is nothing in them. -/
def toTree (d : Document) : Tree :=
  .map none (
    [entry "version" (.scalar (.text d.version))]
    ++ (if d.metadata.isEmpty then [] else [entry "metadata" (.ofJson (.obj d.metadata))])
    ++ [entry "context" (.ofJson (.obj [("requires", .strings d.requires)])),
      entry "nodes" (.map none (d.nodes.map (fun e => entry e.1 (.ofJson e.2.toJson)))),
      entry "edges" (.list none (d.links.map (fun l => .ofJson l.toJson)))]
    ++ (match d.deployment with
      | some v => [entry "deployment" (.ofJson v)]
      | none => []))

end Document

end Workflow
