import Mathlib.Data.List.Forall2
import Mathlib.Logic.Relation
import Workflow.Flow.Validate

namespace Workflow

/-- Version `1`, and groups of digits after it, each with a point before it. -/
def IsVersion (version : String) : Prop :=
  ∃ groups : List (List Char), version.toList = '1' :: groups.flatMap ('.' :: ·) ∧
    ∀ g ∈ groups, g ≠ [] ∧ ∀ c ∈ g, '0' ≤ c ∧ c ≤ '9'

/-- A lower-case letter, then lower-case letters, digits and underscores. -/
def IsNodeId (id : String) : Prop :=
  ∃ c rest, id.toList = c :: rest ∧ ('a' ≤ c ∧ c ≤ 'z') ∧
    ∀ d ∈ rest, ('a' ≤ d ∧ d ≤ 'z') ∨ ('0' ≤ d ∧ d ≤ '9') ∨ d = '_'

def IsSchema (v : Json) : Prop := ∃ s, CompiledSchema.compile? v = some s

/-- The names that a key template of a node may contain. -/
inductive KeyVariable (n : Node) : String → Prop where
  | id {name : String} (h : name ∈ ["node_id", "user_id", "session_id", "trace_id"]) :
      KeyVariable n name
  | input {p : Port} (h : p ∈ n.inputs) : KeyVariable n ("inputs." ++ p.name)
  | raw {field : String} (h : field ≠ "") : KeyVariable n ("raw." ++ field)

/-- A state has a time to live only in a session, and then a positive one; its key names known
variables, and the session when it belongs to one. -/
structure StateConfig.Fits (n : Node) (s : StateConfig) : Prop where
  request_ttl : s.scope = .request → s.ttlSecs = none
  session_ttl : s.scope = .session → s.ttlSecs ≠ some 0
  known : ∀ name ∈ Template.variableNames s.keyTemplate, KeyVariable n name
  session_key : s.scope = .session → "session_id" ∈ Template.variableNames s.keyTemplate

/-- What a node has to fulfil on its own. -/
structure Node.Sound (requires : List String) (n : Node) : Prop where
  retries : 1 ≤ n.policy.retries
  timeout : 0 < n.policy.timeoutMs
  concurrency : n.policy.maxConcurrency ≠ some 0
  ports_nodup : (n.ports.map Port.name).Nodup
  schemas : ∀ p ∈ n.ports, ∀ v, p.schema = some v → IsSchema v
  answer : ∀ p, n.transform = .prompt p → ∀ v, p.schema = some v → IsSchema v
  error_kind : ∀ p, n.errorPort = some p → p.kind = .object ∨ p.kind = .string
  required : ∀ field ∈ n.policy.requiredFields, field ∈ requires
  state : ∀ s, n.state = some s → s.Fits n

/-- Where a link may start, and the kind of the port if it is one of a node. -/
inductive StartsAt (nodes : List (String × Node)) : PortRef → Option PortKind → Prop where
  | input (port : String) : StartsAt nodes ⟨.input, port⟩ none
  | node {id : String} {n : Node} {p : Port} (hn : (id, n) ∈ nodes) (hp : p ∈ n.sources) :
      StartsAt nodes ⟨.node id, p.name⟩ (some p.kind)

/-- Where a link may end, and the kind of the port if it is one of a node. -/
inductive EndsAt (nodes : List (String × Node)) : PortRef → Option PortKind → Prop where
  | output (port : String) : EndsAt nodes ⟨.output, port⟩ none
  | node {id : String} {n : Node} {p : Port} (hn : (id, n) ∈ nodes) (hp : p ∈ n.inputs) :
      EndsAt nodes ⟨.node id, p.name⟩ (some p.kind)

theorem StartsAt.endpoint_ne {nodes : List (String × Node)} {r : PortRef} {k : Option PortKind}
    (h : StartsAt nodes r k) : r.endpoint ≠ .output := by
  cases h <;> simp

theorem EndsAt.endpoint_ne {nodes : List (String × Node)} {r : PortRef} {k : Option PortKind}
    (h : EndsAt nodes r k) : r.endpoint ≠ .input := by
  cases h <;> simp

/-- The coercion between two ends of a link; values of the run itself stay as they are. -/
inductive Converts : Option PortKind → Option PortKind → Coercion → Prop where
  | kinds {k l : PortKind} {c : Coercion} (h : k.coercionTo l = some c) :
      Converts (some k) (some l) c
  | fromInput (l : Option PortKind) : Converts none l .identity
  | toOutput (k : Option PortKind) : Converts k none .identity

/-- The link that a written one stands for. -/
structure LinkSpec.Denotes (nodes : List (String × Node)) (spec : LinkSpec) (l : Link) : Prop where
  source : PortRef.parse? spec.source = some l.source
  target : PortRef.parse? spec.target = some l.target
  condition : l.condition = spec.condition
  transform : l.transform = spec.transform
  converts : ∃ k k', StartsAt nodes l.source k ∧ EndsAt nodes l.target k' ∧ Converts k k' l.coercion

namespace Document

/-- Some link leads from one node to another. -/
def Feeds (d : Document) (a b : String) : Prop :=
  ∃ spec ∈ d.links, ∃ p q, PortRef.parse? spec.source = some ⟨.node a, p⟩ ∧
    PortRef.parse? spec.target = some ⟨.node b, q⟩

/-- What a document has to fulfil to be a workflow. -/
structure WellFormed (d : Document) : Prop where
  version : IsVersion d.version
  ids : ∀ e ∈ d.nodes, IsNodeId e.1
  ids_nodup : (d.nodes.map Prod.fst).Nodup
  nodes : ∀ e ∈ d.nodes, e.2.Sound d.requires
  links : ∀ spec ∈ d.links, ∃ l, spec.Denotes d.nodes l
  links_nodup : d.links.Nodup
  wired : ∀ e ∈ d.nodes, ∀ p ∈ e.2.inputs, p.optional = false →
    ∃ spec ∈ d.links, PortRef.parse? spec.target = some ⟨.node e.1, p.name⟩
  acyclic : ∀ id, ¬ Relation.TransGen d.Feeds id id

/-- The flow that a document stands for: the same nodes, and a link for each that is written, in
order. -/
structure Denotes (d : Document) (f : Flow) : Prop where
  version : f.version = d.version
  metadata : f.metadata = d.metadata
  requires : f.requires = d.requires
  nodes : f.nodes = d.nodes
  links : List.Forall₂ (LinkSpec.Denotes d.nodes) d.links f.links
  deployment : f.deployment = d.deployment

end Document

end Workflow
