import Workflow.Flow.Basic
import Workflow.Flow.Issue
import Workflow.Schema.Check
import Workflow.Template.Key

namespace Workflow.Flow

/-- Major version 1, and groups of digits after it. -/
def isSupportedVersion (version : String) : Bool :=
  match Text.split '.' version.toList with
  | ['1'] :: groups => groups.all (fun g => !g.isEmpty && g.all Char.isDigit)
  | _ => false

/-- A lower-case letter, then lower-case letters, digits and underscores. -/
def isNodeId (id : String) : Bool :=
  match id.toList with
  | c :: rest => c.isLower && rest.all (fun c => c.isLower || c.isDigit || c = '_')
  | [] => false

def policyIssues (id : String) (p : RuntimePolicy) : List Issue :=
  (if p.retries < 1 then [.invalidPolicy id .noAttempt] else [])
  ++ (if p.timeoutMs = 0 then [.invalidPolicy id .noTime] else [])
  ++ (if p.maxConcurrency = some 0 then [.invalidPolicy id .noConcurrency] else [])

def isSchema (v : Json) : Bool := (CompiledSchema.compile? v).isSome

/-- The issues of ports, given the names of the ports before them. -/
def portIssues (id : String) : List String → List Port → List Issue
  | _, [] => []
  | seen, p :: rest =>
    (if p.name ∈ seen then [.duplicatePort id p.name] else [])
    ++ (if p.schema.all isSchema then [] else [.invalidSchema id p.name])
    ++ portIssues id (seen ++ [p.name]) rest

def answerIssues (id : String) : Transform → List Issue
  | .prompt p => if p.schema.all isSchema then [] else [.invalidSchema id "output_schema"]
  | _ => []

def errorPortIssues (id : String) : Option Port → List Issue
  | some p => if p.kind = .object ∨ p.kind = .string then [] else [.invalidErrorPort id p.kind]
  | none => []

def requirementIssues (id : String) (requires fields : List String) : List Issue :=
  (fields.filter (fun field => field ∉ requires)).map (.missingRequirement id)

/-- Whether a key template may name a variable: an id, an input port, or a raw field. -/
def isKeyVariable (n : Node) (name : String) : Bool :=
  name ∈ ["node_id", "user_id", "session_id", "trace_id"]
  || match Template.after? "inputs." name with
    | some port => (n.inputPort? port).isSome
    | none => (Template.after? "raw." name).any (· ≠ "")

def stateIssues (id : String) (n : Node) (s : StateConfig) : List Issue :=
  let names := Template.variableNames s.keyTemplate
  (if s.scope = .request ∧ s.ttlSecs.isSome then [.ttlOnRequestScope id] else [])
  ++ (if s.scope = .session ∧ s.ttlSecs = some 0 then [.zeroTtl id] else [])
  ++ (names.filter (fun name => !isKeyVariable n name)).map (.unknownKeyVariable id)
  ++ (if s.scope = .session ∧ "session_id" ∉ names then
      [.sessionKeyWithoutSession id s.keyTemplate] else [])

/-- The issues of a node on its own. -/
def nodeIssues (requires : List String) (id : String) (n : Node) : List Issue :=
  policyIssues id n.policy ++ portIssues id [] n.ports ++ answerIssues id n.transform
  ++ errorPortIssues id n.errorPort ++ requirementIssues id requires n.policy.requiredFields
  ++ (n.state.map (stateIssues id n)).getD []

/-- The issues of nodes, given the ids before them. A node whose id is taken is not looked at. -/
def nodesIssues (requires : List String) : List String → List (String × Node) → List Issue
  | _, [] => []
  | seen, (id, n) :: rest =>
    (if isNodeId id then [] else [.invalidNodeId id])
    ++ if id ∈ seen then .duplicateNode id :: nodesIssues requires seen rest
      else nodeIssues requires id n ++ nodesIssues requires (seen ++ [id]) rest

/-- The nodes with the first of every id. -/
def firstNodes : List String → List (String × Node) → List (String × Node)
  | _, [] => []
  | seen, (id, n) :: rest =>
    if id ∈ seen then firstNodes seen rest else (id, n) :: firstNodes (seen ++ [id]) rest

/-- Where a link starts: anywhere but at the outputs of the run. -/
def sourceOf (text : String) : Except LinkFault PortRef :=
  match PortRef.parse? text with
  | none => .error (.malformed text)
  | some r => if r.endpoint = .output then .error (.fromOutput text) else .ok r

/-- Where a link ends: anywhere but at the inputs of the run. -/
def targetOf (text : String) : Except LinkFault PortRef :=
  match PortRef.parse? text with
  | none => .error (.malformed text)
  | some r => if r.endpoint = .input then .error (.toInput text) else .ok r

def faultIssues (place : Nat) : Except LinkFault PortRef → List Issue
  | .ok _ => []
  | .error fault => [.invalidLink place fault]

/-- The kind of the port at an end of a link; no kind on the run's own side. -/
def kindAt (nodes : List (String × Node)) (place : Nat) (asSource : Bool) (r : PortRef) :
    Except Issue (Option PortKind) :=
  match r.nodeId? with
  | none => .ok none
  | some id =>
    match nodes.find? (fun e => e.1 = id) with
    | none => .error (.unknownNode place id)
    | some (_, n) =>
      match if asSource then n.outputPort? r.port else n.inputPort? r.port with
      | some p => .ok (some p.kind)
      | none => .error (.unknownPort place id r.port asSource)

/-- The coercion along a link, or what is wrong with its ends. Values that come from or go to the run
itself stay as they are. -/
def coercionOf (nodes : List (String × Node)) (place : Nat) (source target : PortRef) :
    Except (List Issue) Coercion :=
  match kindAt nodes place true source, kindAt nodes place false target with
  | .ok (some k), .ok (some l) =>
    match k.coercionTo l with
    | some c => .ok c
    | none => .error [.kindMismatch place source.render k target.render l]
  | .ok _, .ok _ => .ok .identity
  | .error e, .ok _ => .error [e]
  | .ok _, .error e => .error [e]
  | .error e, .error e' => .error [e, e']

def duplicateIssues (before : List LinkSpec) (spec : LinkSpec) : List Issue :=
  match before.findIdx? (· = spec) with
  | some first => [.duplicateLink before.length first]
  | none => []

def linkIssues (nodes : List (String × Node)) (before : List LinkSpec) (spec : LinkSpec) :
    List Issue :=
  let source := sourceOf spec.source
  let target := targetOf spec.target
  duplicateIssues before spec
  ++ faultIssues before.length source ++ faultIssues before.length target
  ++ match source, target with
    | .ok s, .ok t =>
      match coercionOf nodes before.length s t with
      | .ok _ => []
      | .error issues => issues
    | _, _ => []

/-- The issues of links, given those before them. -/
def linksIssues (nodes : List (String × Node)) : List LinkSpec → List LinkSpec → List Issue
  | _, [] => []
  | before, spec :: rest =>
    linkIssues nodes before spec ++ linksIssues nodes (before ++ [spec]) rest

/-- The link that a text stands for when there is nothing wrong with it. -/
def linkOf? (nodes : List (String × Node)) (spec : LinkSpec) : Option Link :=
  match sourceOf spec.source, targetOf spec.target with
  | .ok source, .ok target =>
    match coercionOf nodes 0 source target with
    | .ok c => some ⟨source, target, spec.condition, spec.transform, c⟩
    | .error _ => none
  | _, _ => none

/-- Whether some link ends at a port. -/
def isWired (specs : List LinkSpec) (id port : String) : Bool :=
  specs.any (fun spec =>
    match targetOf spec.target with
    | .ok t => t.endpoint = .node id && t.port = port
    | .error _ => false)

def unwiredIssues (nodes : List (String × Node)) (specs : List LinkSpec) : List Issue :=
  nodes.flatMap (fun e =>
    (e.2.inputs.filter (fun p => !p.optional && !isWired specs e.1 p.name)).map
      (fun p => .unwiredInput e.1 p.name))

/-- The nodes that a link joins, by their places. -/
def arcOf? (nodes : List (String × Node)) (spec : LinkSpec) : Option (Nat × Nat) :=
  match sourceOf spec.source, targetOf spec.target with
  | .ok s, .ok t => do
    let i ← (← s.nodeId?) |> fun id => nodes.findIdx? (fun e => e.1 = id)
    let j ← (← t.nodeId?) |> fun id => nodes.findIdx? (fun e => e.1 = id)
    some (i, j)
  | _, _ => none

def lexLe (a b : List String) : Bool := !decide (b < a)

/-- The ids on each cycle, sorted, and the cycles sorted. -/
def cyclesOf (ids : List String) (g : Graph) : List (List String) :=
  (g.cycles.map (fun c => (c.map (fun i => ids.getD i "")).mergeSort (fun a b => a ≤ b))).mergeSort
    lexLe

def cycleIssues (nodes : List (String × Node)) (specs : List LinkSpec) : List Issue :=
  (cyclesOf (nodes.map Prod.fst) ⟨nodes.length, specs.filterMap (arcOf? nodes)⟩).map .cycle

/-- Everything that is wrong with a document. -/
def issues (d : Document) : List Issue :=
  let nodes := firstNodes [] d.nodes
  (if isSupportedVersion d.version then [] else [.unsupportedVersion d.version])
  ++ nodesIssues d.requires [] d.nodes
  ++ linksIssues nodes [] d.links
  ++ unwiredIssues nodes d.links
  ++ cycleIssues nodes d.links

/-- The flow of a document, or everything that is wrong with it. -/
def validate (d : Document) : Except (List Issue) Flow :=
  match issues d with
  | [] =>
    .ok {
      version := d.version
      metadata := d.metadata
      requires := d.requires
      nodes := d.nodes
      links := d.links.filterMap (linkOf? d.nodes)
      deployment := d.deployment }
  | found => .error found

end Workflow.Flow
