import Workflow.Flow.Basic
import Workflow.Schema.Check

namespace Workflow

/-- A flow made ready to run: the layer of every node, the links into and out of every node and of the
run itself by their places, and the schemas of ports. -/
structure Plan where
  flow : Flow
  layerOf : List Nat
  incoming : List (List Nat)
  outgoing : List (List Nat)
  inputLinks : List Nat
  outputLinks : List Nat
  schemas : List ((Nat × String) × CompiledSchema)

/-- Why a flow cannot be planned. -/
inductive PlanError where
  | unknownNode (link : Nat) (id : String)
  | cycle (id : String)
  | badSchema (node port : String)

def PlanError.message : PlanError → String
  | unknownNode link id => s!"plan error: edge {link} references unknown node '{id}'"
  | cycle id => s!"plan error: cycle detected involving node '{id}'"
  | badSchema node port => s!"plan error: schema of port '{node}.{port}' does not compile: not a schema"

namespace Plan

/-- The places of the links that pass a test, in document order. -/
def linksWhere (f : Flow) (test : Link → Bool) : List Nat :=
  ((List.range f.links.length).zip f.links).filterMap (fun p => if test p.2 then some p.1 else none)

/-- The ids at the ends of a link that no node has. -/
def unknownAt (f : Flow) (e : Endpoint) : List String :=
  (e.nodeId?.filter (fun id => (f.placeOf? id).isNone)).toList

def unknownNodes (f : Flow) : List PlanError :=
  ((List.range f.links.length).zip f.links).flatMap (fun p =>
    (unknownAt f p.2.source.endpoint ++ unknownAt f p.2.target.endpoint).map (.unknownNode p.1))

def cyclicNodes (f : Flow) : List PlanError :=
  (f.graph.cycles.filterMap List.head?).map (fun i => .cycle (f.ids.getD i ""))

/-- The schemas of the ports of a node, or the first port with one that is none. -/
def portSchemas (place : Nat) (id : String) :
    List Port → Except PlanError (List ((Nat × String) × CompiledSchema))
  | [] => .ok []
  | p :: rest =>
    match p.schema with
    | none => portSchemas place id rest
    | some v =>
      match CompiledSchema.compile? v with
      | none => .error (.badSchema id p.name)
      | some s => (portSchemas place id rest).map (fun ss => ((place, p.name), s) :: ss)

/-- The schemas of nodes from a place on. -/
def nodeSchemas (place : Nat) :
    List (String × Node) → Except PlanError (List ((Nat × String) × CompiledSchema))
  | [] => .ok []
  | (id, n) :: rest => do
    let ss ← portSchemas place id n.ports
    let more ← nodeSchemas (place + 1) rest
    return ss ++ more

/-- The plan of a flow. -/
def ofFlow (f : Flow) : Except PlanError Plan :=
  match unknownNodes f ++ cyclicNodes f with
  | e :: _ => .error e
  | [] => do
    let schemas ← nodeSchemas 0 f.nodes
    return {
      flow := f
      layerOf := f.graph.levels
      incoming := (List.range f.nodes.length).map (fun i =>
        linksWhere f (fun l => f.placeAt? l.target.endpoint = some i))
      outgoing := (List.range f.nodes.length).map (fun i =>
        linksWhere f (fun l => f.placeAt? l.source.endpoint = some i))
      inputLinks := linksWhere f (fun l => l.source.endpoint = .input)
      outputLinks := linksWhere f (fun l => l.target.endpoint = .output)
      schemas }

def size (p : Plan) : Nat := p.flow.nodes.length

def layer (p : Plan) (i : Nat) : Nat := p.layerOf.getD i 0

def into (p : Plan) (i : Nat) : List Nat := p.incoming.getD i []

def outOf (p : Plan) (i : Nat) : List Nat := p.outgoing.getD i []

def idOf (p : Plan) (i : Nat) : String := p.flow.ids.getD i ""

def depth (p : Plan) : Nat := p.layerOf.foldl (fun d l => max d (l + 1)) 0

/-- The nodes of every layer, each in document order. -/
def layers (p : Plan) : List (List Nat) :=
  (List.range p.depth).map (fun d => (List.range p.size).filter (fun i => p.layer i = d))

def schema? (p : Plan) (i : Nat) (port : String) : Option CompiledSchema :=
  (p.schemas.find? (fun s => s.1 = (i, port))).map Prod.snd

def layerOf? (p : Plan) (id : String) : Option Nat := (p.flow.placeOf? id).map p.layer

/-- Every node that another one needs, directly or not, sorted. -/
def dependencies (p : Plan) (id : String) : List String :=
  match p.flow.placeOf? id with
  | some i => ((p.flow.graph.ancestors i).map p.idOf).mergeSort (fun a b => a ≤ b)
  | none => []

end Plan

end Workflow
