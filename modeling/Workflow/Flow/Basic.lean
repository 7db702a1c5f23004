import Workflow.Document.Basic
import Workflow.Graph
import Workflow.Port.Coercion
import Workflow.Port.Ref

namespace Workflow

/-- A link of a checked flow: its two ends and the coercion on the way. -/
structure Link where
  source : PortRef
  target : PortRef
  condition : Option String
  transform : Option String
  coercion : Coercion
  deriving DecidableEq

/-- A checked workflow. -/
structure Flow where
  version : String
  metadata : Assoc Json
  requires : List String
  nodes : List (String × Node)
  links : List Link
  deployment : Option Json

namespace Link

def spec (l : Link) : LinkSpec where
  source := l.source.render
  target := l.target.render
  condition := l.condition
  transform := l.transform

/-- A link as messages name it, with its place in the document. -/
def describe (l : Link) (place : Nat) : String :=
  s!"edge {place} ({l.source.render} -> {l.target.render})"

end Link

namespace Flow

/-- The name in the metadata, or `flow`. -/
def name (f : Flow) : String := ((f.metadata.get? "name").bind Json.asString?).getD "flow"

def ids (f : Flow) : List String := f.nodes.map Prod.fst

/-- The place of a node in document order. -/
def placeOf? (f : Flow) (id : String) : Option Nat := f.ids.findIdx? (· = id)

def node? (f : Flow) (id : String) : Option Node :=
  (f.nodes.find? (fun e => e.1 = id)).map Prod.snd

/-- The place of the node at an end of a link. -/
def placeAt? (f : Flow) (e : Endpoint) : Option Nat := e.nodeId?.bind f.placeOf?

/-- The links from node to node, between their places. -/
def graph (f : Flow) : Graph where
  size := f.nodes.length
  arcs := f.links.filterMap (fun l =>
    match f.placeAt? l.source.endpoint, f.placeAt? l.target.endpoint with
    | some i, some j => some (i, j)
    | _, _ => none)

/-- The document that a flow is checked from. -/
def toDocument (f : Flow) : Document where
  version := f.version
  metadata := f.metadata
  requires := f.requires
  nodes := f.nodes
  links := f.links.map Link.spec
  deployment := f.deployment

end Flow

end Workflow
