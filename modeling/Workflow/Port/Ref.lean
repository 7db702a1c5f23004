import Workflow.Text.Cut

namespace Workflow

/-- The side of a link: the run's inputs, its outputs, or a node. -/
inductive Endpoint where
  | input
  | output
  | node (id : String)
  deriving DecidableEq, Inhabited

/-- A port as links name it, written `node.port`. -/
structure PortRef where
  endpoint : Endpoint
  port : String
  deriving DecidableEq, Inhabited

namespace Endpoint

def inputName : String := "_input"

def outputName : String := "_output"

def ofName (name : String) : Endpoint :=
  if name = inputName then input else if name = outputName then output else node name

def name : Endpoint → String
  | input => inputName
  | output => outputName
  | node id => id

def nodeId? : Endpoint → Option String
  | node id => some id
  | _ => none

end Endpoint

namespace PortRef

/-- Read `node.port`: one point, with text on both of its sides. -/
def parse? (s : String) : Option PortRef := do
  let (node, port) ← Text.cut? ['.'] s.toList
  if node.isEmpty ∨ port.isEmpty ∨ '.' ∈ port then none
  else some ⟨.ofName (String.ofList node), String.ofList port⟩

def render (r : PortRef) : String := r.endpoint.name ++ "." ++ r.port

def nodeId? (r : PortRef) : Option String := r.endpoint.nodeId?

/-- What is said of a text that is no port reference. -/
def malformed (s : String) : String := s!"'{s}' is not of the form node.port"

end PortRef

end Workflow
