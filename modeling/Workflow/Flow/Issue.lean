import Workflow.Port.Kind

namespace Workflow

/-- Which bound of a runtime policy is broken. -/
inductive PolicyFault where
  | noAttempt
  | noTime
  | noConcurrency
  deriving DecidableEq

/-- Why a link has no usable end. -/
inductive LinkFault where
  | malformed (text : String)
  | fromOutput (text : String)
  | toInput (text : String)
  deriving DecidableEq

/-- What is wrong with a document. Links are named by their place. -/
inductive Issue where
  | unreadable
  | unsupportedVersion (version : String)
  | invalidNodeId (id : String)
  | duplicateNode (id : String)
  | duplicatePort (node port : String)
  | invalidLink (link : Nat) (fault : LinkFault)
  | unknownNode (link : Nat) (node : String)
  | unknownPort (link : Nat) (node port : String) (asSource : Bool)
  | kindMismatch (link : Nat) (source : String) (sourceKind : PortKind) (target : String)
      (targetKind : PortKind)
  | duplicateLink (link first : Nat)
  | unwiredInput (node port : String)
  | cycle (nodes : List String)
  | missingRequirement (node field : String)
  | sessionKeyWithoutSession (node template : String)
  | unknownKeyVariable (node variableName : String)
  | ttlOnRequestScope (node : String)
  | zeroTtl (node : String)
  | invalidPolicy (node : String) (fault : PolicyFault)
  | invalidSchema (node port : String)
  | invalidErrorPort (node : String) (kind : PortKind)
  deriving DecidableEq

def PolicyFault.message : PolicyFault → String
  | noAttempt => "retries must be at least 1"
  | noTime => "timeout_ms must be greater than 0"
  | noConcurrency => "max_concurrency must be at least 1"

def LinkFault.message : LinkFault → String
  | malformed text => s!"'{text}' is not of the form node.port"
  | fromOutput text => s!"'{text}' cannot be an edge source"
  | toInput text => s!"'{text}' cannot be an edge target"

def Issue.message : Issue → String
  | unreadable => "parse error: not a workflow document"
  | unsupportedVersion version => s!"unsupported document version '{version}' (expected 1.x)"
  | invalidNodeId id => s!"invalid node id '{id}' (must match [a-z][a-z0-9_]*)"
  | duplicateNode id => s!"duplicate node id '{id}'"
  | duplicatePort node port => s!"node '{node}' declares port '{port}' more than once"
  | invalidLink link fault => s!"edge {link}: {fault.message}"
  | unknownNode link node => s!"edge {link}: unknown node '{node}'"
  | unknownPort link node port asSource =>
    let direction := if asSource then "output" else "input"
    s!"edge {link}: node '{node}' has no {direction} port '{port}'"
  | kindMismatch link source sourceKind target targetKind =>
    s!"edge {link}: cannot connect {source} ({sourceKind.name}) to {target} ({targetKind.name})"
  | duplicateLink link first => s!"edge {link} duplicates edge {first}"
  | unwiredInput node port => s!"required input port '{node}.{port}' has no incoming edge"
  | cycle nodes => "cycle detected involving nodes: " ++ ", ".intercalate nodes
  | missingRequirement node field =>
    s!"node '{node}' requires context field '{field}' not listed in context.requires"
  | sessionKeyWithoutSession node template =>
    s!"node '{node}' uses session scope but key template '{template}' does not reference session_id"
  | unknownKeyVariable node variableName =>
    s!"node '{node}' key template references unknown variable '{variableName}'"
  | ttlOnRequestScope node => s!"node '{node}' sets ttl on request-scoped state"
  | zeroTtl node => s!"node '{node}' sets a zero ttl, so its state would expire on write"
  | invalidPolicy node fault => s!"node '{node}' has invalid runtime policy: {fault.message}"
  | invalidSchema node port => s!"node '{node}' port '{port}' has an invalid schema: not a schema"
  | invalidErrorPort node kind => s!"node '{node}' error port must be object or string, got {kind.name}"

/-- What is said of a document with issues. -/
def Issue.summary (issues : List Issue) : String :=
  s!"invalid flow ({issues.length} error(s)): " ++ "; ".intercalate (issues.map Issue.message)

end Workflow
