import Workflow.Flow.Issue
import Workflow.Json.Printer
import Workflow.Plan
import Workflow.Run.Report
import Workflow.Text.Table

namespace Workflow.Command

def lines (ls : List String) : String := String.join (ls.map (· ++ "\n"))

def json (v : Json) : String := lines [v.pretty 0]

def validJson (f : Flow) : Json :=
  .ofFields [("valid", .bool true), ("name", .str f.name), ("nodes", .ofNat f.nodes.length),
    ("edges", .ofNat f.links.length)]

def validText (f : Flow) : String :=
  lines [s!"  ✓ '{f.name}' is valid ({f.nodes.length} nodes, {f.links.length} edges)"]

def issuesJson (issues : List Issue) : Json :=
  .ofFields [("valid", .bool false), ("errors", .strings (issues.map Issue.message))]

def issuesText (file : String) (issues : List Issue) : String :=
  lines (["", s!"  ✗ {file} has {issues.length} problem(s):"]
    ++ issues.map (fun i => "    - " ++ i.message) ++ [""])

def layerIds (p : Plan) : List (List String) := p.layers.map (fun is => is.map p.idOf)

def planJson (p : Plan) : Json :=
  .ofFields [("name", .str p.flow.name), ("layers", .arr ((layerIds p).map .strings))]

def dependencyText (p : Plan) (id : String) : String :=
  id ++ " <- [" ++ ", ".intercalate (p.dependencies id) ++ "]"

/-- The layers of a plan, and for every node those on which it depends. -/
def planTable (p : Plan) : Text.Table where
  header := ["Layer", "Nodes", "Depends on"]
  rows := ((List.range p.layers.length).zip (layerIds p)).map (fun (depth, ids) =>
    [toString depth, ", ".intercalate ids,
      "\n".intercalate (ids.map (dependencyText p))])

def planText (p : Plan) : String :=
  lines (["", s!"  Plan for '{p.flow.name}'"] ++ (planTable p).lines)

/-- How runs and times are named in reports. -/
structure Naming where
  runId : String
  timeAt : Nat → String

def recordJson (n : Naming) (x : Record) : Json :=
  .ofFields ([("node_id", .str x.nodeId), ("status", .str x.status.name),
      ("attempts", .ofNat x.attempts), ("duration_ms", .ofNat x.durationMs)]
    ++ (x.startedAt.map (fun t => ("started_at", Json.str (n.timeAt t)))).toList
    ++ (x.error.map (fun e => ("error", e.toJson))).toList)

def reportJson (n : Naming) (r : Report) : Json :=
  .ofFields ([("run_id", .str n.runId), ("trace_id", .str r.traceId), ("status", .str r.status.name),
      ("outputs", .obj r.outputs), ("boundary_outputs", .obj r.boundary),
      ("trace", .arr (r.trace.map (recordJson n)))]
    ++ (r.error.map (fun e => ("error", e.toJson))).toList)

def traceTable (r : Report) : Text.Table where
  header := ["Node", "Status", "Attempts", "Duration", "Error"]
  rows := r.trace.map (fun x =>
    [x.nodeId, x.status.name, toString x.attempts, s!"{x.durationMs}ms",
      (x.error.map RunError.message).getD "-"])

def reportText (n : Naming) (flow : String) (r : Report) : String :=
  lines (["", s!"  Run of '{flow}': {r.status.name}", "  Run ID:   " ++ n.runId,
      "  Trace ID: " ++ r.traceId]
    ++ (if r.trace.isEmpty then [] else (traceTable r).lines)
    ++ (if r.boundary.isEmpty then []
      else "  Outputs:" :: r.boundary.map (fun (port, v) => s!"    {port} = {v.compact}"))
    ++ (r.error.map (fun e => "  Error: " ++ e.render)).toList ++ [""])

end Workflow.Command
