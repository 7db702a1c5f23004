import Workflow.Context.Basic
import Workflow.Template.Segment
import Workflow.Text.Blank

namespace Workflow.Template

/-- Variables of a state key stand between single braces. -/
def keyMarks : Marks where
  opening := ['\x7b']
  closing := ['\x7d']

/-- The variable that a hole names, without blanks around it. -/
def variableName (body : List Char) : String := String.ofList (Text.trim body)

/-- The variables in the holes of a text, in order; blank holes name none. -/
def namesIn (cs : List Char) : List String :=
  match h : keyMarks.hole? cs with
  | none => []
  | some (_, body, after) =>
    have := Marks.length_of_hole? h
    if variableName body = "" then namesIn after else variableName body :: namesIn after
termination_by cs.length

def variableNames (template : String) : List String := namesIn template.toList

def after? (start name : String) : Option String :=
  if start.toList.isPrefixOf name.toList then some (String.ofList (name.toList.drop start.length))
  else none

structure KeySource where
  nodeId : String
  context : Context
  inputs : Assoc Json

/-- The text of a variable: an id of the request or the node, an input, or a raw field. -/
def KeySource.value? (s : KeySource) (name : String) : Option String :=
  if name = "node_id" then some s.nodeId
  else if name = "user_id" then s.context.userId
  else if name = "session_id" then s.context.sessionId
  else if name = "trace_id" then some s.context.traceId
  else
    match after? "inputs." name with
    | some port => (s.inputs.get? port).map Json.display
    | none =>
      match after? "raw." name with
      | some field => (s.context.raw.get? field).map Json.display
      | none => none

/-- Add the texts of some variables to a table. The first that has no value is reported. -/
def KeySource.values (s : KeySource) (table : Assoc String) : List String → Except ContextError (Assoc String)
  | [] => .ok table
  | name :: rest =>
    match s.value? name with
    | none => .error (.unresolvedVariable name)
    | some text => s.values (table.insert name text) rest

/-- A text with its holes replaced by what a table has for their variables. A hole is dropped when the table has
nothing for it, as for a blank one. -/
def substitute (table : Assoc String) (cs : List Char) : List Char :=
  match h : keyMarks.hole? cs with
  | none => cs
  | some (before, body, after) =>
    have := Marks.length_of_hole? h
    before ++ (((table.get? (variableName body)).getD "").toList ++ substitute table after)
termination_by cs.length

/-- The state key of a template. Every variable must have a value. -/
def renderKey (s : KeySource) (template : String) : Except ContextError String := do
  let table ← s.values [] (variableNames template)
  return String.ofList (substitute table template.toList)

end Workflow.Template
