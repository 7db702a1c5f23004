import Workflow.Context.Timestamp
import Workflow.Json.Printer

namespace Workflow

/-- What a run knows about the request that started it. The raw fields hold everything that came
with the request except the token. -/
structure Context where
  userId : Option String
  sessionId : Option String
  traceId : String
  eventTime : String
  authToken : Option String
  raw : Assoc Json

inductive FieldFault where
  | notString (v : Json)
  | notTime

inductive ContextError where
  | invalidField (field : String) (fault : FieldFault)
  | missingField (field : String)
  | unresolvedVariable (name : String)

namespace ContextError

def message : ContextError → String
  | invalidField field (.notString v) =>
    s!"context field '{field}' is invalid: expected a string, got {v.compact}"
  | invalidField field .notTime => s!"context field '{field}' is invalid: not a time"
  | missingField field => s!"required context field '{field}' is missing"
  | unresolvedVariable name => s!"key template variable '{name}' has no value"

end ContextError

namespace Context

/-- What stands in a context for a trace id and a time that the request does not give. -/
structure Defaults where
  traceId : String
  eventTime : String

/-- A field that holds text when it is there and not null. -/
def stringField (fields : Assoc Json) (name : String) : Except ContextError (Option String) :=
  match fields.get? name with
  | none => .ok none
  | some .null => .ok none
  | some (.str s) => .ok (some s)
  | some v => .error (.invalidField name (.notString v))

def timeField (fields : Assoc Json) (name : String) : Except ContextError (Option String) := do
  match ← stringField fields name with
  | none => return none
  | some s =>
    match Timestamp.parse? s with
    | some t => return some t.render
    | none => throw (.invalidField name .notTime)

/-- The context of the fields of a request. The first field that cannot be used is reported. -/
def ofFields (defaults : Defaults) (fields : Assoc Json) : Except ContextError Context := do
  let userId ← stringField fields "user_id"
  let sessionId ← stringField fields "session_id"
  let traceId ← stringField fields "trace_id"
  let eventTime ← timeField fields "event_time"
  let authToken ← stringField fields "auth_token"
  return {
    userId, sessionId, authToken
    traceId := traceId.getD defaults.traceId
    eventTime := eventTime.getD defaults.eventTime
    raw := fields.erase "auth_token" }

def hasField (ctx : Context) (name : String) : Bool :=
  if name = "user_id" then ctx.userId.isSome
  else if name = "session_id" then ctx.sessionId.isSome
  else if name = "trace_id" ∨ name = "event_time" then true
  else if name = "auth_token" then ctx.authToken.isSome
  else (ctx.raw.get? name).any (fun v => ¬ v.isNull)

/-- The first of the needed fields that has no value is reported. -/
def require (ctx : Context) : List String → Except ContextError Unit
  | [] => .ok ()
  | name :: rest => if ctx.hasField name then ctx.require rest else .error (.missingField name)

/-- What expressions and templates see of a context. -/
def view (ctx : Context) : Json :=
  .obj [("event_time", .str ctx.eventTime), ("raw", .obj ctx.raw),
    ("session_id", .ofOption (ctx.sessionId.map .str)), ("trace_id", .str ctx.traceId),
    ("user_id", .ofOption (ctx.userId.map .str))]

end Context

end Workflow
