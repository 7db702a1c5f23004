import Workflow.Document.Basic
import Workflow.Number.Word
import Workflow.Tree.Resolve

namespace Workflow

/-- The two written forms of documents. In JSON a record may also be a list of its members in order,
and a name an object with that one member. -/
inductive Format where
  | json
  | yaml
  deriving DecidableEq

namespace Tree

open Scalar

def isBlank : Tree → Bool
  | scalar (.written s style _) => s.isEmpty && style = .bare
  | _ => false

def asBool? : Tree → Option Bool
  | scalar (.bool b) => some b
  | scalar (.written s style tag) =>
    if style = .bare ∨ (style = .block ∧ tag = some boolTag) then boolWord? s else none
  | _ => none

def asNat? (limit : Nat) (t : Tree) : Option Nat := do
  let n ←
    match t with
    | scalar (.int n) => if 0 ≤ n then some n.toNat else none
    | scalar (.written s style tag) =>
      if style = .bare ∨ (style = .block ∧ tag = some intTag) then nat? s else none
    | _ => none
  if n < limit then some n else none

def asFloat? : Tree → Option Float
  | scalar (.int n) => some (Float.ofInt n)
  | scalar (.float x) => some x
  | scalar (.written s style tag) =>
    if style = .bare ∨ (style = .block ∧ tag = some floatTag) then floatWord? s else none
  | _ => none

/-- Whether a value that may be left out is there; nothing when a null tag stands before other text. -/
def isPresent? : Tree → Option Bool
  | scalar .null => some false
  | scalar (.written s style tag) =>
    if style ≠ .bare then some true
    else
      match tag with
      | none => some (¬ s.isEmpty ∧ ¬ isNullWord s)
      | some t => if t = nullTag then if isNullWord s then some false else none else some true
  | _ => some true

def asList? (t : Tree) : Option (List Tree) :=
  match t with
  | list _ items => some items
  | _ => if t.isBlank then some [] else none

def asMap? (t : Tree) : Option (List (Tree × Tree)) :=
  match t with
  | map _ entries => some entries
  | _ => if t.isBlank then some [] else none

def asName? (f : Format) : Tree → Option String
  | scalar (.text s) => some s
  | scalar (.written s style tag) =>
    match ownTag? tag with
    | none => some s
    | some name => if style = .bare ∧ (s.isEmpty ∨ isNullWord s) then some name else none
  | map _ [(k, v)] =>
    match f, k, v with
    | .json, scalar (.text s), scalar .null => some s
    | _, _, _ => none
  | _ => none

/-- The name of a member: a number stands for the member at that place. -/
def memberName? (names : List String) : Tree → Option String
  | scalar (.int n) => if 0 ≤ n then some (names.getD n.toNat "") else none
  | t => t.asText?

def addMember (names : List String) (found : Assoc Tree) (e : Tree × Tree) : Option (Assoc Tree) := do
  let name ← memberName? names e.1
  if name ∈ names then if found.contains name then none else some (found.insert name e.2)
  else some found

/-- The members of a record by name. Unknown members do not count, repeated ones are refused. -/
def asRecord? (f : Format) (names : List String) (t : Tree) : Option (Assoc Tree) :=
  match f, t with
  | .json, list _ items =>
    if items.length ≤ names.length then (names.zip items).foldlM (fun r e => some (r.insert e.1 e.2)) []
    else none
  | _, _ => do
    let entries ← t.asMap?
    entries.foldlM (addMember names) []

/-- A member that must be there. -/
def need (r : Assoc Tree) (name : String) (read : Tree → Option α) : Option α := do
  read (← r.get? name)

/-- A member that may be left out, but not null. -/
def orElse (r : Assoc Tree) (name : String) (default : α) (read : Tree → Option α) : Option α :=
  match r.get? name with
  | none => some default
  | some t => read t

/-- A member that may be left out or null. -/
def optional? (r : Assoc Tree) (name : String) (read : Tree → Option α) : Option (Option α) :=
  match r.get? name with
  | none => some none
  | some t => do
    if ← t.isPresent? then (read t).map some else some none

def eachOf (read : Tree → Option α) (t : Tree) : Option (List α) := do
  (← t.asList?).mapM read

/-- Texts in increasing order, each once. -/
def asTextSet? (t : Tree) : Option (List String) := do
  let names ← eachOf asText? t
  some (Assoc.ofList (names.map (fun s => (s, ())))).keys

end Tree

open Workflow.Tree

def Port.read? (f : Format) (t : Tree) : Option Port := do
  let r ← t.asRecord? f ["name", "type", "optional", "validation_schema"]
  some {
    name := ← need r "name" asText?
    kind := ← need r "type" (fun t => (asName? f t).bind PortKind.ofName?)
    optional := ← orElse r "optional" false asBool?
    schema := ← optional? r "validation_schema" toJson? }

/-- A choice between shapes, told apart by a member `tag` or, in a list, by the first item. -/
def Tree.asChoice? (tag : String) : Tree → Option (Tree × Tree)
  | list _ (choice :: rest) => some (choice, list none rest)
  | map _ entries =>
    match entries.partition (fun e => e.1.asText? = some tag) with
    | ([(_, choice)], rest) => some (choice, map none rest)
    | _ => none
  | _ => none

/-- The chosen name out of `names`, which inside a choice may also be given by its place. -/
def Tree.asChoiceName? (names : List String) : Tree → Option String
  | scalar (.text s) => if s ∈ names then some s else none
  | scalar (.int n) => if 0 ≤ n then names[n.toNat]? else none
  | _ => none

def Fallback.read? (t : Tree) : Option Fallback := do
  let (choice, body) ← t.asChoice? "policy"
  match ← choice.asChoiceName? ["raise", "model", "static"] with
  | "raise" => some .raise
  | "model" => do
    let r ← body.asRecord? .json ["model_ref"]
    some (.model (← need r "model_ref" asText?))
  | _ => do
    let r ← body.asRecord? .json ["response"]
    some (.static (← need r "response" toJson?))

def Prompt.read? (body : Tree) : Option Prompt := do
  let r ← body.asRecord? .json ["template", "system", "model_ref", "output_schema", "fallback"]
  some {
    template := ← need r "template" asText?
    system := ← optional? r "system" asText?
    model := ← need r "model_ref" asText?
    schema := ← optional? r "output_schema" toJson?
    fallback := ← orElse r "fallback" .raise Fallback.read? }

/-- What a node does. All scalars inside are resolved first, so that bare numbers are no text here. -/
def Transform.read? (t : Tree) : Option Transform := do
  let (choice, body) ← (← t.resolve?).asChoice? "kind"
  match ← choice.asText? with
  | "declarative" => do
    let r ← body.asRecord? .json ["op_name", "args"]
    some (.declarative (← need r "op_name" asText?) (← orElse r "args" .null toJson?))
  | "code" => do
    let r ← body.asRecord? .json ["body"]
    some (.code (← need r "body" asText?))
  | "prompt" => (Prompt.read? body).map .prompt
  | _ => none

def RuntimePolicy.read? (f : Format) (t : Tree) : Option RuntimePolicy := do
  let r ← t.asRecord? f
    ["timeout_ms", "retries", "retry_backoff_ms", "max_concurrency", "required_context_fields"]
  some {
    timeoutMs := ← orElse r "timeout_ms" 30000 (asNat? Number.word64)
    retries := ← orElse r "retries" 1 (asNat? Number.word32)
    backoffMs := ← orElse r "retry_backoff_ms" 1000 (asNat? Number.word64)
    maxConcurrency := ← optional? r "max_concurrency" (asNat? Number.word32)
    requiredFields := ← orElse r "required_context_fields" [] asTextSet? }

def StateScope.ofName? (s : String) : Option StateScope :=
  if s = "request" then some .request else if s = "session" then some .session else none

/-- The key template of a state that names none: the id of its node. -/
def StateConfig.defaultKeyTemplate : String := "\x7bnode_id\x7d"

def StateConfig.read? (f : Format) (t : Tree) : Option StateConfig := do
  let r ← t.asRecord? f ["scope", "key_template", "ttl_secs", "backend_ref"]
  some {
    scope := ← need r "scope" (fun t => (asName? f t).bind StateScope.ofName?)
    keyTemplate := ← orElse r "key_template" StateConfig.defaultKeyTemplate asText?
    ttlSecs := ← optional? r "ttl_secs" (asNat? Number.word64)
    backend := ← optional? r "backend_ref" asText? }

def Node.read? (f : Format) (t : Tree) : Option Node := do
  let r ← t.asRecord? f
    ["input_ports", "output_ports", "error_port", "transform", "runtime_policy", "state_config"]
  some {
    inputs := ← orElse r "input_ports" [] (eachOf (Port.read? f))
    outputs := ← orElse r "output_ports" [] (eachOf (Port.read? f))
    errorPort := ← optional? r "error_port" (Port.read? f)
    transform := ← need r "transform" Transform.read?
    policy := ← orElse r "runtime_policy" {} (RuntimePolicy.read? f)
    state := ← optional? r "state_config" (StateConfig.read? f) }

def LinkSpec.read? (f : Format) (t : Tree) : Option LinkSpec := do
  let r ← t.asRecord? f ["from", "to", "condition", "inline_transform"]
  some {
    source := ← need r "from" asText?
    target := ← need r "to" asText?
    condition := ← optional? r "condition" asText?
    transform := ← optional? r "inline_transform" asText? }

namespace Document

def readNodes? (f : Format) (t : Tree) : Option (List (String × Node)) := do
  (← t.asMap?).mapM (fun e => do
    let id ← e.1.asText?
    let node ← Node.read? f e.2
    some (id, node))

def readRequires? (f : Format) (t : Tree) : Option (List String) := do
  let r ← t.asRecord? f ["requires"]
  orElse r "requires" [] asTextSet?

def readMetadata? (t : Tree) : Option (Assoc Json) := do
  let fields ← entriesToJson? (← t.asMap?)
  some (Assoc.ofList fields)

def read? (f : Format) (t : Tree) : Option Document := do
  let r ← t.asRecord? f ["version", "metadata", "context", "nodes", "edges", "deployment"]
  some {
    version := ← need r "version" asText?
    metadata := ← orElse r "metadata" [] readMetadata?
    requires := ← orElse r "context" [] (readRequires? f)
    nodes := ← orElse r "nodes" [] (readNodes? f)
    links := ← orElse r "edges" [] (eachOf (LinkSpec.read? f))
    deployment := ← optional? r "deployment" toJson? }

end Document

end Workflow
