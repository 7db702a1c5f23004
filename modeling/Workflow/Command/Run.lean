import Workflow.Capability.Builtin
import Workflow.Command.Assignment
import Workflow.Command.Invocation
import Workflow.Command.Report
import Workflow.Engine.Execute
import Workflow.Flow.Load

namespace Workflow.Command

/-- What a command sees around it: files by their names, databases by their addresses, each with what it holds or
with the causes, in turn, for which it cannot be opened, a fresh trace id, the present time, and how runs and
times are named. -/
structure Surroundings where
  file? : String → Option String
  database : String → Except (List String) TableStore := fun _ => .ok []
  traceId : String
  eventTime : String
  naming : Naming

/-- What a command answers, and for how long it is under way. -/
structure Response where
  status : Nat := 0
  output : String := ""
  errors : String := ""
  elapsedMs : Nat := 0

structure Failure where
  message : String
  causes : List String := []

/-- The lines of a text, further in by as much as a mark before the first of them takes up. -/
def indented (mark text : String) : String :=
  mark ++ ("\n".pushn ' ' mark.length).intercalate (Text.linesOf text)

/-- The number of a cause, in five columns. -/
def numbered (n : Nat) : String :=
  let number := toString n
  "".pushn ' ' (5 - number.length) ++ number ++ ": "

/-- The causes of a failure stand under it, with numbers if there are several. -/
def Failure.text (f : Failure) : String :=
  match f.causes with
  | [] => lines ["Error: " ++ f.message]
  | [cause] => lines ["Error: " ++ f.message, "", "Caused by:", indented "    " cause]
  | causes =>
    lines (["Error: " ++ f.message, "", "Caused by:"] ++
      causes.mapIdx fun n cause => indented (numbered n) cause)

def Failure.response (f : Failure) (output : String) : Response :=
  { status := 1, output, errors := f.text }

/-- The configuration file that is read when none is named. -/
def defaultConfigFile : String := "engine.toml"

/-- Tell whether a document is valid, and everything that is wrong with it. -/
def validate (s : Surroundings) (asJson : Bool) (file : String) : Response :=
  match Flow.load file (s.file? file) with
  | .ok f => { output := if asJson then json (validJson f) else validText f }
  | .error (.invalid issues) =>
    Failure.response ⟨s!"validation failed with {issues.length} error(s)", []⟩
      (if asJson then json (issuesJson issues) else issuesText file issues)
  | .error e => Failure.response ⟨s!"Failed to load {file}: {e.message}", []⟩ ""

def load (s : Surroundings) (file : String) : Except Failure Flow :=
  match Flow.load file (s.file? file) with
  | .ok f => .ok f
  | .error (.invalid issues) =>
    let list := "\n".intercalate (issues.map (fun i => "  - " ++ i.message))
    .error ⟨s!"{file} is invalid:\n{list}", []⟩
  | .error e => .error ⟨s!"Failed to load {file}: {e.message}", []⟩

def plan (s : Surroundings) (asJson : Bool) (file : String) : Response :=
  let planned := do
    let f ← load s file
    (Plan.ofFlow f).mapError (fun e =>
      (⟨"Failed to plan " ++ file ++ ": " ++ PlanError.message e, []⟩ : Failure))
  match planned with
  | .ok p => { output := if asJson then json (planJson p) else planText p }
  | .error f => f.response ""

/-- The trace id of a request, or a fresh one. -/
def traceIdOf (s : Surroundings) (fields : Assoc Json) : String :=
  ((fields.get? "trace_id").bind Json.asString?).getD s.traceId

/-- The request of a command line: exactly its inputs, fields and time limit, and in any case a trace
id. -/
def requestOf (s : Surroundings) (o : RunOptions) : Except Failure Request := do
  let inputs ← (assignments o.inputs).mapError (fun e => ⟨"invalid --input", [e.message]⟩)
  let fields ← (assignments o.fields).mapError (fun e => ⟨"invalid --field", [e.message]⟩)
  return { inputs, fields := fields.insert "trace_id" (.str (traceIdOf s fields)), deadlineMs := o.deadlineMs }

/-- The engine of the command line has the built-in operations only. They need no time and keep no
state. -/
def engine (s : Surroundings) (c : Config) : Engine Unit where
  host := { operations := Builtin.operations, code := none, model := none }
  config := c
  defaults := ⟨s.traceId, s.eventTime⟩
  rests := fun _ => 0

/-- Where a command line keeps the state of sessions: in memory, or in the database that it names. -/
def storeOf (s : Surroundings) (o : RunOptions) : Except Failure Store :=
  match o.database with
  | none => .ok (.memory [])
  | some address =>
    match s.database address with
    | .ok table => .ok (.table table)
    | .error causes => .error ⟨"Failed to open state database " ++ address, causes⟩

/-- The schedule of an engine with a store for sessions, before any run. -/
def scheduleOf (store : Store) : Schedule Unit where
  world := { memory := (), stores := [(defaultBackend, store)] }

/-- Run a flow, and tell what became of it. -/
def run (s : Surroundings) (c : Config) (asJson : Bool) (file : String) (o : RunOptions) : Response :=
  let ready := do
    let f ← load s file
    let request ← requestOf s o
    let store ← storeOf s o
    return (f, request, store)
  match ready with
  | .error failure => failure.response ""
  | .ok (f, request, store) =>
    let (result, after) := (engine s c).execute f request (scheduleOf store)
    match result with
    | .error e => Failure.response ⟨"Run could not start: " ++ e.message, []⟩ ""
    | .ok report =>
      let output :=
        if asJson then json (reportJson s.naming report) else reportText s.naming f.name report
      if report.isSuccess then { output, elapsedMs := after.now }
      else
        { Failure.response ⟨"run " ++ report.status.name, []⟩ output with elapsedMs := after.now }

def usage : String :=
  lines ["Usage: aflow [OPTIONS] <COMMAND>", "", "Commands:",
    "  validate <FILE>      Tell everything that is wrong with a document",
    "  plan <FILE>          Show the layers of a flow",
    "  run <FILE>           Run a flow with the built-in operations",
    "  completions <SHELL>  Complete commands in a shell", "", "Options:",
    "      --json               Answer in JSON", "  -q, --quiet              Log errors only",
    "  -v, --verbose            Log more", "      --config <FILE>      Engine configuration",
    "      --otel               Export spans", "  -h, --help               Show this text",
    "  -V, --version            Show the version", "", "Options of run:",
    "  -i, --input <NAME=VALUE>", "  -f, --field <NAME=VALUE>", "      --deadline-ms <MS>",
    "      --state-db <URL>"]

def completions (shell : Shell) : String :=
  let words := " ".intercalate (commands.map Prod.fst)
  match shell with
  | .bash => lines [s!"complete -W '{words}' {tool}"]
  | .fish => lines [s!"complete -c {tool} -f -a '{words}'"]
  | .zsh => lines ["#compdef " ++ tool, "compadd " ++ words]
  | .elvish =>
    lines ["set edit:completion:arg-completer[" ++ tool ++ "] = \x7b|@words| put " ++ words ++ " \x7d"]
  | .powershell =>
    lines ["Register-ArgumentCompleter -Native -CommandName " ++ tool ++ " -ScriptBlock \x7b '" ++ words
      ++ "'.Split() \x7d"]

def filesOf (arguments : List String) : List String :=
  match Invocation.parse arguments with
  | .ok (.task (.validate file) _ _) => [file]
  | .ok (.task (.plan file) _ _) => [file]
  | .ok (.task (.run file _) _ configFile) => [file, configFile.getD defaultConfigFile]
  | _ => []

/-- Do what a command line asks for. -/
def respond (s : Surroundings) (arguments : List String) : Response :=
  match Invocation.parse arguments with
  | .error e => { status := 2, errors := lines [e.message, "", "Try '" ++ tool ++ " --help'."] }
  | .ok .usage => { output := usage }
  | .ok (.version command) => { output := lines [command ++ " " ++ toolVersion] }
  | .ok (.task task asJson configFile) =>
    match task with
    | .validate file => validate s asJson file
    | .plan file => plan s asJson file
    | .run file o =>
      run s (Config.ofText (s.file? (configFile.getD defaultConfigFile))) asJson file o
    | .completions shell => { output := completions shell }

end Workflow.Command
