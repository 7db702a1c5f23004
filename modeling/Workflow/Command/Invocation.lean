import Workflow.Command.Option
import Workflow.Json.Path

namespace Workflow.Command

/-- What runs take from a command line. -/
structure RunOptions where
  inputs : List String := []
  fields : List String := []
  deadlineMs : Option Nat := none
  database : Option String := none

inductive Shell where
  | bash
  | elvish
  | fish
  | powershell
  | zsh
  deriving DecidableEq

def Shell.all : List (String × Shell) :=
  [("bash", .bash), ("elvish", .elvish), ("fish", .fish), ("powershell", .powershell), ("zsh", .zsh)]

inductive Task where
  | validate (file : String)
  | plan (file : String)
  | run (file : String) (options : RunOptions)
  | completions (shell : Shell)

/-- What a command line asks for: a task, with a configuration file and whether to answer in JSON, or
the version or the usage of a command. -/
inductive Invocation where
  | task (t : Task) (json : Bool) (configFile : Option String)
  | version (command : String)
  | usage

def tool : String := "aflow"

def toolVersion : String := "0.1.0"

def isText (s : String) : Bool := !s.isEmpty

def deadline? (s : String) : Option Nat := Json.index? s.toList

/-- The options that stand before a command as well as after it. -/
def generalOptions : List OptionSpec :=
  [{ name := "json" }, { name := "quiet", letter := 'q' },
    { name := "verbose", letter := 'v', repeats := true },
    { name := "config", takesValue := true, admits := isText }, { name := "otel" },
    { name := "version", letter := 'V' }, { name := "help", letter := 'h' }]

def runOptions : List OptionSpec :=
  [{ name := "input", letter := 'i', takesValue := true, repeats := true },
    { name := "field", letter := 'f', takesValue := true, repeats := true },
    { name := "deadline-ms", takesValue := true, admits := fun s => (deadline? s).isSome },
    { name := "state-db", takesValue := true }]

/-- The commands, with their own options and which operands they take. -/
def commands : List (String × List OptionSpec × (String → Bool)) :=
  [("validate", [], isText), ("plan", [], isText), ("run", runOptions, isText),
    ("completions", [], fun s => (Shell.all.lookup s).isSome)]

/-- The options and operands that arguments set. -/
structure Settings where
  options : List (String × String) := []
  operands : List String := []

namespace Settings

def has (s : Settings) (name : String) : Bool := (s.options.lookup name).isSome

/-- The values of an option in the order in which they were given. -/
def values (s : Settings) (name : String) : List String :=
  (s.options.filter (fun o => o.1 = name)).map Prod.snd

end Settings

/-- Why reading settings stops before their end. -/
inductive Stop where
  | fault (e : UsageError)
  | version
  | usage

/-- Take items into account in their order. At most one operand is taken, if it is a proper one. -/
def settle (operand : String → Bool) : List Item → Settings → Except Stop Settings
  | [], s => .ok s
  | .fault e :: _, _ => .error (.fault e)
  | .operand text :: rest, s =>
    if !s.operands.isEmpty then .error (.fault (.unknown text))
    else if operand text then settle operand rest { s with operands := [text] }
    else .error (.fault (.badValue "operand" text))
  | .option spec value :: rest, s =>
    let value := value.getD ""
    if spec.name = "version" then .error .version
    else if spec.name = "help" then .error .usage
    else if !spec.repeats ∧ s.has spec.name then .error (.fault (.repeated spec.name))
    else if spec.takesValue ∧ !spec.admits value then .error (.fault (.badValue spec.name value))
    else settle operand rest { s with options := s.options ++ [(spec.name, value)] }

def taskOf (command operand : String) (s : Settings) : Except UsageError Task :=
  match command, Shell.all.lookup operand with
  | "validate", _ => .ok (.validate operand)
  | "plan", _ => .ok (.plan operand)
  | "run", _ => .ok (.run operand {
      inputs := s.values "input"
      fields := s.values "field"
      deadlineMs := (s.values "deadline-ms").head?.bind deadline?
      database := (s.values "state-db").head? })
  | "completions", some shell => .ok (.completions shell)
  | _, _ => .error (.unknown command)

def stopped (command : String) : Stop → Except UsageError Invocation
  | .fault e => .error e
  | .version => .ok (.version command)
  | .usage => .ok .usage

def readCommand (general : Settings) (name : String) (arguments : List String) :
    Except UsageError Invocation :=
  match commands.lookup name with
  | none =>
    if name = "help" ∧ arguments.all (fun a => (commands.lookup a).isSome ∨ a = "help") then .ok .usage
    else .error (.unknown name)
  | some (own, operand) =>
    match settle operand (itemsOf (own ++ generalOptions) none arguments) {} with
    | .error stop => stopped (tool ++ "-" ++ name) stop
    | .ok s =>
      match s.operands with
      | [] => .error (.missing "operand")
      | text :: _ => do
        let task ← taskOf name text s
        let config := (s.values "config").head?.or (general.values "config").head?
        return .task task (s.has "json" || general.has "json") config

def Invocation.parse (arguments : List String) : Except UsageError Invocation :=
  let (before, after) := splitAtOperand generalOptions none arguments
  match settle (fun _ => false) (itemsOf generalOptions none before) {} with
  | .error stop => stopped tool stop
  | .ok general =>
    match after with
    | [] => .error (.missing "command")
    | name :: rest => readCommand general name rest

end Workflow.Command
