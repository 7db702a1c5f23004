import Workflow.Json.Reader
import Workflow.Rehearsal.Diary

namespace Workflow.Rehearsal

/-- The instructions of small programs, which work on one value. -/
inductive Instruction where
  | const (v : Json)
  | input (port : String)
  | inputs
  | get (default : Json)
  | put
  | key
  | scope
  | add (n : Int)
  | push (port : String)
  | sleep (ms : Nat)
  | fail (reason : String)
  | invalidArgs (reason : String)
  | panic (reason : String)
  | unknown

/-- A whole number, or zero. -/
def wholeOf : Json → Int
  | .int n => n
  | _ => 0

/-- An instruction is a list of its name and its argument. -/
def Instruction.ofJson (v : Json) : Instruction :=
  let items := v.asArray?.getD []
  let argument := (items[1]?).getD .null
  let text := argument.asString?.getD ""
  match (items.head?).bind Json.asString? with
  | some "const" => .const argument
  | some "input" => .input text
  | some "inputs" => .inputs
  | some "get" => .get argument
  | some "put" => .put
  | some "key" => .key
  | some "scope" => .scope
  | some "add" => .add (wholeOf argument)
  | some "push" => .push text
  | some "sleep" => .sleep (wholeOf argument).toNat
  | some "fail" => .fail text
  | some "invalid_args" => .invalidArgs text
  | some "panic" => .panic text
  | _ => .unknown

abbrev Result := Except OperationError Json

/-- Do something with the state of a node, if it has any. -/
def withState (slot : Option Slot) (f : Slot → Activity (World Diary) Result) :
    Activity (World Diary) Result :=
  match slot with
  | some slot => f slot
  | none => .done (.error (.failed "no state bound"))

/-- What an instruction makes of a value. -/
def Instruction.apply (inputs : Inputs) (slot : Option Slot) (v : Json) :
    Instruction → Activity (World Diary) Result
  | const w => .done (.ok w)
  | input port => .done (.ok (.ofOption (inputs.get? port)))
  | .inputs => .done (.ok (.obj inputs))
  | get default => withState slot fun slot => .step (fun now w =>
      let (found, w) := slot.get now w
      match found with
      | .ok found => (.ok (found.getD default), w)
      | .error e => (.error (.failed e.message), w))
  | put => withState slot fun slot => .step (fun now w => (.ok v, slot.set now v w))
  | key => withState slot fun slot => .done (.ok (.str slot.key))
  | scope => withState slot fun slot => .done (.ok (.str slot.keeper.scope.name))
  | add n => .done (.ok (.int (wholeOf v + n)))
  | push port => .done (.ok (.arr (v.asArray?.getD [] ++ [.ofOption (inputs.get? port)])))
  | sleep ms => do
    Activity.sleep ms
    return .ok v
  | fail reason => .done (.error (.failed reason))
  | invalidArgs reason => .done (.error (.invalidArgs reason))
  | panic reason => .done (.error (.panicked reason))
  | unknown => .done (.error (.failed "unknown instruction"))

/-- Follow a program to its end or its first error. -/
def follow (inputs : Inputs) (slot : Option Slot) : List Instruction → Json → Activity (World Diary) Result
  | [], v => .done (.ok v)
  | i :: rest, v => do
    match ← i.apply inputs slot v with
    | .ok v => follow inputs slot rest v
    | .error e => return .error e

/-- The program of a text. -/
def program? (body : String) : Option (List Instruction) := do
  let items ← (← Json.parse? body).asArray?
  return items.map Instruction.ofJson

/-- Code is a program, which starts from null. -/
def code : CodeRuntime (World Diary) := fun body inputs _ slot => do
  let _ ← begin (fun _ => false) (.code body inputs (slot.map Slot.key))
  match program? body with
  | some instructions => follow inputs slot instructions .null
  | none => return .error (.failed "body is not a program")

end Workflow.Rehearsal
