import Workflow.Text.Cut

namespace Workflow.Command

/-- An option that a command knows: its name, the letter for it if it has one, whether it takes a value,
whether it may be given more than once, and which values it takes. -/
structure OptionSpec where
  name : String
  letter : Option Char := none
  takesValue : Bool := false
  repeats : Bool := false
  admits : String → Bool := fun _ => true

inductive UsageError where
  | unknown (argument : String)
  | noValue (option : String)
  | repeated (option : String)
  | badValue (argument value : String)
  | missing (what : String)

def UsageError.message : UsageError → String
  | unknown argument => s!"error: unexpected argument '{argument}'"
  | noValue option => s!"error: option '{option}' needs a value"
  | repeated option => s!"error: option '{option}' is given more than once"
  | badValue argument value => s!"error: invalid value '{value}' for '{argument}'"
  | missing what => s!"error: {what} is missing"

/-- What a command line consists of: options, perhaps with a value, and operands. The first thing that
is not understood ends it. -/
inductive Item where
  | option (spec : OptionSpec) (value : Option String)
  | operand (text : String)
  | fault (e : UsageError)

/-- What one argument holds: items, and an option whose value is to follow. -/
structure Piece where
  items : List Item := []
  awaits : Option OptionSpec := none

/-- An argument that starts with two hyphens. -/
def longPiece (specs : List OptionSpec) (text : List Char) : Piece :=
  let (name, value) := match Text.cut? ['='] text with
    | some (name, value) => (String.ofList name, some (String.ofList value))
    | none => (String.ofList text, none)
  match specs.find? (fun spec => spec.name = name), value with
  | none, _ => { items := [.fault (.unknown ("--" ++ name))] }
  | some spec, some value =>
    if spec.takesValue then { items := [.option spec (some value)] }
    else { items := [.fault (.badValue ("--" ++ name) value)] }
  | some spec, none =>
    if spec.takesValue then { awaits := some spec } else { items := [.option spec none] }

/-- The letters of an argument that starts with one hyphen. What follows a letter whose option takes a
value is that value. -/
def letterPiece (specs : List OptionSpec) : List Char → Piece
  | [] => {}
  | c :: rest =>
    match specs.find? (fun spec => spec.letter = some c) with
    | none => { items := [.fault (.unknown (String.ofList ['-', c]))] }
    | some spec =>
      if spec.takesValue then
        match rest with
        | [] => { awaits := some spec }
        | '=' :: value => { items := [.option spec (some (String.ofList value))] }
        | value => { items := [.option spec (some (String.ofList value))] }
      else
        let piece := letterPiece specs rest
        { piece with items := .option spec none :: piece.items }

/-- What an argument is for a command with some options; a single hyphen is an operand. -/
def pieceOf (specs : List OptionSpec) (argument : String) : Piece :=
  match argument.toList with
  | '-' :: '-' :: rest => longPiece specs rest
  | ['-'] => { items := [.operand argument] }
  | '-' :: rest => letterPiece specs rest
  | _ => { items := [.operand argument] }

/-- Whether an argument can be the value of an option before it. -/
def canBeValue (argument : String) : Bool :=
  match argument.toList with
  | '-' :: _ :: _ => false
  | _ => true

/-- The items of arguments, of which the first may be the value that an option awaits. After two hyphens
alone there are only operands. -/
def itemsOf (specs : List OptionSpec) (awaits : Option OptionSpec) : List String → List Item
  | [] =>
    match awaits with
    | some spec => [.fault (.noValue spec.name)]
    | none => []
  | argument :: rest =>
    match awaits with
    | some spec =>
      if canBeValue argument then .option spec (some argument) :: itemsOf specs none rest
      else [.fault (.noValue spec.name)]
    | none =>
      if argument = "--" then rest.map .operand
      else
        let piece := pieceOf specs argument
        piece.items ++ itemsOf specs piece.awaits rest

def Piece.isOperand (p : Piece) : Bool :=
  match p.items with
  | [.operand _] => true
  | _ => false

def splitAtOperand (specs : List OptionSpec) (awaits : Option OptionSpec) :
    List String → List String × List String
  | [] => ([], [])
  | argument :: rest =>
    if awaits.isSome then
      let (before, after) := splitAtOperand specs none rest
      (argument :: before, after)
    else if argument = "--" then (argument :: rest, [])
    else
      let piece := pieceOf specs argument
      if piece.isOperand then ([], argument :: rest)
      else
        let (before, after) := splitAtOperand specs piece.awaits rest
        (argument :: before, after)

end Workflow.Command
