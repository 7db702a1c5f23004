import Workflow.Number.Base
import Workflow.Number.Word
import Workflow.Toml.Moment
import Workflow.Toml.Table

namespace Workflow

namespace Toml

def isBlank (c : Char) : Bool := c = ' ' ∨ c = '\t'

def skipBlanks (cs : List Char) : List Char := cs.dropWhile isBlank

/-- Characters that may not stand in comments and texts of one line. -/
def isControl (c : Char) : Bool := (c.toNat < 0x20 && c ≠ '\t') || c.toNat = 0x7F

def newline? : List Char → Option (List Char)
  | '\n' :: rest => some rest
  | '\r' :: '\n' :: rest => some rest
  | _ => none

def skipComment? (cs : List Char) : Option (List Char) :=
  match cs with
  | '#' :: rest =>
    let rest := rest.dropWhile (fun c => !isControl c)
    if rest.isEmpty ∨ (newline? rest).isSome then some rest else none
  | _ => some cs

def skipLines? : Nat → List Char → Option (List Char)
  | 0, _ => none
  | fuel + 1, cs => do
    let cs ← skipComment? (skipBlanks cs)
    match newline? cs with
    | some rest => skipLines? fuel rest
    | none => some cs

/-- The character of an escape after its backslash. -/
def escape? : List Char → Option (Char × List Char)
  | 'b' :: rest => some ('\x08', rest)
  | 't' :: rest => some ('\t', rest)
  | 'n' :: rest => some ('\n', rest)
  | 'f' :: rest => some ('\x0c', rest)
  | 'r' :: rest => some ('\r', rest)
  | '"' :: rest => some ('"', rest)
  | '\\' :: rest => some ('\\', rest)
  | 'u' :: rest => (Number.numberedChar? 4 rest).map (fun c => (c, rest.drop 4))
  | 'U' :: rest => (Number.numberedChar? 8 rest).map (fun c => (c, rest.drop 8))
  | _ => none

def quoted? (quote : Char) : Nat → List Char → List Char → Option (List Char × List Char)
  | 0, _, _ => none
  | fuel + 1, done, cs =>
    match cs with
    | [] => none
    | c :: rest =>
      if c = quote then some (done, rest)
      else if isControl c then none
      else if c = '\\' ∧ quote = '"' then
        match escape? rest with
        | some (c, rest) => quoted? quote fuel (done ++ [c]) rest
        | none => none
      else quoted? quote fuel (done ++ [c]) rest

/-- A text of several lines after its opening quotes. Up to two quotes in a row may stand in it, also
at its end; a backslash at the end of a line joins it with the next. -/
def longText? (quote : Char) : Nat → List Char → List Char → Option (List Char × List Char)
  | 0, _, _ => none
  | fuel + 1, done, cs =>
    match cs with
    | [] => none
    | c :: rest =>
      if c = quote then
        let quotes := 1 + (rest.takeWhile (· = quote)).length
        if quotes < 3 then longText? quote fuel (done ++ [c]) rest
        else if quotes ≤ 5 then
          some (done ++ List.replicate (quotes - 3) quote, cs.drop quotes)
        else none
      else
        match newline? cs with
        | some after => longText? quote fuel (done ++ ['\n']) after
        | none =>
          if isControl c then none
          else if c = '\\' ∧ quote = '"' then
            match newline? (skipBlanks rest) with
            | some after =>
              longText? quote fuel done (after.dropWhile (fun c => isBlank c ∨ c = '\n' ∨ c = '\r'))
            | none =>
              match escape? rest with
              | some (c, rest) => longText? quote fuel (done ++ [c]) rest
              | none => none
          else longText? quote fuel (done ++ [c]) rest

def text? (cs : List Char) : Option (List Char × List Char) :=
  let long (quote : Char) (rest : List Char) :=
    longText? quote (cs.length + 1) [] ((newline? rest).getD rest)
  match cs with
  | '"' :: '"' :: '"' :: rest => long '"' rest
  | '\'' :: '\'' :: '\'' :: rest => long '\'' rest
  | '"' :: rest => quoted? '"' (cs.length + 1) [] rest
  | '\'' :: rest => quoted? '\'' (cs.length + 1) [] rest
  | _ => none

def isBareChar (c : Char) : Bool := c.isAlphanum || c = '_' || c = '-'

def simpleKey? (cs : List Char) : Option (String × List Char) :=
  match cs with
  | '"' :: rest => (quoted? '"' (cs.length + 1) [] rest).map (fun r => (String.ofList r.1, r.2))
  | '\'' :: rest => (quoted? '\'' (cs.length + 1) [] rest).map (fun r => (String.ofList r.1, r.2))
  | _ =>
    let name := cs.takeWhile isBareChar
    if name.isEmpty then none else some (String.ofList name, cs.drop name.length)

def key? : Nat → List Char → Option (List String × List Char)
  | 0, _ => none
  | fuel + 1, cs => do
    let (name, rest) ← simpleKey? (skipBlanks cs)
    match skipBlanks rest with
    | '.' :: rest => do
      let (path, rest) ← key? fuel rest
      some (name :: path, rest)
    | rest => some ([name], rest)

/-- Digits with single underscores between them. -/
def spaced? (isDigit : Char → Bool) : List Char → Option (List Char)
  | [] => none
  | [c] => if isDigit c then some [c] else none
  | c :: '_' :: rest => if isDigit c then (spaced? isDigit rest).map (c :: ·) else none
  | c :: rest => if isDigit c then (spaced? isDigit rest).map (c :: ·) else none

def based? (base : Nat) (cs : List Char) : Option Nat := do
  let ds ← spaced? (fun c => (Number.digitOf? base c).isSome) cs
  Number.ofBase? base ds

def within? (n : Int) : Option Scalar :=
  if -(Number.half64 : Int) ≤ n ∧ n < Number.half64 then some (.int n) else none

/-- Decimal digits that do not start with a zero, unless it is the only one. -/
def decimal? (cs : List Char) : Option Nat := do
  let ds ← spaced? Char.isDigit cs
  match ds with
  | '0' :: _ :: _ => none
  | ds => some (Number.ofDigits ds)

def unsigned (cs : List Char) : Bool × List Char :=
  match cs with
  | '-' :: rest => (true, rest)
  | '+' :: rest => (false, rest)
  | _ => (false, cs)

def int? (cs : List Char) : Option Scalar :=
  match cs with
  | '0' :: 'x' :: rest => (based? 16 rest).bind (fun n => within? n)
  | '0' :: 'o' :: rest => (based? 8 rest).bind (fun n => within? n)
  | '0' :: 'b' :: rest => (based? 2 rest).bind (fun n => within? n)
  | _ =>
    let (negative, rest) := unsigned cs
    (decimal? rest).bind (fun n => within? (if negative then -n else n))

/-- The exponent of a float is well written. -/
def isExponent (cs : List Char) : Bool := (spaced? Char.isDigit (unsigned cs).2).isSome

/-- A float: a whole part with a fraction, an exponent, or both; or a word. -/
def float? (cs : List Char) : Option Scalar :=
  let (negative, rest) := unsigned cs
  let signed (x : Float) : Scalar := .float (if negative then -x else x)
  if rest = "inf".toList then some (signed (1.0 / 0.0))
  else if rest = "nan".toList then some (signed (0.0 / 0.0))
  else
    let whole := rest.takeWhile (fun c => c.isDigit ∨ c = '_')
    let isMark (c : Char) : Bool := c = 'e' ∨ c = 'E'
    let tail := rest.drop whole.length
    let wellFormed :=
      (decimal? whole).isSome &&
      match tail with
      | '.' :: more =>
        let fraction := more.takeWhile (fun c => !isMark c)
        (spaced? Char.isDigit fraction).isSome &&
        match more.drop fraction.length with
        | [] => true
        | _ :: e => isExponent e
      | c :: e => isMark c && isExponent e
      | [] => false
    if wellFormed then (Number.float? (cs.filter (· ≠ '_'))).map .float else none

/-- A value that is written without quotes or brackets. What a moment stands for is nothing that settings
are made of. -/
def word? (cs : List Char) : Option (Tree × List Char) :=
  let word := cs.takeWhile (fun c => c.isAlphanum || c ∈ ['+', '-', '.', ':', '_'])
  let rest := cs.drop word.length
  let leaf (s : Option Scalar) : Option (Tree × List Char) := s.map (fun s => (.scalar s, rest))
  if word = "true".toList then leaf (some (.bool true))
  else if word = "false".toList then leaf (some (.bool false))
  else
    match int? word, float? word with
    | some s, _ => leaf (some s)
    | none, some s => leaf (some s)
    | none, none => (moment? cs).map (fun rest => (.list none [], rest))

mutual

def value? : Nat → List Char → Option (Tree × List Char)
  | 0, _ => none
  | fuel + 1, cs =>
    match cs with
    | '"' :: _ => (text? cs).map (fun r => (.scalar (.text (String.ofList r.1)), r.2))
    | '\'' :: _ => (text? cs).map (fun r => (.scalar (.text (String.ofList r.1)), r.2))
    | '[' :: rest => (items? fuel rest).map (fun r => (.list none r.1, r.2))
    | '\x7b' :: rest =>
      match skipBlanks rest with
      | '\x7d' :: rest => some (.map none [], rest)
      | rest => (members? fuel [] rest).map (fun r => (.map none (entriesToTree r.1), r.2))
    | _ => word? cs

/-- The items of a list after its bracket or a comma. -/
def items? : Nat → List Char → Option (List Tree × List Char)
  | 0, _ => none
  | fuel + 1, cs => do
    let cs ← skipLines? (cs.length + 1) cs
    match cs with
    | ']' :: rest => some ([], rest)
    | _ => do
      let (t, rest) ← value? fuel cs
      let rest ← skipLines? (rest.length + 1) rest
      match rest with
      | ',' :: rest => do
        let (ts, rest) ← items? fuel rest
        some (t :: ts, rest)
      | ']' :: rest => some ([t], rest)
      | _ => none

/-- The members of a table in braces, from a member on. -/
def members? : Nat → Table → List Char → Option (Table × List Char)
  | 0, _, _ => none
  | fuel + 1, done, cs => do
    let (path, rest) ← key? (cs.length + 1) cs
    match rest with
    | '=' :: rest => do
      let (t, rest) ← value? fuel (skipBlanks rest)
      let done ← done.set? t path
      match skipBlanks rest with
      | ',' :: rest => members? fuel done rest
      | '\x7d' :: rest => some (done, rest)
      | _ => none
    | _ => none

end

/-- The end of a line after blanks and a comment. -/
def endLine? (cs : List Char) : Option (List Char) := do
  let cs ← skipComment? (skipBlanks cs)
  if cs.isEmpty then some [] else newline? cs

/-- The lines of a document from `cs` on, which belong to the table at `path`. -/
def lines? : Nat → List String → Table → List Char → Option Table
  | 0, _, _, _ => none
  | fuel + 1, path, root, cs => do
    let cs ← skipLines? (cs.length + 1) cs
    match cs with
    | [] => some root
    | '[' :: '[' :: rest => do
      let (keys, rest) ← key? (rest.length + 1) rest
      let root ← root.change? (Table.append? (keys.getLast?.getD "")) keys.dropLast
      match rest with
      | ']' :: ']' :: rest => lines? fuel keys root (← endLine? rest)
      | _ => none
    | '[' :: rest => do
      let (keys, rest) ← key? (rest.length + 1) rest
      let root ← root.change? (Table.openAs? (keys.getLast?.getD "")) keys.dropLast
      match rest with
      | ']' :: rest => lines? fuel keys root (← endLine? rest)
      | _ => none
    | _ => do
      let (keys, rest) ← key? (cs.length + 1) cs
      match rest with
      | '=' :: rest => do
        let (t, rest) ← value? (rest.length + 1) (skipBlanks rest)
        let root ← root.change? (fun table => table.set? t keys) path
        lines? fuel path root (← endLine? rest)
      | _ => none

end Toml

def Tree.ofTomlText? (text : String) : Option Tree :=
  let cs :=
    match text.toList with
    | '\ufeff' :: rest => rest
    | cs => cs
  (Toml.lines? (cs.length + 1) [] [] cs).map (fun es => .map none (Toml.entriesToTree es))

end Workflow
