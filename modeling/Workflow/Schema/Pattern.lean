import Workflow.Number.Base
import Workflow.Number.Read
import Workflow.Text.Cut

namespace Workflow

/-- A regular expression. -/
inductive Pattern where
  | empty
  | one (test : Char → Bool)
  | start
  | finish
  | wordEdge (wanted : Bool)
  | seq (p q : Pattern)
  | either (p q : Pattern)
  | times (p : Pattern) (low : Nat) (high : Option Nat)
  | ahead (wanted : Bool) (p : Pattern)
  | behind (wanted : Bool) (p : Pattern)

namespace Pattern

def isWord (c : Char) : Bool := c.isAlphanum || c = '_'

/-- The blanks of the class `s`. -/
def isSpace (c : Char) : Bool :=
  c ∈ [' ', '\t', '\n', '\r', '\x0b', '\x0c', '\u2003', '\ufeff', '\u2029', '\u00a0']

/-- Places without repetition. -/
def merge (xs ys : List Nat) : List Nat := xs ++ ys.filter (fun y => y ∉ xs)

def stepAll (step : Nat → List Nat) (places : List Nat) : List Nat :=
  places.foldl (fun found i => merge found (step i)) []

/-- Every place within `n` steps. -/
def closure (step : Nat → List Nat) : Nat → List Nat → List Nat
  | 0, found => found
  | n + 1, found =>
    let more := merge found (stepAll step found)
    if more.length = found.length then found else closure step n more

def exactly (step : Nat → List Nat) : Nat → List Nat → List Nat
  | 0, found => found
  | n + 1, found => if found.isEmpty then [] else exactly step n (stepAll step found)

def isEdge (text : Array Char) (i : Nat) : Bool :=
  let before := i ≠ 0 && (text[i - 1]?).any isWord
  let after := (text[i]?).any isWord
  before != after

/-- The places where a match that starts at `i` may end. -/
def ends (text : Array Char) : Pattern → Nat → List Nat
  | empty, i => [i]
  | one test, i => if (text[i]?).any test then [i + 1] else []
  | start, i => if i = 0 then [i] else []
  | finish, i => if i = text.size then [i] else []
  | wordEdge wanted, i => if isEdge text i = wanted then [i] else []
  | seq p q, i => stepAll (ends text q) (ends text p i)
  | either p q, i => merge (ends text p i) (ends text q i)
  | times p low high, i =>
    let first := exactly (ends text p) low [i]
    closure (ends text p) (match high with | some h => h - low | none => text.size + 1) first
  | ahead wanted p, i => if (ends text p i).isEmpty = wanted then [] else [i]
  | behind wanted p, i =>
    let found := (List.range (i + 1)).any (fun j => (ends text p j).contains i)
    if found = wanted then [i] else []

/-- Whether a match stands anywhere in a text. -/
def occursIn (p : Pattern) (s : String) : Bool :=
  let text := s.toList.toArray
  (List.range (text.size + 1)).any (fun i => ¬ (ends text p i).isEmpty)

/-- The class that a letter after a backslash names. -/
def namedClass? : Char → Option (Char → Bool)
  | 'd' => some Char.isDigit
  | 'D' => some (fun c => !c.isDigit)
  | 'w' => some isWord
  | 'W' => some (fun c => !isWord c)
  | 's' => some isSpace
  | 'S' => some (fun c => !isSpace c)
  | _ => none

def bracketName? (name : List Char) : Option (Char → Bool) :=
  match String.ofList name with
  | "alpha" => some Char.isAlpha
  | "digit" => some Char.isDigit
  | "alnum" => some Char.isAlphanum
  | "upper" => some Char.isUpper
  | "lower" => some Char.isLower
  | "space" => some (fun c => c ∈ [' ', '\t', '\n', '\r', '\x0b', '\x0c'])
  | "blank" => some (fun c => c = ' ' ∨ c = '\t')
  | "word" => some isWord
  | "xdigit" => some (fun c => c.isDigit || ('a' ≤ c && c ≤ 'f') || ('A' ≤ c && c ≤ 'F'))
  | "punct" => some (fun c => '!' ≤ c && c ≤ '~' && !c.isAlphanum)
  | "cntrl" => some (fun c => c < ' ' || c = '\x7f')
  | "print" => some (fun c => ' ' ≤ c && c ≤ '~')
  | "graph" => some (fun c => '!' ≤ c && c ≤ '~')
  | "ascii" => some (fun c => c.toNat < 128)
  | _ => none

/-- A character by its number: in braces, or with `width` hexadecimal digits. -/
def numbered? (width : Nat) (cs : List Char) : Option (Char × List Char) :=
  match cs with
  | '\x7b' :: '\x7d' :: _ => none
  | '\x7b' :: rest => do
    let (digits, rest) ← Text.cut? ['\x7d'] rest
    let c ← Number.charOf? (← Number.ofBase? 16 digits)
    some (c, rest)
  | _ => (Number.numberedChar? width cs).map (fun c => (c, cs.drop width))

/-- The character that an escape stands for, after its backslash. -/
def escaped? : List Char → Option (Char × List Char)
  | 'n' :: rest => some ('\n', rest)
  | 't' :: rest => some ('\t', rest)
  | 'r' :: rest => some ('\r', rest)
  | 'f' :: rest => some ('\x0c', rest)
  | 'v' :: rest => some ('\x0b', rest)
  | 'a' :: rest => some ('\x07', rest)
  | 'e' :: rest => some ('\x1b', rest)
  | 'x' :: rest => numbered? 2 rest
  | 'u' :: rest => numbered? 4 rest
  | 'U' :: rest => numbered? 8 rest
  | 'c' :: c :: rest => if c.isAlpha then some (Char.ofNat (c.toUpper.toNat - 64), rest) else none
  | c :: rest => if c.isAlphanum ∨ c.toNat > 127 then none else some (c, rest)
  | [] => none

/-- A number of repetitions between braces, after the opening one. -/
def bounds? (cs : List Char) : Option ((Nat × Option Nat) × List Char) :=
  let (low, rest) := Number.takeDigits cs
  if low.isEmpty then none
  else
    match rest with
    | '\x7d' :: rest => some ((Number.ofDigits low, some (Number.ofDigits low)), rest)
    | ',' :: '\x7d' :: rest => some ((Number.ofDigits low, none), rest)
    | ',' :: rest =>
      let (high, rest) := Number.takeDigits rest
      match rest with
      | '\x7d' :: rest =>
        if high.isEmpty ∨ Number.ofDigits high < Number.ofDigits low then none
        else some ((Number.ofDigits low, some (Number.ofDigits high)), rest)
      | _ => none
    | _ => none

/-- The repetition mark at the front of a text; a question mark after it changes nothing. -/
def repetition? (cs : List Char) : Option ((Nat × Option Nat) × List Char) := do
  let (range, rest) ←
    match cs with
    | '*' :: rest => some ((0, none), rest)
    | '+' :: rest => some ((1, none), rest)
    | '?' :: rest => some ((0, some 1), rest)
    | '\x7b' :: rest => bounds? rest
    | _ => none
  match rest with
  | '?' :: rest => some (range, rest)
  | _ => some (range, rest)

/-- One character of a class that may start a range. -/
def classChar? : List Char → Option (Char × List Char)
  | '\\' :: rest => escaped? rest
  | c :: rest => some (c, rest)
  | [] => none

mutual

/-- A class after its opening bracket. -/
def class? : Nat → List Char → Option ((Char → Bool) × List Char)
  | 0, _ => none
  | fuel + 1, '^' :: rest => do
    let (test, rest) ← classStart? fuel rest
    some ((fun c => !test c), rest)
  | fuel + 1, cs => classStart? fuel cs

/-- A closing bracket that comes first stands for itself. -/
def classStart? : Nat → List Char → Option ((Char → Bool) × List Char)
  | 0, _ => none
  | fuel + 1, ']' :: rest => classItems? fuel (fun c => c = ']') rest
  | fuel + 1, cs => classItems? fuel (fun _ => false) cs

def classItems? : Nat → (Char → Bool) → List Char → Option ((Char → Bool) × List Char)
  | 0, _, _ => none
  | fuel + 1, test, cs =>
    match cs with
    | [] => none
    | ']' :: rest => some (test, rest)
    | '&' :: '&' :: rest => do
      let (other, rest) ← classItems? fuel (fun _ => false) rest
      some ((fun c => test c && other c), rest)
    | '[' :: ':' :: rest =>
      let negative := rest.head? = some '^'
      let rest := if negative then rest.drop 1 else rest
      let name := rest.takeWhile Char.isAlpha
      match bracketName? name, rest.drop name.length with
      | some named, ':' :: ']' :: rest =>
        classItems? fuel (fun c => test c || (named c != negative)) rest
      | _, _ => none
    | '[' :: rest => do
      let (other, rest) ← class? fuel rest
      classItems? fuel (fun c => test c || other c) rest
    | '\\' :: k :: rest =>
      match namedClass? k with
      | some named => classItems? fuel (fun c => test c || named c) rest
      | none => classRange? fuel test cs
    | _ => classRange? fuel test cs

def classRange? : Nat → (Char → Bool) → List Char → Option ((Char → Bool) × List Char)
  | 0, _, _ => none
  | fuel + 1, test, cs => do
    let (low, rest) ← classChar? cs
    match rest with
    | '-' :: ']' :: _ => classItems? fuel (fun c => test c || c = low) rest
    | '-' :: rest =>
      let (high, rest) ← classChar? rest
      if high < low then none
      else classItems? fuel (fun c => test c || (low ≤ c && c ≤ high)) rest
    | _ => classItems? fuel (fun c => test c || c = low) rest

end

/-- A group name and what follows its closing mark. -/
def afterName? (cs : List Char) : Option (List Char) :=
  let name := cs.takeWhile isWord
  match cs.drop name.length with
  | '>' :: rest => if name.isEmpty then none else some rest
  | _ => none

mutual

/-- Alternatives up to the end or a closing parenthesis. -/
def choice? : Nat → List Char → Option (Pattern × List Char)
  | 0, _ => none
  | fuel + 1, cs => do
    let (p, rest) ← sequence? fuel empty cs
    match rest with
    | '|' :: rest =>
      let (q, rest) ← choice? fuel rest
      some (either p q, rest)
    | _ => some (p, rest)

def sequence? : Nat → Pattern → List Char → Option (Pattern × List Char)
  | 0, _, _ => none
  | fuel + 1, done, cs =>
    match cs with
    | [] => some (done, [])
    | '|' :: _ => some (done, cs)
    | ')' :: _ => some (done, cs)
    | _ => do
      let (p, rest) ← atom? fuel cs
      let (p, rest) ← repeated? fuel p rest
      sequence? fuel (seq done p) rest

def repeated? : Nat → Pattern → List Char → Option (Pattern × List Char)
  | 0, _, _ => none
  | fuel + 1, p, cs =>
    match repetition? cs with
    | some ((low, high), rest) => repeated? fuel (times p low high) rest
    | none => some (p, cs)

def atom? : Nat → List Char → Option (Pattern × List Char)
  | 0, _ => none
  | fuel + 1, cs =>
    match cs with
    | '^' :: rest => some (start, rest)
    | '$' :: rest => some (finish, rest)
    | '.' :: rest => some (one (· ≠ '\n'), rest)
    | '[' :: rest => do
      let (test, rest) ← class? fuel rest
      some (one test, rest)
    | '(' :: '?' :: ':' :: rest => group? fuel rest
    | '(' :: '?' :: '=' :: rest => (group? fuel rest).map (fun r => (ahead true r.1, r.2))
    | '(' :: '?' :: '!' :: rest => (group? fuel rest).map (fun r => (ahead false r.1, r.2))
    | '(' :: '?' :: '<' :: '=' :: rest => (group? fuel rest).map (fun r => (behind true r.1, r.2))
    | '(' :: '?' :: '<' :: '!' :: rest => (group? fuel rest).map (fun r => (behind false r.1, r.2))
    | '(' :: '?' :: 'P' :: '<' :: rest => do group? fuel (← afterName? rest)
    | '(' :: '?' :: '<' :: rest => do group? fuel (← afterName? rest)
    | '(' :: '?' :: _ => none
    | '(' :: rest => group? fuel rest
    | '\\' :: 'b' :: rest => some (wordEdge true, rest)
    | '\\' :: 'B' :: rest => some (wordEdge false, rest)
    | '\\' :: 'A' :: rest => some (start, rest)
    | '\\' :: 'z' :: rest => some (finish, rest)
    | '\\' :: rest =>
      match rest.head?.bind namedClass? with
      | some test => some (one test, rest.drop 1)
      | none => (escaped? rest).map (fun r => (one (· = r.1), r.2))
    | '*' :: _ => none
    | '+' :: _ => none
    | '?' :: _ => none
    | c :: rest => some (one (· = c), rest)
    | [] => none

/-- A group after its opening mark. -/
def group? : Nat → List Char → Option (Pattern × List Char)
  | 0, _ => none
  | fuel + 1, cs => do
    let (p, rest) ← choice? fuel cs
    match rest with
    | ')' :: rest => some (p, rest)
    | _ => none

end

/-- The regular expression that a text writes down. -/
def parse? (s : String) : Option Pattern :=
  match choice? (6 * s.length + 6) s.toList with
  | some (p, []) => some p
  | _ => none

end Pattern

end Workflow
