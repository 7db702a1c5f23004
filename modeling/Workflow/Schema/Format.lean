import Workflow.Context.Timestamp
import Workflow.Schema.Address
import Workflow.Schema.Pattern

namespace Workflow.Schema

/-- The forms of text that schemas name. -/
inductive Format where
  | date
  | dateTime
  | email
  | hostname
  | ipv4
  | ipv6
  | pointer
  | regex
  | relativePointer
  | time
  | uri
  | uriReference
  | uriTemplate

namespace Format

open Timestamp

/-- The form that a name stands for; other names say nothing. -/
def ofName? : String → Option Format
  | "date" => some date
  | "date-time" => some dateTime
  | "email" => some email
  | "idn-email" => some email
  | "hostname" => some hostname
  | "idn-hostname" => some hostname
  | "ipv4" => some ipv4
  | "ipv6" => some ipv6
  | "iri" => some uri
  | "iri-reference" => some uriReference
  | "json-pointer" => some pointer
  | "regex" => some regex
  | "relative-json-pointer" => some relativePointer
  | "time" => some time
  | "uri" => some uri
  | "uri-reference" => some uriReference
  | "uri-template" => some uriTemplate
  | _ => none

/-- A leap second is the last second of a month. -/
def isLastOfMonth (t : Timestamp) : Bool :=
  let days := t.minutes.fdiv 1440
  let (_, _, nextDay) := civilOfDays (days + 1)
  t.minutes - days * 1440 = 1439 && nextDay = 1

/-- A date, any one character and a time of day with an offset. -/
def isDateTime (cs : List Char) : Bool :=
  match cs.drop 10 with
  | [] => false
  | separator :: rest =>
    separator.toNat < 128 && '\u2212' ∉ rest
      && (Timestamp.parse? (String.ofList (cs.take 10 ++ 'T' :: rest))).any (fun t =>
        t.seconds < 60 || isLastOfMonth t)

/-- What follows an offset from universal time. -/
def zone? : List Char → Option (List Char)
  | 'Z' :: rest => some rest
  | 'z' :: rest => some rest
  | cs => do
    let rest ← expect? (fun c => c = '+' ∨ c = '-' ∨ c = '|') cs
    let (h, rest) ← number? 2 rest
    let rest ← expect? (· = ':') rest
    let (m, rest) ← number? 2 rest
    if h < 24 ∧ m < 60 then some rest else none

/-- What follows a time of day with an offset. A fraction has six digits. -/
def time? (cs : List Char) : Option (List Char) := do
  let (h, rest) ← number? 2 cs
  let rest ← expect? (· = ':') rest
  let (m, rest) ← number? 2 rest
  let rest ← expect? (· = ':') rest
  let (s, rest) ← number? 2 rest
  let rest ←
    match rest with
    | '.' :: rest => (number? 6 rest).map Prod.snd
    | _ => some rest
  if h < 24 ∧ m < 60 ∧ s < 60 then zone? rest else none

/-- Whether an at sign follows a text in which no dot stands before another or before that sign. -/
def reachesAt : List Char → Bool
  | a :: b :: rest =>
    if a = '.' ∧ (b = '.' ∨ b = '@') then false else b = '@' || reachesAt (b :: rest)
  | _ => false

def isEmail (cs : List Char) : Bool := cs.head? != some '.' && reachesAt cs

/-- Every tilde stands before a zero or a one. -/
def tildesHold : List Char → Bool
  | [] => true
  | ['~'] => false
  | '~' :: c :: rest => (c = '0' || c = '1') && tildesHold rest
  | _ :: rest => tildesHold rest

def isPointer (cs : List Char) : Bool := (cs.isEmpty || cs.head? = some '/') && tildesHold cs

/-- A number of levels up, and then a hash sign or a pointer. -/
def isRelativePointer (cs : List Char) : Bool :=
  let (levels, rest) := Number.takeDigits cs
  !levels.isEmpty && (levels.length = 1 || levels.head? != some '0') && (rest = ['#'] || isPointer rest)

def isLowerHex (c : Char) : Bool := c.isDigit || ('a' ≤ c && c ≤ 'f')

/-- A text of allowed characters and of percent signs before two hexadecimal digits. -/
def encodedWith (allowed : Char → Bool) : List Char → Bool
  | [] => true
  | '%' :: a :: b :: rest => isLowerHex a && isLowerHex b && encodedWith allowed rest
  | c :: rest => c ≠ '%' && allowed c && encodedWith allowed rest

def isTemplateLiteral : List Char → Bool :=
  encodedWith (fun c => c > ' '
    && c ∉ ['"', '\'', '<', '>', '\\', '^', '\x60', '\x7b', '|', '\x7d'])

/-- A variable of a template: a name, which a length or a star may follow. -/
def isTemplateVariable (cs : List Char) : Bool :=
  let name := cs.takeWhile (fun c => c ≠ ':' ∧ c ≠ '*')
  !name.isEmpty && encodedWith (fun c => c.isLower || c.isDigit || c = '_') name
    && (match cs.drop name.length with
      | [] => true
      | ['*'] => true
      | ':' :: ds => !ds.isEmpty && ds.length ≤ 4 && ds.all Char.isDigit && ds.head? != some '0'
      | _ => false)

def isTemplateOperator (c : Char) : Bool :=
  c ∈ ['+', '#', '.', '/', ';', '?', '&', '=', ',', '!', '@', '|']

/-- Variables between commas, which an operator may precede. -/
def isTemplateExpression (cs : List Char) : Bool :=
  let cs := if cs.head?.any isTemplateOperator then cs.drop 1 else cs
  (Text.split ',' cs).all isTemplateVariable

/-- Literal text with expressions in braces. -/
def isUriTemplate (cs : List Char) : Bool :=
  match Text.split '\x7b' cs with
  | [] => true
  | first :: parts =>
    isTemplateLiteral first && parts.all (fun part =>
      match Text.cut? ['\x7d'] part with
      | some (expression, after) => isTemplateExpression expression && isTemplateLiteral after
      | none => false)

def admits (f : Format) (s : String) : Bool :=
  let cs := s.toList
  match f with
  | date => Timestamp.date? cs = some []
  | dateTime => isDateTime cs
  | email => isEmail cs
  | hostname => Address.isHostname cs
  | ipv4 => cs.head? != some '0' && Address.isIpv4 cs
  | ipv6 => Address.isIpv6 cs
  | pointer => isPointer cs
  | regex => (Pattern.parse? s).isSome
  | relativePointer => isRelativePointer cs
  | time => time? cs = some []
  | uri => Address.isUri cs
  | uriReference => Address.isUriReference cs
  | uriTemplate => isUriTemplate cs

end Format

end Workflow.Schema
