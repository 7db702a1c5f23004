import Workflow.Json.Reader
import Workflow.Number.Word

namespace Workflow.Scalar

open Workflow.Number

def isNullWord (s : String) : Bool := s = "null" ∨ s = "Null" ∨ s = "NULL" ∨ s = "~"

def boolWord? (s : String) : Option Bool :=
  if s = "true" ∨ s = "True" ∨ s = "TRUE" then some true
  else if s = "false" ∨ s = "False" ∨ s = "FALSE" then some false
  else none

def digitValue? (base : Nat) (c : Char) : Option Nat :=
  let n :=
    if '0' ≤ c ∧ c ≤ '9' then c.toNat - '0'.toNat
    else if 'a' ≤ c ∧ c ≤ 'z' then c.toNat - 'a'.toNat + 10
    else if 'A' ≤ c ∧ c ≤ 'Z' then c.toNat - 'A'.toNat + 10
    else base
  if n < base then some n else none

/-- The number that digits of a base stand for; at least one is needed. -/
def digits? (base : Nat) (cs : List Char) : Option Nat :=
  if cs.isEmpty then none
  else cs.foldlM (fun n c => (digitValue? base c).map (fun d => base * n + d)) 0

/-- Several decimal digits that start with zero are text, not a number. -/
def isPaddedNumber (cs : List Char) : Bool :=
  let body :=
    match cs with
    | '-' :: rest => rest
    | '+' :: rest => rest
    | _ => cs
  match body with
  | '0' :: c :: rest => (c :: rest).all Char.isDigit
  | _ => false

/-- A whole number without its sign: decimal, or with the mark of base 16, 8 or 2. -/
def magnitude? (cs : List Char) : Option Nat :=
  match cs with
  | '0' :: 'x' :: rest => digits? 16 rest
  | '0' :: 'o' :: rest => digits? 8 rest
  | '0' :: 'b' :: rest => digits? 2 rest
  | _ => digits? 10 cs

def nat? (s : String) : Option Nat :=
  if isPaddedNumber s.toList then none
  else
    match s.toList with
    | '+' :: rest => magnitude? rest
    | cs => magnitude? cs

/-- A whole number of at most 128 bits; nothing inside when it has more than the 64 bits that values
can hold. -/
def int? (s : String) : Option (Option Int) :=
  let sized (n : Nat) (inner outer : Nat) (v : Int) : Option (Option Int) :=
    if n < inner then some (some v) else if n < outer then some none else none
  match nat? s with
  | some n => sized n word64 (word64 * word64) n
  | none =>
    match s.toList with
    | '-' :: rest =>
      if isPaddedNumber rest then none
      else (magnitude? rest).bind (fun n => sized n (half64 + 1) (half64 * word64 + 1) (-n))
    | _ => none

def floatWord? (s : String) : Option Float :=
  if s ∈ [".inf", ".Inf", ".INF", "+.inf", "+.Inf", "+.INF"] then some (1.0 / 0.0)
  else if s ∈ ["-.inf", "-.Inf", "-.INF"] then some (-1.0 / 0.0)
  else if s ∈ [".nan", ".NaN", ".NAN"] then some (0.0 / 0.0)
  else
    match float? s.toList with
    | some x => if x.isFinite then some x else none
    | none => none

/-- What bare text stands for; nothing when it is a whole number that no value can hold. -/
def ofBare? (s : String) : Option Scalar :=
  if s.isEmpty ∨ isNullWord s then some .null
  else
    match boolWord? s with
    | some b => some (.bool b)
    | none =>
      match int? s with
      | some n => n.map .int
      | none =>
        if isPaddedNumber s.toList then some (.text s)
        else
          match floatWord? s with
          | some x => some (.float x)
          | none => some (.text s)

def boolTag : String := "tag:yaml.org,2002:bool"

def intTag : String := "tag:yaml.org,2002:int"

def floatTag : String := "tag:yaml.org,2002:float"

def nullTag : String := "tag:yaml.org,2002:null"

/-- The name after the mark of a tag of the document's own. -/
def ownTag? (tag : Option String) : Option String :=
  match tag.map String.toList with
  | some ['!'] => some "!"
  | some ('!' :: rest) => some (String.ofList rest)
  | _ => none

/-- Written text with its tag taken into account; nothing when they do not fit, or when the tag is one
of the document's own. -/
def resolve? : Scalar → Option Scalar
  | written s style tag =>
    match tag with
    | none => if style = .bare then ofBare? s else some (.text s)
    | some t =>
      if (ownTag? tag).isSome then none
      else if t = boolTag then (boolWord? s).map .bool
      else if t = intTag then (int? s).bind (fun n => n.map .int)
      else if t = floatTag then (floatWord? s).map .float
      else if t = nullTag then if isNullWord s then some .null else none
      else some (.text s)
  | s => some s

end Workflow.Scalar

namespace Workflow.Tree

mutual

/-- The tree with every scalar resolved; nothing when a scalar has no meaning or a tag of the
document's own stands anywhere. -/
def resolve? : Tree → Option Tree
  | scalar s => (s.resolve?).map .scalar
  | list tag items =>
    if (Scalar.ownTag? tag).isSome then none else (resolveItems? items).map (.list none)
  | map tag entries =>
    if (Scalar.ownTag? tag).isSome then none else (resolveEntries? entries).map (.map none)

def resolveItems? : List Tree → Option (List Tree)
  | [] => some []
  | t :: rest => do
    let t ← resolve? t
    let rest ← resolveItems? rest
    some (t :: rest)

def resolveEntries? : List (Tree × Tree) → Option (List (Tree × Tree))
  | [] => some []
  | (k, t) :: rest => do
    let k ← resolve? k
    let t ← resolve? t
    let rest ← resolveEntries? rest
    some ((k, t) :: rest)

end

/-- The text of a scalar where text is wanted, whatever it would resolve to. -/
def asText? : Tree → Option String
  | scalar (.text s) => some s
  | scalar (.written s _ _) => some s
  | _ => none

mutual

def toJson? : Tree → Option Json
  | scalar s => (s.resolve?).bind (fun s =>
    match s with
    | .null => some .null
    | .bool b => some (.bool b)
    | .int n => some (.int n)
    | .float x => some (Json.ofFloat x)
    | .text s => some (.str s)
    | .written _ _ _ => none)
  | list tag items =>
    if (Scalar.ownTag? tag).isSome then none else (itemsToJson? items).map .arr
  | map tag entries =>
    if (Scalar.ownTag? tag).isSome then none else (entriesToJson? entries).map Json.ofFields

def itemsToJson? : List Tree → Option (List Json)
  | [] => some []
  | t :: rest => do
    let v ← toJson? t
    let rest ← itemsToJson? rest
    some (v :: rest)

def entriesToJson? : List (Tree × Tree) → Option (List (String × Json))
  | [] => some []
  | (k, t) :: rest => do
    let name ← asText? k
    let v ← toJson? t
    let rest ← entriesToJson? rest
    some ((name, v) :: rest)

end

end Workflow.Tree

namespace Workflow.Json

def parse? (text : String) : Option Json := do
  let tree ← Tree.ofJsonText? text
  tree.toJson?

end Workflow.Json
