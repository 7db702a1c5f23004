import Workflow.Expr.Basic
import Workflow.Expr.Token

namespace Workflow.Expr.Parser

/-- The operators of one strength, from the weakest to the strongest. -/
def levels : List (List (String × Op)) :=
  [[("&&", .and), ("||", .or)],
   [("==", .equal), ("!=", .notEqual), (">=", .greaterEqual), ("<=", .lessEqual), (">", .greater),
     ("<", .less), ("in", .contained)],
   [("+", .add), ("-", .subtract)],
   [("*", .multiply), ("//", .floorDivide), ("/", .divide)],
   [("%", .modulus), ("^", .exponent)]]

def comparisons : List (String × Op) := levels.getD 1 []

def expect? (s : String) : List Token → Option (List Token)
  | .sign t :: rest => if t = s then some rest else none
  | _ => none

/-- The name of a member of a record. -/
def key? : List Token → Option (String × List Token)
  | .name id :: rest => some (id, rest)
  | .text s :: rest => some (s, rest)
  | _ => none

mutual

/-- An expression whose operators stand in the given levels. All operators group to the left. -/
def binary? : Nat → List (List (String × Op)) → List Token → Option (Expr × List Token)
  | 0, _, _ => none
  | fuel + 1, [], ts => do
    let (e, ts) ← transformed? fuel ts
    choices? fuel e ts
  | fuel + 1, ops :: stronger, ts => do
    let (e, ts) ← binary? fuel stronger ts
    operations? fuel ops stronger e ts

/-- Further operands of one level after `left`. -/
def operations? : Nat → List (String × Op) → List (List (String × Op)) → Expr → List Token →
    Option (Expr × List Token)
  | 0, _, _, _, _ => none
  | fuel + 1, ops, stronger, left, ts =>
    match ts with
    | .sign s :: rest =>
      match ops.lookup s with
      | some op => do
        let (right, rest) ← binary? fuel stronger rest
        operations? fuel ops stronger (.binary op left right) rest
      | none => some (left, ts)
    | _ => some (left, ts)

/-- Choices `test ? yes : no` after `test`. -/
def choices? : Nat → Expr → List Token → Option (Expr × List Token)
  | 0, _, _ => none
  | fuel + 1, test, ts =>
    match ts with
    | .sign "?" :: rest => do
      let (yes, rest) ← transformed? fuel rest
      let rest ← expect? ":" rest
      let (no, rest) ← transformed? fuel rest
      choices? fuel (.conditional test yes no) rest
    | _ => some (test, ts)

def transformed? : Nat → List Token → Option (Expr × List Token)
  | 0, _ => none
  | fuel + 1, ts => do
    let (e, ts) ← primary? fuel ts
    let (e, ts) ← parts? fuel e ts
    transforms? fuel e ts

/-- Transforms `| name` or `| name(args)` after a subject. -/
def transforms? : Nat → Expr → List Token → Option (Expr × List Token)
  | 0, _, _ => none
  | fuel + 1, subject, ts =>
    match ts with
    | .sign "|" :: .name id :: .sign "(" :: rest => do
      let (args, rest) ← items? fuel ")" rest
      transforms? fuel (.transform subject id args) rest
    | .sign "|" :: .name id :: rest => transforms? fuel (.transform subject id []) rest
    | .sign "|" :: _ => none
    | _ => some (subject, ts)

/-- Members, places and filters after a subject. -/
def parts? : Nat → Expr → List Token → Option (Expr × List Token)
  | 0, _, _ => none
  | fuel + 1, subject, ts =>
    match ts with
    | .sign "." :: .name id :: rest => parts? fuel (.member subject id) rest
    | .sign "." :: _ => none
    | .sign "[" :: .sign "." :: .name id :: .sign s :: rest => do
      let op ← comparisons.lookup s
      let (right, rest) ← primary? fuel rest
      let rest ← expect? "]" rest
      parts? fuel (.filter subject id op right) rest
    | .sign "[" :: rest => do
      let (place, rest) ← binary? fuel levels rest
      let rest ← expect? "]" rest
      parts? fuel (.index subject place) rest
    | _ => some (subject, ts)

def primary? : Nat → List Token → Option (Expr × List Token)
  | 0, _ => none
  | fuel + 1, ts =>
    match ts with
    | .number x :: rest => some (.number x, rest)
    | .text s :: rest => some (.text s, rest)
    | .name id :: rest => some (.ident id, rest)
    | .sign "true" :: rest => some (.bool true, rest)
    | .sign "false" :: rest => some (.bool false, rest)
    | .sign "null" :: rest => some (.null, rest)
    | .sign "(" :: rest => do
      let (e, rest) ← binary? fuel levels rest
      let rest ← expect? ")" rest
      some (e, rest)
    | .sign "[" :: rest => do
      let (items, rest) ← items? fuel "]" rest
      some (.list items, rest)
    | .sign "\x7b" :: rest => do
      let (fields, rest) ← fields? fuel rest
      some (.record fields, rest)
    | _ => none

/-- Expressions with commas between them up to a closing mark; a last comma is allowed. -/
def items? : Nat → String → List Token → Option (List Expr × List Token)
  | 0, _, _ => none
  | fuel + 1, closing, ts =>
    match expect? closing ts with
    | some rest => some ([], rest)
    | none => do
      let (e, rest) ← binary? fuel levels ts
      match expect? closing rest with
      | some rest => some ([e], rest)
      | none => do
        let rest ← expect? "," rest
        let (es, rest) ← items? fuel closing rest
        some (e :: es, rest)

def fields? : Nat → List Token → Option (List (String × Expr) × List Token)
  | 0, _ => none
  | fuel + 1, ts =>
    match expect? "\x7d" ts with
    | some rest => some ([], rest)
    | none => do
      let (key, rest) ← key? ts
      let rest ← expect? ":" rest
      let (e, rest) ← binary? fuel levels rest
      match expect? "\x7d" rest with
      | some rest => some ([(key, e)], rest)
      | none => do
        let rest ← expect? "," rest
        let (fields, rest) ← fields? fuel rest
        some ((key, e) :: fields, rest)

end

end Parser

/-- The expression that a text stands for. Every word of it allows for twelve nested steps. -/
def parse? (text : String) : Option Expr := do
  let tokens ← Token.ofText? text
  let (e, rest) ← Parser.binary? (12 * (tokens.length + 1)) Parser.levels tokens
  if rest.isEmpty then some e else none

end Workflow.Expr
