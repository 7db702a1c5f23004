import Workflow.Number.Base
import Workflow.Number.Read
import Workflow.Number.Word
import Workflow.Tree

namespace Workflow.Json.Reader

open Workflow.Number

def isSpace (c : Char) : Bool := c = ' ' ∨ c = '\n' ∨ c = '\t' ∨ c = '\r'

def skipSpace (cs : List Char) : List Char := cs.dropWhile isSpace

/-- Four hexadecimal digits. -/
def hex4? : List Char → Option (Nat × List Char)
  | a :: b :: c :: d :: rest => (ofBase? 16 [a, b, c, d]).map (fun n => (n, rest))
  | _ => none

/-- The character of an escape after its `u`; a surrogate counts only with its partner. -/
def unicodeEscape? (cs : List Char) : Option (Char × List Char) := do
  let (n, rest) ← hex4? cs
  if 0xD800 ≤ n ∧ n < 0xDC00 then
    match rest with
    | '\\' :: 'u' :: rest =>
      let (m, rest) ← hex4? rest
      if 0xDC00 ≤ m ∧ m < 0xE000 then
        some (Char.ofNat (0x10000 + (n - 0xD800) * 0x400 + (m - 0xDC00)), rest)
      else none
    | _ => none
  else if 0xDC00 ≤ n ∧ n < 0xE000 then none
  else some (Char.ofNat n, rest)

def simpleEscape? : Char → Option Char
  | '"' => some '"'
  | '\\' => some '\\'
  | '/' => some '/'
  | 'b' => some '\x08'
  | 'f' => some '\x0c'
  | 'n' => some '\n'
  | 'r' => some '\r'
  | 't' => some '\t'
  | _ => none

/-- The rest of a string after its opening quote; `done` is what was read, last first. -/
def string? : Nat → List Char → List Char → Option (String × List Char)
  | 0, _, _ => none
  | _, _, [] => none
  | fuel + 1, done, c :: rest =>
    if c = '"' then some (String.ofList done.reverse, rest)
    else if c = '\\' then
      match rest with
      | 'u' :: rest => do
        let (d, rest) ← unicodeEscape? rest
        string? fuel (d :: done) rest
      | e :: rest => do
        let d ← simpleEscape? e
        string? fuel (d :: done) rest
      | [] => none
    else if c.toNat < 0x20 then none
    else string? fuel (c :: done) rest

/-- The largest significand that is kept: later digits count for nothing but their place. -/
def significandLimit : Nat := word64

/-- Digits of a fraction added to a significand `n` while it stays below the limit; the result, and
how many were taken. -/
def addFraction : Nat → List Char → Nat × Nat
  | n, [] => (n, 0)
  | n, d :: rest =>
    let m := 10 * n + (d.toNat - '0'.toNat)
    if m < significandLimit then
      let (k, taken) := addFraction m rest
      (k, taken + 1)
    else (n, 0)

/-- Digits of a whole part: the significand, and the number of digits beyond the limit. -/
def addWhole : Nat → List Char → Nat × Nat
  | n, [] => (n, 0)
  | n, d :: rest =>
    let m := 10 * n + (d.toNat - '0'.toNat)
    if m < significandLimit then addWhole m rest else (n, rest.length + 1)

/-- The exponent at the front of a text; nothing when its digits are missing. -/
def exponent? (cs : List Char) : Option (Int × List Char) :=
  let (negative, rest) :=
    match cs with
    | '-' :: rest => (true, rest)
    | '+' :: rest => (false, rest)
    | _ => (false, cs)
  let (ds, rest) := takeDigits rest
  if ds.isEmpty then none
  else some (if negative then -(ofDigits ds : Int) else (ofDigits ds : Int), rest)

def signed (negative : Bool) (x : Float) : Float := if negative then -x else x

/-- A number after its sign. Whole numbers of 64 bits stay whole, all others become floats. -/
def number? (negative : Bool) (cs : List Char) : Option (Scalar × List Char) :=
  let (whole, rest) := takeDigits cs
  match whole with
  | [] => none
  | '0' :: _ :: _ => none
  | _ =>
    let (n, dropped) := addWhole 0 whole
    let finish (n : Nat) (e : Int) (rest : List Char) : Option (Scalar × List Char) := do
      let x ← scale? (Float.ofNat n) e
      some (.float (signed negative x), rest)
    let withExponent (n : Nat) (e : Int) (rest : List Char) : Option (Scalar × List Char) :=
      match rest with
      | c :: tail =>
        if c = 'e' ∨ c = 'E' then do
          let (k, tail) ← exponent? tail
          finish n (e + k) tail
        else finish n e rest
      | [] => finish n e rest
    match rest with
    | '.' :: tail =>
      let (fraction, tail) := takeDigits tail
      if fraction.isEmpty then none
      else
        let (m, taken) := addFraction n fraction
        withExponent m (dropped - taken) tail
    | c :: _ =>
      if c = 'e' ∨ c = 'E' ∨ 0 < dropped then withExponent n dropped rest
      else some (whole64 n, rest)
    | [] => if 0 < dropped then withExponent n dropped rest else some (whole64 n, rest)
where
  whole64 (n : Nat) : Scalar :=
    if ¬ negative then .int n
    else if n = 0 ∨ half64 < n then .float (-(Float.ofNat n))
    else .int (-n)

def word? (name : List Char) (s : Scalar) (cs : List Char) : Option (Tree × List Char) :=
  if name.isPrefixOf cs then some (.scalar s, cs.drop name.length) else none

mutual

/-- One value at the front of a text, with at most `depth` levels of lists and maps. -/
def value? (depth : Nat) : Nat → List Char → Option (Tree × List Char)
  | 0, _ => none
  | fuel + 1, cs =>
    match skipSpace cs with
    | 'n' :: rest => word? ['u', 'l', 'l'] .null rest
    | 't' :: rest => word? ['r', 'u', 'e'] (.bool true) rest
    | 'f' :: rest => word? ['a', 'l', 's', 'e'] (.bool false) rest
    | '"' :: rest => (string? (rest.length + 1) [] rest).map (fun r => (.scalar (.text r.1), r.2))
    | '-' :: rest => (number? true rest).map (fun r => (.scalar r.1, r.2))
    | '[' :: rest =>
      if depth = 0 then none
      else
        match skipSpace rest with
        | ']' :: rest => some (.list none [], rest)
        | rest => (items? (depth - 1) fuel rest).map (fun r => (.list none r.1, r.2))
    | '{' :: rest =>
      if depth = 0 then none
      else
        match skipSpace rest with
        | '}' :: rest => some (.map none [], rest)
        | rest => (entries? (depth - 1) fuel rest).map (fun r => (.map none r.1, r.2))
    | rest => (number? false rest).map (fun r => (.scalar r.1, r.2))

def items? (depth : Nat) : Nat → List Char → Option (List Tree × List Char)
  | 0, _ => none
  | fuel + 1, cs => do
    let (item, rest) ← value? depth fuel cs
    match skipSpace rest with
    | ',' :: rest => do
      let (items, rest) ← items? depth fuel rest
      some (item :: items, rest)
    | ']' :: rest => some ([item], rest)
    | _ => none

def entries? (depth : Nat) : Nat → List Char → Option (List (Tree × Tree) × List Char)
  | 0, _ => none
  | fuel + 1, cs =>
    match skipSpace cs with
    | '"' :: rest => do
      let (name, rest) ← string? (rest.length + 1) [] rest
      match skipSpace rest with
      | ':' :: rest => do
        let (v, rest) ← value? depth fuel rest
        let entry : Tree × Tree := (.scalar (.text name), v)
        match skipSpace rest with
        | ',' :: rest => do
          let (entries, rest) ← entries? depth fuel rest
          some (entry :: entries, rest)
        | '}' :: rest => some ([entry], rest)
        | _ => none
      | _ => none
    | _ => none

end

/-- The levels of lists and maps that a text may have. -/
def depthLimit : Nat := 127

end Workflow.Json.Reader

namespace Workflow.Tree

open Json.Reader in
/-- The tree of a whole JSON text. -/
def ofJsonText? (text : String) : Option Tree := do
  let cs := text.toList
  let (tree, rest) ← value? depthLimit (cs.length + 1) cs
  if (skipSpace rest).isEmpty then some tree else none

end Workflow.Tree
