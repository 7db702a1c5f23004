import Workflow.Tree.Resolve

namespace Workflow.Schema

/-- What texts hold: another text in base64, a JSON document, or a JSON document in base64. -/
inductive Content where
  | base64
  | json
  | jsonInBase64

namespace Content

/-- What is wrong with a text that holds something else. -/
inductive Flaw where
  | encoding
  | mediaType
  | brokenText (index : Nat) (length : Option Nat)

/-- The value of a digit of base64. -/
def digit? (c : Char) : Option Nat :=
  if c.isUpper then some (c.toNat - 'A'.toNat)
  else if c.isLower then some (c.toNat - 'a'.toNat + 26)
  else if c.isDigit then some (c.toNat - '0'.toNat + 52)
  else if c = '+' then some 62
  else if c = '/' then some 63
  else none

/-- The bytes of a text in base64. The last group may stand for one or two bytes; equality signs then fill
it, and the bits that are left over are zero. -/
def decode? : List Char → Option (List Nat)
  | [] => some []
  | [a, b, '=', '='] => do
    let a ← digit? a
    let b ← digit? b
    if b % 16 = 0 then some [a * 4 + b / 16] else none
  | [a, b, c, '='] => do
    let a ← digit? a
    let b ← digit? b
    let c ← digit? c
    if c % 4 = 0 then some [a * 4 + b / 16, b % 16 * 16 + c / 4] else none
  | a :: b :: c :: d :: rest => do
    let a ← digit? a
    let b ← digit? b
    let c ← digit? c
    let d ← digit? d
    let bytes ← decode? rest
    some ([a * 4 + b / 16, b % 16 * 16 + c / 4, c % 4 * 64 + d] ++ bytes)
  | _ => none

/-- The ranges in which the bytes after a first byte lie, when characters may start with it. -/
def followers? (n : Nat) : Option (List (Nat × Nat)) :=
  if n < 0x80 then some []
  else if n < 0xC2 then none
  else if n < 0xE0 then some [(0x80, 0xBF)]
  else if n = 0xE0 then some [(0xA0, 0xBF), (0x80, 0xBF)]
  else if n = 0xED then some [(0x80, 0x9F), (0x80, 0xBF)]
  else if n < 0xF0 then some [(0x80, 0xBF), (0x80, 0xBF)]
  else if n = 0xF0 then some [(0x90, 0xBF), (0x80, 0xBF), (0x80, 0xBF)]
  else if n < 0xF4 then some [(0x80, 0xBF), (0x80, 0xBF), (0x80, 0xBF)]
  else if n = 0xF4 then some [(0x80, 0x8F), (0x80, 0xBF), (0x80, 0xBF)]
  else none

/-- The first place at which bytes are no UTF-8 text, and how many of them there cannot start a
character; nothing for the number when only the end is missing. `start` is where the current character
starts, and `wanted` are the ranges of its bytes that are still to come. -/
def flaw? (start here : Nat) (wanted : List (Nat × Nat)) : List Nat → Option Flaw
  | [] => if wanted.isEmpty then none else some (.brokenText start none)
  | n :: rest =>
    match wanted with
    | (low, high) :: wanted =>
      if low ≤ n ∧ n ≤ high then flaw? start (here + 1) wanted rest
      else some (.brokenText start (some (here - start)))
    | [] =>
      match followers? n with
      | some wanted => flaw? here (here + 1) wanted rest
      | none => some (.brokenText here (some 1))

/-- The number of a character that UTF-8 bytes encode. -/
def joined (first : Nat) (later : List Nat) : Nat :=
  let kept := match later.length with
    | 0 => first
    | 1 => first % 32
    | 2 => first % 16
    | _ => first % 8
  later.foldl (fun n b => 64 * n + b % 64) kept

/-- The text of UTF-8 bytes without a flaw. -/
def textOf : List Nat → List Char
  | [] => []
  | n :: rest =>
    let count := ((followers? n).getD []).length
    Char.ofNat (joined n (rest.take count)) :: textOf (rest.drop count)
  termination_by bytes => bytes.length
  decreasing_by simp only [List.length_drop, List.length_cons]; omega

def isJsonText (s : String) : Bool := (Json.parse? s).isSome

/-- What is wrong with a text. -/
def check (c : Content) (s : String) : Option Flaw :=
  match c with
  | base64 => if (decode? s.toList).isSome then none else some .encoding
  | json => if isJsonText s then none else some .mediaType
  | jsonInBase64 =>
    match decode? s.toList with
    | none => some .encoding
    | some bytes =>
      match flaw? 0 0 [] bytes with
      | some flaw => some flaw
      | none => if isJsonText (String.ofList (textOf bytes)) then none else some .mediaType

end Content

end Workflow.Schema
