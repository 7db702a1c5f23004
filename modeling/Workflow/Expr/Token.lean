import Workflow.Number.Read

namespace Workflow.Expr

/-- A word of an expression. Reserved words and marks are signs. -/
inductive Token where
  | number (x : Float)
  | text (s : String)
  | name (id : String)
  | sign (s : String)
  deriving Inhabited

namespace Token

def isNameStart (c : Char) : Bool := c.isAlpha || c = '_'

def isNamePart (c : Char) : Bool := c.isAlphanum || c = '_'

def isSpace (c : Char) : Bool := c = ' ' || (9 ≤ c.toNat && c.toNat ≤ 13)

def reserved : List String := ["true", "false", "null", "in"]

/-- The marks of two characters. -/
def doubleSigns : List (Char × Char) :=
  [('&', '&'), ('|', '|'), ('=', '='), ('!', '='), ('>', '='), ('<', '='), ('/', '/')]

def singleSigns : List Char :=
  ['>', '<', '+', '-', '*', '/', '%', '^', '?', ':', '|', '.', ',', '[', ']', '(', ')', '\x7b', '\x7d']

/-- The rest of a text after its opening quote. Of all characters only the quote may follow a
backslash. -/
def quoted? (quote : Char) : List Char → List Char → Option (String × List Char)
  | _, [] => none
  | done, '\\' :: c :: rest => if c = quote then quoted? quote (c :: done) rest else none
  | done, c :: rest =>
    if c = quote then some (String.ofList done.reverse, rest)
    else if c = '\\' then none
    else quoted? quote (c :: done) rest

/-- A number without exponent: digits, digits with a fraction, or a fraction alone. -/
def number? (cs : List Char) : Option (Float × List Char) :=
  let (whole, rest) := Number.takeDigits cs
  let (fraction, after) :=
    match rest with
    | '.' :: rest => Number.takeDigits rest
    | _ => ([], rest)
  if fraction.isEmpty then
    if whole.isEmpty then none else some (Number.nearest (Number.ofDigits whole) 0, rest)
  else some (Number.nearest (Number.ofDigits (whole ++ fraction)) (-fraction.length), after)

/-- The word at the front of a text that does not start with a space. -/
def next? (cs : List Char) : Option (Token × List Char) :=
  match number? cs with
  | some (x, rest) => some (number x, rest)
  | none =>
    match cs with
    | [] => none
    | c :: rest =>
      if c = '"' ∨ c = '\'' then (quoted? c [] rest).map (fun r => (text r.1, r.2))
      else if isNameStart c then
        let id := String.ofList (cs.takeWhile isNamePart)
        some (if id ∈ reserved then sign id else name id, cs.dropWhile isNamePart)
      else
        match rest with
        | d :: rest' =>
          if (c, d) ∈ doubleSigns then some (sign (String.ofList [c, d]), rest')
          else if c ∈ singleSigns then some (sign (String.singleton c), rest)
          else none
        | [] => if c ∈ singleSigns then some (sign (String.singleton c), rest) else none

/-- The words of a text, which has at most `fuel` of them. -/
def scan? : Nat → List Char → Option (List Token)
  | fuel, cs =>
    match cs.dropWhile isSpace with
    | [] => some []
    | cs =>
      match fuel with
      | 0 => none
      | fuel + 1 => do
        let (token, rest) ← next? cs
        let tokens ← scan? fuel rest
        some (token :: tokens)

def ofText? (s : String) : Option (List Token) := scan? s.length s.toList

end Token

end Workflow.Expr
