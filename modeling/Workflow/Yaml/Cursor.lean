namespace Workflow.Yaml

/-- What is left of a text, and where it starts: characters in front of it, lines, and characters in
front of it on its own line. -/
structure Cursor where
  rest : List Char
  index : Nat := 0
  line : Nat := 0
  column : Nat := 0

def isLineEnd (c : Char) : Bool :=
  c = '\n' ∨ c = '\r' ∨ c = '\x85' ∨ c = '\u2028' ∨ c = '\u2029'

def isGap (c : Char) : Bool := c = ' ' ∨ c = '\t'

def isNameChar (c : Char) : Bool := c.isAlphanum ∨ c = '-' ∨ c = '_'

/-- The characters that may stand in a text. -/
def isAllowed (c : Char) : Bool :=
  let n := c.toNat
  n = 9 || n = 10 || n = 13 || (0x20 ≤ n && n ≤ 0x7E) || n = 0x85 || (0xA0 ≤ n && n ≤ 0xD7FF)
    || (0xE000 ≤ n && n ≤ 0xFFFD && n ≠ 0xFEFF) || 0x10000 ≤ n

namespace Cursor

def at? (s : Cursor) (distance : Nat) : Option Char := s.rest[distance]?

def atEnd (s : Cursor) : Bool := s.rest.isEmpty

def starts (s : Cursor) (c : Char) : Bool := s.rest.head? = some c

def startsWith (s : Cursor) (test : Char → Bool) : Bool := s.rest.head?.any test

/-- Whether a gap, a line end or the end of the text is at a distance. -/
def endsAt (s : Cursor) (distance : Nat) : Bool :=
  (s.at? distance).all (fun c => isGap c || isLineEnd c)

def atLineEnd (s : Cursor) : Bool := s.startsWith isLineEnd

def atGap (s : Cursor) : Bool := s.startsWith isGap

def advance (s : Cursor) (n : Nat) : Cursor :=
  { s with rest := s.rest.drop n, index := s.index + n, column := s.column + n }

def skip (s : Cursor) : Cursor := s.advance 1

/-- Pass characters of the same line as long as a test holds. -/
def skipWhile (s : Cursor) (test : Char → Bool) : Cursor :=
  s.advance (s.rest.takeWhile test).length

def skipLine (s : Cursor) : Cursor :=
  let n := match s.rest with
    | '\r' :: '\n' :: _ => 2
    | _ => 1
  { s with rest := s.rest.drop n, index := s.index + n, line := s.line + 1, column := 0 }

/-- The line end at the front, in its usual form, and what follows; nothing is read elsewhere. -/
def readLine (s : Cursor) : List Char × Cursor :=
  match s.rest with
  | '\u2028' :: _ => (['\u2028'], s.skipLine)
  | '\u2029' :: _ => (['\u2029'], s.skipLine)
  | c :: _ => if isLineEnd c then (['\n'], s.skipLine) else ([], s)
  | [] => ([], s)

/-- Whether a line starts here with a mark between documents. -/
def atMark (s : Cursor) (mark : Char) : Bool :=
  s.column = 0 && s.rest.take 3 = [mark, mark, mark] && s.endsAt 3

def atDocumentMark (s : Cursor) : Bool := s.atMark '-' || s.atMark '.'

/-- Pass the gaps and the comment before a line end, and the line end. -/
def finishLine? (s : Cursor) : Option Cursor :=
  let s := s.skipWhile isGap
  let s := if s.starts '#' then s.skipWhile (fun c => !isLineEnd c) else s
  if s.atEnd then some s else if s.atLineEnd then some s.skipLine else none

end Cursor

end Workflow.Yaml
