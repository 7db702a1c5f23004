import Workflow.Yaml.Token

namespace Workflow.Yaml

/-- A place where a key may have started: its token, and where it stands. -/
structure KeyStart where
  required : Bool
  place : Nat
  index : Nat
  line : Nat
  column : Nat

/-- What reading tokens from left to right has to remember: the tokens so far, the indentations of the
open blocks from the inside out, and for each open bracket and the text around them where a key may
have started. -/
structure Layout where
  cursor : Cursor
  tokens : Array Token := #[]
  indents : List Nat := []
  keys : List (Option KeyStart) := [none]
  keyAllowed : Bool := true

namespace Layout

def inFlow (s : Layout) : Bool := 1 < s.keys.length

def emit (s : Layout) (t : Token) : Layout := { s with tokens := s.tokens.push t }

/-- Read a token that consists of the next `n` characters. -/
def take (s : Layout) (n : Nat) (t : Token) : Layout :=
  { s with tokens := s.tokens.push t, cursor := s.cursor.advance n }

/-- Keys have at most this many characters. -/
def longestKey : Nat := 1024

def isStale (c : Cursor) (k : KeyStart) : Bool :=
  k.line < c.line || k.index + longestKey < c.index

/-- Give up the key starts that are too far away; nothing when one of them has to be a key. -/
def expire? (s : Layout) : Option Layout :=
  let stale (k : Option KeyStart) : Bool := k.any (isStale s.cursor)
  if s.keys.any (fun k => stale k && k.any KeyStart.required) then none
  else some { s with keys := s.keys.map (fun k => if stale k then none else k) }

def dropKey? (s : Layout) : Option Layout :=
  match s.keys with
  | k :: rest => if k.any KeyStart.required then none else some { s with keys := none :: rest }
  | [] => some s

def noteKey? (s : Layout) : Option Layout :=
  if !s.keyAllowed then some s
  else do
    let s ← s.dropKey?
    let c := s.cursor
    let required := !s.inFlow && s.indents.head? = some c.column
    let start : KeyStart := ⟨required, s.tokens.size, c.index, c.line, c.column⟩
    some { s with keys := some start :: s.keys.drop 1 }

def openBlock (s : Layout) (column place : Nat) (t : Token) : Layout :=
  if s.inFlow ∨ s.indents.head?.any (column ≤ ·) then s
  else
    { s with
      indents := column :: s.indents
      tokens := (s.tokens.take place).push t ++ s.tokens.drop place }

/-- Close the blocks that are further in than a column. -/
def closeBlocks (s : Layout) (column : Option Nat) : Layout :=
  if s.inFlow then s
  else
    let inner := s.indents.takeWhile (fun n => column.all (· < n))
    { s with
      tokens := s.tokens ++ (inner.map (fun _ => Token.blockEnd)).toArray
      indents := s.indents.drop inner.length }

/-- Pass blanks, comments and line ends up to the next token. -/
def skipSpace : Nat → Layout → Layout
  | 0, s => s
  | fuel + 1, s =>
    let c := s.cursor.skipWhile (fun c => c = ' ' ∨ ((s.inFlow ∨ !s.keyAllowed) ∧ c = '\t'))
    let c := if c.starts '#' then c.skipWhile (fun c => !isLineEnd c) else c
    if c.atLineEnd then
      skipSpace fuel { s with cursor := c.skipLine, keyAllowed := s.keyAllowed || !s.inFlow }
    else { s with cursor := c }

/-- Leave all blocks, as before a mark between documents. -/
def leave? (s : Layout) : Option Layout := do
  let s ← (s.closeBlocks none).dropKey?
  some { s with keyAllowed := false }

def openFlow? (s : Layout) (t : Token) : Option Layout := do
  let s ← s.noteKey?
  some { s.take 1 t with keys := none :: s.keys, keyAllowed := true }

def closeFlow? (s : Layout) (t : Token) : Option Layout := do
  let s ← s.dropKey?
  some { s.take 1 t with keys := if s.inFlow then s.keys.drop 1 else s.keys, keyAllowed := false }

def comma? (s : Layout) : Option Layout := do
  let s ← s.dropKey?
  some { s.take 1 .comma with keyAllowed := true }

def entry? (s : Layout) : Option Layout := do
  if !s.inFlow ∧ !s.keyAllowed then none
  else
    let s ← (s.openBlock s.cursor.column s.tokens.size .listStart).dropKey?
    some { s.take 1 .entry with keyAllowed := true }

def key? (s : Layout) : Option Layout := do
  if !s.inFlow ∧ !s.keyAllowed then none
  else
    let s ← (s.openBlock s.cursor.column s.tokens.size .mapStart).dropKey?
    some { s.take 1 .key with keyAllowed := !s.inFlow }

/-- The mark of a value: what may have been a key is one. -/
def value? (s : Layout) : Option Layout :=
  match s.keys with
  | some k :: rest =>
    let s := { s with
      tokens := (s.tokens.take k.place).push .key ++ s.tokens.drop k.place
      keys := none :: rest }
    let s := s.openBlock k.column k.place .mapStart
    some { s.take 1 .value with keyAllowed := false }
  | _ =>
    if s.inFlow then some { s.take 1 .value with keyAllowed := false }
    else if !s.keyAllowed then none
    else
      let s := s.openBlock s.cursor.column s.tokens.size .mapStart
      some { s.take 1 .value with keyAllowed := true }

/-- A token that may be, or belong to, a key. -/
def atom? (s : Layout) (read : Cursor → Option (Token × Cursor)) : Option Layout := do
  let s ← s.noteKey?
  let (t, c) ← read s.cursor
  some { s.emit t with cursor := c, keyAllowed := false }

def bareScalar? (s : Layout) : Option Layout := do
  let s ← s.noteKey?
  let margin := s.indents.head?.elim 0 (· + 1)
  let (text, broken, c) ← bare? s.inFlow margin (s.cursor.rest.length + 1) [] {} s.cursor
  some { s.emit (.scalar (String.ofList text) .bare) with cursor := c, keyAllowed := broken }

def blockScalar? (s : Layout) (folded : Bool) : Option Layout := do
  let s ← s.dropKey?
  let (text, c) ← block? folded s.indents.head? s.cursor.skip
  some { s.emit (.scalar (String.ofList text) .block) with cursor := c, keyAllowed := true }

def quotedScalar (single : Bool) (c : Cursor) : Option (Token × Cursor) :=
  (quoted? single (c.rest.length + 1) [] c.skip).map (fun r =>
    (.scalar (String.ofList r.1) .quoted, r.2))

/-- Whether a bare scalar may start with a character that is no plain letter. -/
def startsBare (s : Layout) (c : Char) : Bool :=
  (!isGap c && c ∉ ['-', '?', ':', ',', '[', ']', '\x7b', '\x7d', '#', '&', '*', '!', '|', '>', '\'', '"', '%',
    '@', '`'])
  || (c = '-' && !(s.cursor.at? 1).any isGap)
  || (!s.inFlow && (c = '?' || c = ':') && !s.cursor.endsAt 1)

def token? (s : Layout) (c : Char) : Option Layout :=
  let marked := s.inFlow || s.cursor.endsAt 1
  if s.cursor.column = 0 ∧ c = '%' then do
    let s ← s.leave?
    let (t, c) ← directive? s.cursor.skip
    some { s.emit t with cursor := c }
  else if s.cursor.atMark '-' then do
    let s ← s.leave?
    some (s.take 3 .documentStart)
  else if s.cursor.atMark '.' then do
    let s ← s.leave?
    some (s.take 3 .documentEnd)
  else if c = '[' then s.openFlow? .flowListStart
  else if c = '\x7b' then s.openFlow? .flowMapStart
  else if c = ']' then s.closeFlow? .flowListEnd
  else if c = '\x7d' then s.closeFlow? .flowMapEnd
  else if c = ',' then s.comma?
  else if c = '-' ∧ s.cursor.endsAt 1 then s.entry?
  else if c = '?' ∧ marked then s.key?
  else if c = ':' ∧ marked then s.value?
  else if c = '*' then s.atom? (fun c => (anchorName? c.skip).map (fun r => (.alias r.1, r.2)))
  else if c = '&' then s.atom? (fun c => (anchorName? c.skip).map (fun r => (.anchor r.1, r.2)))
  else if c = '!' then s.atom? (fun c => (tag? s.inFlow c).map (fun r => (.tag r.1, r.2)))
  else if c = '|' ∧ !s.inFlow then s.blockScalar? false
  else if c = '>' ∧ !s.inFlow then s.blockScalar? true
  else if c = '\'' then s.atom? (quotedScalar true)
  else if c = '"' then s.atom? (quotedScalar false)
  else if startsBare s c then s.bareScalar?
  else none

def finish? (s : Layout) : Option (Array Token) := do
  let c := s.cursor
  let s := { s with cursor := if c.column = 0 then c else { c with line := c.line + 1, column := 0 } }
  let s ← s.expire?
  let s ← s.leave?
  some (s.tokens.push .finish)

def tokens? : Nat → Layout → Option (Array Token)
  | 0, _ => none
  | fuel + 1, s => do
    let s ← (s.skipSpace (s.cursor.rest.length + 1)).expire?
    let s := s.closeBlocks (some s.cursor.column)
    match s.cursor.rest with
    | [] => s.finish?
    | c :: _ => do
      let s ← s.token? c
      tokens? fuel s

end Layout

/-- The tokens of a text. A byte order mark in front does not count. -/
def tokensOf? (text : String) : Option (List Token) :=
  let cs :=
    match text.toList with
    | '\ufeff' :: rest => rest
    | cs => cs
  if cs.all isAllowed then
    (Layout.tokens? (cs.length + 1) { cursor := { rest := cs } }).map Array.toList
  else none

end Workflow.Yaml
