import Workflow.Number.Base
import Workflow.Yaml.Cursor

namespace Workflow.Yaml

/-- White space between the words of a scalar: blanks on one line, or the first line end and those
after it. -/
structure Spacing where
  broken : Bool := false
  blanks : List Char := []
  first : List Char := []
  later : List Char := []

namespace Spacing

/-- What the white space counts for: one line end for a blank, and more line ends for those after the
first. -/
def fold (w : Spacing) : List Char :=
  if !w.broken then w.blanks
  else if w.first = ['\n'] then if w.later.isEmpty then [' '] else w.later
  else w.first ++ w.later

def pass? (margin : Option Nat) : Nat → Spacing → Cursor → Option (Spacing × Cursor)
  | 0, _, _ => none
  | fuel + 1, w, s =>
    match s.rest with
    | [] => some (w, s)
    | c :: _ =>
      if isGap c then
        if w.broken ∧ c = '\t' ∧ margin.any (s.column < ·) then none
        else pass? margin fuel (if w.broken then w else { w with blanks := w.blanks ++ [c] }) s.skip
      else if isLineEnd c then
        let (ending, s') := s.readLine
        if w.broken then pass? margin fuel { w with later := w.later ++ ending } s'
        else pass? margin fuel { w with broken := true, blanks := [], first := ending } s'
      else some (w, s)

end Spacing

/-- The character of an escape after its backslash, and the length of the escape. -/
def escape? : List Char → Option (Char × Nat)
  | '0' :: _ => some ('\x00', 1)
  | 'a' :: _ => some ('\x07', 1)
  | 'b' :: _ => some ('\x08', 1)
  | 't' :: _ => some ('\t', 1)
  | '\t' :: _ => some ('\t', 1)
  | 'n' :: _ => some ('\n', 1)
  | 'v' :: _ => some ('\x0b', 1)
  | 'f' :: _ => some ('\x0c', 1)
  | 'r' :: _ => some ('\r', 1)
  | 'e' :: _ => some ('\x1b', 1)
  | ' ' :: _ => some (' ', 1)
  | '"' :: _ => some ('"', 1)
  | '/' :: _ => some ('/', 1)
  | '\\' :: _ => some ('\\', 1)
  | 'N' :: _ => some ('\x85', 1)
  | '_' :: _ => some ('\u00a0', 1)
  | 'L' :: _ => some ('\u2028', 1)
  | 'P' :: _ => some ('\u2029', 1)
  | 'x' :: rest => (Number.numberedChar? 2 rest).map (fun c => (c, 3))
  | 'u' :: rest => (Number.numberedChar? 4 rest).map (fun c => (c, 5))
  | 'U' :: rest => (Number.numberedChar? 8 rest).map (fun c => (c, 9))
  | _ => none

/-- A word of a quoted scalar, up to white space or the closing quote. A backslash before a line end
makes the white space after it start with that line end. -/
def quotedWord? (single : Bool) : Nat → List Char → Cursor → Option (List Char × Bool × Cursor)
  | 0, _, _ => none
  | fuel + 1, word, s =>
    if s.endsAt 0 then some (word, false, s)
    else
      match s.rest with
      | '\'' :: '\'' :: _ =>
        if single then quotedWord? single fuel (word ++ ['\'']) (s.advance 2)
        else quotedWord? single fuel (word ++ ['\'']) s.skip
      | '\'' :: _ =>
        if single then some (word, false, s) else quotedWord? single fuel (word ++ ['\'']) s.skip
      | '"' :: _ =>
        if single then quotedWord? single fuel (word ++ ['"']) s.skip else some (word, false, s)
      | '\\' :: rest =>
        if single then quotedWord? single fuel (word ++ ['\\']) s.skip
        else if rest.head?.any isLineEnd then some (word, true, s.skip.skipLine)
        else
          match escape? rest with
          | some (c, n) => quotedWord? single fuel (word ++ [c]) (s.advance (n + 1))
          | none => none
      | c :: _ => quotedWord? single fuel (word ++ [c]) s.skip
      | [] => none

/-- A quoted scalar after its opening quote. -/
def quoted? (single : Bool) : Nat → List Char → Cursor → Option (List Char × Cursor)
  | 0, _, _ => none
  | fuel + 1, text, s =>
    if s.atDocumentMark ∨ s.atEnd then none
    else
      match quotedWord? single (s.rest.length + 1) [] s with
      | none => none
      | some (word, joined, s) =>
        if s.starts (if single then '\'' else '"') then some (text ++ word, s.skip)
        else
          match Spacing.pass? none (s.rest.length + 1) { broken := joined } s with
          | none => none
          | some (w, s) => quoted? single fuel (text ++ word ++ w.fold) s

def isFlowMark (c : Char) : Bool := c ∈ [',', '[', ']', '\x7b', '\x7d']

/-- A word of a bare scalar; nothing when a colon stands where it may not. -/
def bareWord? (inFlow : Bool) : Nat → List Char → Cursor → Option (List Char × Cursor)
  | 0, _, _ => none
  | fuel + 1, word, s =>
    match s.rest with
    | [] => some (word, s)
    | c :: rest =>
      if isGap c ∨ isLineEnd c then some (word, s)
      else if inFlow ∧ c = ':' ∧ rest.head?.any (fun d => isFlowMark d ∨ d = '?') then none
      else if (c = ':' ∧ s.endsAt 1) ∨ (inFlow ∧ isFlowMark c) then some (word, s)
      else bareWord? inFlow fuel (word ++ [c]) s.skip

/-- A bare scalar: its text, what follows it, and whether it ends with a line. -/
def bare? (inFlow : Bool) (margin : Nat) :
    Nat → List Char → Spacing → Cursor → Option (List Char × Bool × Cursor)
  | 0, _, _, _ => none
  | fuel + 1, text, w, s =>
    if s.atDocumentMark ∨ s.starts '#' then some (text, w.broken, s)
    else
      match bareWord? inFlow (s.rest.length + 1) [] s with
      | none => none
      | some (word, s) =>
        let text := if word.isEmpty then text else text ++ w.fold ++ word
        let w : Spacing := if word.isEmpty then w else {}
        if !(s.atGap || s.atLineEnd) then some (text, w.broken, s)
        else
          match Spacing.pass? (some margin) (s.rest.length + 1) w s with
          | none => none
          | some (w, s) =>
            if !inFlow ∧ s.column < margin then some (text, w.broken, s)
            else bare? inFlow margin fuel text w s

/-- What happens to the line ends after a block. -/
inductive Chomping where
  | strip
  | clip
  | keep
  deriving DecidableEq

/-- The head of a block: chomping and indentation in either order. -/
def blockHead? (s : Cursor) : Option (Chomping × Option Nat × Cursor) :=
  let mark? : Option Char → Option Chomping
    | some '+' => some .keep
    | some '-' => some .strip
    | _ => none
  let digit? (c : Option Char) : Option Nat :=
    c.bind (fun c => if c.isDigit then some (c.toNat - '0'.toNat) else none)
  match mark? (s.at? 0), digit? (s.at? 0) with
  | some k, _ =>
    match digit? (s.at? 1) with
    | some 0 => none
    | some n => some (k, some n, s.advance 2)
    | none => some (k, none, s.skip)
  | none, some 0 => none
  | none, some n =>
    match mark? (s.at? 1) with
    | some k => some (k, some n, s.advance 2)
    | none => some (.clip, some n, s.skip)
  | none, none => some (.clip, none, s)

/-- The line ends before a line of a block, and the widest indentation among them. Without a known
indentation every space counts. -/
def blockGaps? (known : Option Nat) :
    Nat → List Char → Nat → Cursor → Option (List Char × Nat × Cursor)
  | 0, _, _, _ => none
  | fuel + 1, breaks, widest, s =>
    let spaces := (s.rest.takeWhile (· = ' ')).length
    let s := s.advance (match known with | some n => min spaces (n - s.column) | none => spaces)
    let widest := max widest s.column
    if known.all (s.column < ·) ∧ s.starts '\t' then none
    else if s.atLineEnd then
      let (ending, s) := s.readLine
      blockGaps? known fuel (breaks ++ ending) widest s
    else some (breaks, widest, s)

/-- What was read of a block: its text, the line end after its last line, whether that line started
with a blank, and the further line ends. -/
structure BlockLines where
  text : List Char := []
  ending : List Char := []
  blank : Bool := false
  breaks : List Char

def blockLines? (folded : Bool) (margin : Nat) : Nat → BlockLines → Cursor → Option (BlockLines × Cursor)
  | 0, _, _ => none
  | fuel + 1, b, s =>
    if s.column ≠ margin ∨ s.atEnd then some (b, s)
    else
      let blank := s.atGap
      let joint :=
        if folded ∧ b.ending = ['\n'] ∧ !b.blank ∧ !blank then
          if b.breaks.isEmpty then [' '] else []
        else b.ending
      let line := s.rest.takeWhile (fun c => !isLineEnd c)
      let (ending, s) := (s.advance line.length).readLine
      match blockGaps? (some margin) (s.rest.length + 1) [] 0 s with
      | none => none
      | some (breaks, _, s) =>
        blockLines? folded margin fuel ⟨b.text ++ joint ++ b.breaks ++ line, ending, blank, breaks⟩ s

def block? (folded : Bool) (parent : Option Nat) (s : Cursor) : Option (List Char × Cursor) := do
  let (chomping, step, s) ← blockHead? s
  let s ← s.finishLine?
  let known := step.map (fun n => parent.getD 0 + n)
  let (breaks, widest, s) ← blockGaps? known (s.rest.length + 1) [] 0 s
  let margin := known.getD (max widest (max (parent.elim 0 (· + 1)) 1))
  let (b, s) ← blockLines? folded margin (s.rest.length + 1) { breaks } s
  some (b.text ++ (if chomping = .strip then [] else b.ending)
    ++ (if chomping = .keep then b.breaks else []), s)

end Workflow.Yaml
