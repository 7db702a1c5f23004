import Workflow.Tree
import Workflow.Yaml.Scalar

namespace Workflow.Yaml

/-- A tag as it is written: a handle that stands for a text in front, and the rest. -/
structure WrittenTag where
  handle : String
  suffix : String

/-- The pieces of a text. Where lines are indented, marks for the ends of blocks are among them. -/
inductive Token where
  | versionDirective (major minor : Nat)
  | tagDirective (handle start : String)
  | documentStart
  | documentEnd
  | listStart
  | mapStart
  | blockEnd
  | flowListStart
  | flowListEnd
  | flowMapStart
  | flowMapEnd
  | entry
  | comma
  | key
  | value
  | alias (name : String)
  | anchor (name : String)
  | tag (t : WrittenTag)
  | scalar (text : String) (style : Style)
  | finish

/-- The characters that tags consist of, besides those of names. -/
def isTagChar (verbatim : Bool) (c : Char) : Bool :=
  isNameChar c
  || c ∈ [';', '/', '?', ':', '@', '&', '=', '+', '$', '.', '!', '~', '*', '\'', '(', ')']
  || (verbatim && c ∈ [',', '[', ']'])

def byte? : List Char → Option (UInt8 × List Char)
  | '%' :: a :: b :: rest => do
    let n ← Number.ofBase? 16 [a, b]
    some (n.toUInt8, rest)
  | _ => none

/-- The number of bytes of a character by its first one. -/
def widthOf (b : UInt8) : Nat :=
  if b < 0x80 then 1 else if b < 0xC0 then 0 else if b < 0xE0 then 2 else if b < 0xF0 then 3
  else if b < 0xF8 then 4 else 0

def bytes? : Nat → List Char → Option (List UInt8 × List Char)
  | 0, cs => some ([], cs)
  | n + 1, cs => do
    let (b, cs) ← byte? cs
    let (bs, cs) ← bytes? n cs
    some (b :: bs, cs)

def percent? (cs : List Char) : Option (Char × Nat) := do
  let (b, _) ← byte? cs
  let width := widthOf b
  let (bs, _) ← bytes? width cs
  let s ← String.fromUTF8? ⟨bs.toArray⟩
  match s.toList with
  | [c] => some (c, 3 * width)
  | _ => none

def tagText? (verbatim : Bool) : Nat → List Char → Cursor → Option (List Char × Cursor)
  | 0, _, _ => none
  | fuel + 1, text, s =>
    match s.rest with
    | '%' :: _ =>
      match percent? s.rest with
      | some (c, n) => tagText? verbatim fuel (text ++ [c]) (s.advance n)
      | none => none
    | c :: _ =>
      if isTagChar verbatim c then tagText? verbatim fuel (text ++ [c]) s.skip else some (text, s)
    | [] => some (text, s)

/-- A tag handle: an exclamation mark, alone or in front of a name, and one after the name. -/
def tagHandle? (s : Cursor) : Option (List Char × Cursor) :=
  match s.rest with
  | '!' :: rest =>
    let name := rest.takeWhile isNameChar
    let s := s.advance (name.length + 1)
    if s.starts '!' then some ('!' :: (name ++ ['!']), s.skip) else some ('!' :: name, s)
  | _ => none

def isFullHandle (handle : List Char) : Bool := 1 < handle.length && handle.getLast? = some '!'

/-- A tag: verbatim between angle brackets, with a handle, or one of the document's own. -/
def tag? (inFlow : Bool) (s : Cursor) : Option (WrittenTag × Cursor) := do
  let (t, s) ←
    if s.at? 1 = some '<' then do
      let s := s.advance 2
      let (text, s) ← tagText? true (s.rest.length + 1) [] s
      if text.isEmpty ∨ !s.starts '>' then none
      else some ((⟨"", String.ofList text⟩ : WrittenTag), s.skip)
    else do
      let (handle, s) ← tagHandle? s
      if isFullHandle handle then do
        let (text, s) ← tagText? false (s.rest.length + 1) [] s
        if text.isEmpty then none else some (⟨String.ofList handle, String.ofList text⟩, s)
      else do
        let (text, s) ← tagText? false (s.rest.length + 1) (handle.drop 1) s
        if text.isEmpty then some (⟨"", "!"⟩, s) else some (⟨"!", String.ofList text⟩, s)
  if s.endsAt 0 ∨ (inFlow ∧ s.starts ',') then some (t, s) else none

def anchorName? (s : Cursor) : Option (String × Cursor) :=
  let name := s.rest.takeWhile isNameChar
  let s := s.advance name.length
  if name.isEmpty then none
  else if s.endsAt 0 ∨ s.startsWith (fun c => c ∈ ['?', ':', ',', ']', '\x7d', '%', '@', '`']) then
    some (String.ofList name, s)
  else none

def versionNumber? (s : Cursor) : Option (Nat × Cursor) :=
  let ds := s.rest.takeWhile Char.isDigit
  if ds.isEmpty ∨ 9 < ds.length then none
  else some (ds.foldl (fun n c => 10 * n + (c.toNat - '0'.toNat)) 0, s.advance ds.length)

def directive? (s : Cursor) : Option (Token × Cursor) := do
  let name := s.rest.takeWhile isNameChar
  let s := s.advance name.length
  if !s.endsAt 0 then none
  else
    let s := s.skipWhile isGap
    match String.ofList name with
    | "YAML" => do
      let (major, s) ← versionNumber? s
      if !s.starts '.' then none
      else
        let (minor, s) ← versionNumber? s.skip
        let s ← s.finishLine?
        some (.versionDirective major minor, s)
    | "TAG" => do
      let (handle, s) ← tagHandle? s
      if !(handle = ['!'] ∨ isFullHandle handle) ∨ !s.atGap then none
      else
        let s := s.skipWhile isGap
        let (start, s) ← tagText? true (s.rest.length + 1) [] s
        if start.isEmpty ∨ !s.endsAt 0 then none
        else
          let s ← s.finishLine?
          some (.tagDirective (String.ofList handle) (String.ofList start), s)
    | _ => none

end Workflow.Yaml
