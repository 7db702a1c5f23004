import Workflow.Json.Basic
import Workflow.Number.Shortest

namespace Workflow.Json

/-- Floats are positional from `0.00001` up to sixteen whole digits. -/
def floatFormat : Number.FloatFormat := ⟨-5, 16⟩

def hexDigit (n : Nat) : Char := Nat.digitChar (n % 16)

/-- The written form of a character inside quotes. -/
def escape (c : Char) : List Char :=
  if c = '"' then ['\\', '"']
  else if c = '\\' then ['\\', '\\']
  else if c = '\n' then ['\\', 'n']
  else if c = '\r' then ['\\', 'r']
  else if c = '\t' then ['\\', 't']
  else if c = '\x08' then ['\\', 'b']
  else if c = '\x0c' then ['\\', 'f']
  else if c.toNat < 0x20 then ['\\', 'u', '0', '0', hexDigit (c.toNat / 16), hexDigit c.toNat]
  else [c]

def quote (s : String) : String := String.ofList ('"' :: (s.toList.flatMap escape ++ ['"']))

/-- The text of a value that has no parts. -/
def leaf : Json → String
  | null => "null"
  | bool true => "true"
  | bool false => "false"
  | int n => toString n
  | float x => floatFormat.render x
  | str s => quote s
  | arr _ => "[]"
  | obj _ => "\x7b\x7d"

mutual

/-- The text of a value without spaces. -/
def compact : Json → String
  | arr items => "[" ++ compactItems items ++ "]"
  | obj fields => "\x7b" ++ compactFields fields ++ "\x7d"
  | null => leaf null
  | bool b => leaf (bool b)
  | int n => leaf (int n)
  | float x => leaf (float x)
  | str s => leaf (str s)

def compactItems : List Json → String
  | [] => ""
  | [v] => compact v
  | v :: rest => compact v ++ "," ++ compactItems rest

def compactFields : List (String × Json) → String
  | [] => ""
  | [(name, v)] => quote name ++ ":" ++ compact v
  | (name, v) :: rest => quote name ++ ":" ++ compact v ++ "," ++ compactFields rest

end

def newline (level : Nat) : String := "\n" ++ "".pushn ' ' (2 * level)

mutual

/-- The text of a value over several lines, each level two spaces further in. -/
def pretty (level : Nat) : Json → String
  | arr [] => "[]"
  | arr items => "[" ++ prettyItems (level + 1) items ++ newline level ++ "]"
  | obj [] => "\x7b\x7d"
  | obj fields => "\x7b" ++ prettyFields (level + 1) fields ++ newline level ++ "\x7d"
  | null => leaf null
  | bool b => leaf (bool b)
  | int n => leaf (int n)
  | float x => leaf (float x)
  | str s => leaf (str s)

def prettyItems (level : Nat) : List Json → String
  | [] => ""
  | [v] => newline level ++ pretty level v
  | v :: rest => newline level ++ pretty level v ++ "," ++ prettyItems level rest

def prettyFields (level : Nat) : List (String × Json) → String
  | [] => ""
  | [(name, v)] => newline level ++ quote name ++ ": " ++ pretty level v
  | (name, v) :: rest =>
    newline level ++ quote name ++ ": " ++ pretty level v ++ "," ++ prettyFields level rest

end

/-- A value inside running text: strings bare, all else compact. -/
def display : Json → String
  | str s => s
  | v => compact v

end Workflow.Json
