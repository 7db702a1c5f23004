import Workflow.Json.Basic

namespace Workflow

/-- How a scalar is written: without quotes, as a block of lines with their ends, or otherwise. -/
inductive Style where
  | bare
  | block
  | quoted
  deriving DecidableEq

/-- A leaf of a document text. Texts that resolve their scalars late keep the written form: the
characters, their style, and the tag in front of them. -/
inductive Scalar where
  | null
  | bool (b : Bool)
  | int (n : Int)
  | float (x : Float)
  | text (s : String)
  | written (s : String) (style : Style) (tag : Option String)

/-- A document text as a tree: entries of maps in written order, repeated keys included. -/
inductive Tree where
  | scalar (s : Scalar)
  | list (tag : Option String) (items : List Tree)
  | map (tag : Option String) (entries : List (Tree × Tree))
  deriving Inhabited

namespace Tree

mutual

/-- The tree that a value is written as. -/
def ofJson : Json → Tree
  | .null => .scalar .null
  | .bool b => .scalar (.bool b)
  | .int n => .scalar (.int n)
  | .float x => .scalar (.float x)
  | .str s => .scalar (.text s)
  | .arr items => .list none (ofItems items)
  | .obj fields => .map none (ofFields fields)

def ofItems : List Json → List Tree
  | [] => []
  | v :: rest => ofJson v :: ofItems rest

def ofFields : List (String × Json) → List (Tree × Tree)
  | [] => []
  | (name, v) :: rest => (.scalar (.text name), ofJson v) :: ofFields rest

end

end Tree

end Workflow
