import Workflow.Tree

namespace Workflow.Toml

/-- How a table came about: by headers of tables inside it, by a key with points, or by its own header.
-/
inductive Origin where
  | implied
  | dotted
  | header
  deriving DecidableEq

/-- What a name stands for: a finished value, a table, or a list of tables that headers add to. -/
inductive Item where
  | value (t : Tree)
  | table (origin : Origin) (entries : List (String × Item))
  | tables (ts : List (List (String × Item)))
  deriving Inhabited

abbrev Table := List (String × Item)

namespace Table

def entry? (t : Table) (name : String) : Option Item := (t.find? (fun e => e.1 = name)).map Prod.snd

/-- Put an item under a name, in place of what is there. -/
def put (t : Table) (name : String) (item : Item) : Table :=
  if t.any (fun e => e.1 = name) then t.map (fun e => if e.1 = name then (name, item) else e)
  else t ++ [(name, item)]

/-- Set a value under a key with points. Tables with a header of their own cannot be added to. -/
def set? (value : Tree) : List String → Table → Option Table
  | [], _ => none
  | [name], t => if (t.entry? name).isSome then none else some (t.put name (.value value))
  | name :: path, t =>
    match t.entry? name with
    | none => (set? value path []).map (fun es => t.put name (.table .dotted es))
    | some (.table .header _) => none
    | some (.table origin es) => (set? value path es).map (fun es => t.put name (.table origin es))
    | some (.tables ts) =>
      match ts.reverse with
      | last :: before =>
        (set? value path last).map (fun es => t.put name (.tables (before.reverse ++ [es])))
      | [] => none
    | some (.value _) => none

def change? (f : Table → Option Table) : List String → Table → Option Table
  | [], t => f t
  | name :: path, t =>
    match t.entry? name with
    | none => (change? f path []).map (fun es => t.put name (.table .implied es))
    | some (.table origin es) => (change? f path es).map (fun es => t.put name (.table origin es))
    | some (.tables ts) =>
      match ts.reverse with
      | last :: before =>
        (change? f path last).map (fun es => t.put name (.tables (before.reverse ++ [es])))
      | [] => none
    | some (.value _) => none

def openAs? (name : String) (t : Table) : Option Table :=
  match t.entry? name with
  | none => some (t.put name (.table .header []))
  | some (.table .implied es) => some (t.put name (.table .header es))
  | _ => none

def append? (name : String) (t : Table) : Option Table :=
  match t.entry? name with
  | none => some (t.put name (.tables [[]]))
  | some (.tables ts) => some (t.put name (.tables (ts ++ [[]])))
  | _ => none

end Table

mutual

def Item.toTree : Item → Tree
  | .value t => t
  | .table _ es => .map none (entriesToTree es)
  | .tables ts => .list none (tablesToTree ts)

def entriesToTree : List (String × Item) → List (Tree × Tree)
  | [] => []
  | (name, item) :: rest => (.scalar (.text name), item.toTree) :: entriesToTree rest

def tablesToTree : List (List (String × Item)) → List Tree
  | [] => []
  | es :: rest => .map none (entriesToTree es) :: tablesToTree rest

end

end Workflow.Toml
