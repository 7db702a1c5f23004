import Workflow.Yaml.Node

namespace Workflow

namespace Yaml

/-- A list that nothing can be read from. -/
def unreadable : Tree := .list (some "!") []

/-- The node that a number stands for: of several anchored nodes with that number, the last started. -/
def anchored? (anchors : List Anchored) (id : Nat) : Option Node :=
  (anchors.foldl (fun (best : Option Anchored) a =>
    if a.id = id ∧ best.all (fun b => b.place < a.place) then some a else best) none).map Anchored.node

/-- A node that is no alias, and what is left of the number of aliases that may be followed. -/
def resolve? (anchors : List Anchored) (n : Node) : StateT Nat Option Node :=
  match n with
  | .alias id => do
    let left ← get
    if left = 0 then failure
    else
      set (left - 1)
      match anchored? anchors id with
      | some n => pure n
      | none => failure
  | n => pure n

/-- The tree of a node, its aliases replaced. Nothing can be read from lists and maps that are inside
more than `depth` others. -/
def expand (anchors : List Anchored) : Nat → Node → StateT Nat Option Tree
  | 0, n => do
    match ← resolve? anchors n with
    | .scalar text style tag => pure (.scalar (.written text style tag))
    | _ => pure unreadable
  | depth + 1, n => do
    match ← resolve? anchors n with
    | .scalar text style tag => pure (.scalar (.written text style tag))
    | .list tag items => do
      let ts ← items.mapM (expand anchors depth)
      pure (.list tag ts)
    | .map tag entries => do
      let es ← entries.mapM (fun e => do
        let k ← expand anchors depth e.1
        let t ← expand anchors depth e.2
        pure (k, t))
      pure (.map tag es)
    | .alias _ => failure

/-- How many aliases may be followed in a text. -/
def maxAliases (text : String) : Nat := 100 * (text.length + 1)

/-- Lists and maps may be this many inside one another. -/
def maxDepth : Nat := 128

end Yaml

def Tree.ofYamlText? (text : String) : Option Tree := do
  let (n, anchors) ← Yaml.nodeOf? text
  let (t, _) ← (Yaml.expand anchors Yaml.maxDepth n).run (Yaml.maxAliases text)
  some t

end Workflow
