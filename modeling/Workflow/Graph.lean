namespace Workflow

/-- A directed graph on the places `0, …, size - 1`. -/
structure Graph where
  size : Nat
  arcs : List (Nat × Nat)

namespace Graph

def successors (g : Graph) (i : Nat) : List Nat :=
  (g.arcs.filter (fun a => a.1 = i)).map Prod.snd

def predecessors (g : Graph) (i : Nat) : List Nat :=
  (g.arcs.filter (fun a => a.2 = i)).map Prod.fst

/-- The graph with every arc turned around. -/
def reverse (g : Graph) : Graph := ⟨g.size, g.arcs.map (fun a => (a.2, a.1))⟩

/-- What was seen, and all that can be reached by at most `n` arcs from the places seen last. -/
def spread (g : Graph) : Nat → List Nat → List Nat → List Nat
  | 0, _, seen => seen
  | n + 1, last, seen =>
    let next := (last.flatMap g.successors).eraseDups.filter (fun j => j ∉ seen)
    if next.isEmpty then seen else spread g n next (seen ++ next)

/-- The ends of the paths with at least one arc that start at `i`. -/
def descendants (g : Graph) (i : Nat) : List Nat :=
  let next := (g.successors i).eraseDups
  g.spread g.size next next

/-- The starts of the paths with at least one arc that end at `i`. -/
def ancestors (g : Graph) (i : Nat) : List Nat := g.reverse.descendants i

/-- The places on cycles through `i`; none when there is no such cycle. -/
def cycleThrough (g : Graph) (i : Nat) : List Nat :=
  let after := g.descendants i
  let before := g.ancestors i
  (List.range g.size).filter (fun j => j ∈ after ∧ j ∈ before)

/-- The sets of places that are joined by cycles, each once. -/
def cycles (g : Graph) : List (List Nat) :=
  (List.range g.size).filterMap (fun i =>
    let c := g.cycleThrough i
    if c.head? = some i then some c else none)

/-- For every place one more than the largest level before it, or zero when there is none. -/
def raise (g : Graph) (levels : List Nat) : List Nat :=
  (List.range g.size).map (fun i =>
    (g.predecessors i).foldl (fun n j => max n (levels.getD j 0 + 1)) 0)

def raised (g : Graph) : Nat → List Nat → List Nat
  | 0, levels => levels
  | n + 1, levels =>
    let next := g.raise levels
    if next = levels then levels else raised g n next

/-- The length of the longest path that ends at each place of a graph without cycles. -/
def levels (g : Graph) : List Nat := g.raised g.size (List.replicate g.size 0)

end Graph

end Workflow
