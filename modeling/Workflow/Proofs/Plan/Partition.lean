import Workflow.Proofs.Plan.Layers

namespace Workflow

/-- A table of links by one of their ends: those at the side of the run itself, and those at every node.
Links are given by their places. -/
structure LinkTable where
  own : List Nat
  nodes : List (List Nat)

namespace LinkTable

variable {f : Flow} {side : Endpoint} {endOf : Link → Endpoint} {links : List (Nat × Link)}

def entries (t : LinkTable) : List Nat := t.own ++ t.nodes.flatten

/-- A link is put last into the list of its end. One that ends at no node and not at the side of the run
is left out. -/
def put (f : Flow) (side : Endpoint) (endOf : Link → Endpoint) (t : LinkTable) (p : Nat × Link) :
    LinkTable :=
  if endOf p.2 = side then { t with own := t.own ++ [p.1] }
  else
    match f.placeAt? (endOf p.2) with
    | some i => { t with nodes := t.nodes.modify i (· ++ [p.1]) }
    | none => t

/-- The table that one pass over links fills. -/
def gather (f : Flow) (side : Endpoint) (endOf : Link → Endpoint) (links : List (Nat × Link)) : LinkTable :=
  links.foldl (put f side endOf) ⟨[], List.replicate f.nodes.length []⟩

/-- The table that one pass over the links of a flow fills, in document order. -/
def ofFlow (f : Flow) (side : Endpoint) (endOf : Link → Endpoint) : LinkTable :=
  gather f side endOf ((List.range f.links.length).zip f.links)

/-- Every link of a flow stands in a table once, namely in the list of the side or the node that its end
names, and every list is in document order. -/
structure Files (f : Flow) (side : Endpoint) (endOf : Link → Endpoint) (t : LinkTable) : Prop where
  once : t.entries.Perm (List.range f.links.length)
  length_eq : t.nodes.length = f.nodes.length
  mem_own_iff : ∀ (e : Nat) l, f.links[e]? = some l → (e ∈ t.own ↔ endOf l = side)
  mem_node_iff : ∀ (e : Nat) l, f.links[e]? = some l → ∀ (i : Nat) id es, f.ids[i]? = some id →
    t.nodes[i]? = some es → (e ∈ es ↔ endOf l = .node id)
  ordered : ∀ es ∈ t.own :: t.nodes, es.Pairwise (· < ·)

theorem gather_concat (p : Nat × Link) :
    gather f side endOf (links ++ [p]) = put f side endOf (gather f side endOf links) p :=
  List.foldl_append

theorem length_nodes_put (t : LinkTable) (p : Nat × Link) :
    (put f side endOf t p).nodes.length = t.nodes.length := by
  unfold put
  split
  · rfl
  · split
    · exact List.length_modify ..
    · rfl

theorem length_nodes_gather : (gather f side endOf links).nodes.length = f.nodes.length := by
  induction links using List.reverseRecOn with
  | nil => exact List.length_replicate
  | append_singleton links p ih => rw [gather_concat, length_nodes_put, ih]

theorem flatten_modify_perm {xs : List (List Nat)} {i : Nat} (h : i < xs.length) (e : Nat) :
    (xs.modify i (· ++ [e])).flatten.Perm (e :: xs.flatten) := by
  obtain ⟨before, es, after, rfl, rfl, hm⟩ := List.exists_of_modify (· ++ [e]) h
  rw [hm]
  simp only [List.flatten_append, List.flatten_cons, List.append_assoc, List.singleton_append]
  rw [← List.append_assoc, ← List.append_assoc before.flatten es]
  exact List.perm_middle

theorem modify_map_range (g : Nat → List Nat) (n i e : Nat) : ((List.range n).map g).modify i (· ++ [e]) =
    (List.range n).map (fun k => g k ++ if i = k then [e] else []) := by
  refine List.ext_getElem (by simp) fun k hk _ => ?_
  rw [List.getElem_modify]
  split <;> simp_all

/-- A link whose end is known comes into exactly one list. -/
theorem entries_put_perm {t : LinkTable} {p : Nat × Link} (ht : t.nodes.length = f.nodes.length)
    (h : endOf p.2 = side ∨ ∃ i, f.placeAt? (endOf p.2) = some i) :
    (put f side endOf t p).entries.Perm (p.1 :: t.entries) := by
  unfold put entries
  by_cases hs : endOf p.2 = side
  · rw [if_pos hs, List.append_assoc, List.singleton_append]
    exact List.perm_middle
  · obtain ⟨i, hi⟩ := h.resolve_left hs
    simp only [if_neg hs, hi]
    have hlt : i < t.nodes.length := ht ▸ Plan.placeAt?_lt hi
    exact ((flatten_modify_perm hlt p.1).append_left t.own).trans List.perm_middle

theorem entries_gather_perm
    (h : ∀ p ∈ links, endOf p.2 = side ∨ ∃ i, f.placeAt? (endOf p.2) = some i) :
    (gather f side endOf links).entries.Perm (links.map Prod.fst) := by
  induction links using List.reverseRecOn with
  | nil => simp [gather, entries]
  | append_singleton links p ih =>
    have hlinks := ih fun q hq => h q (List.mem_append_left _ hq)
    rw [gather_concat, List.map_append, List.map_singleton]
    refine (entries_put_perm length_nodes_gather (h p (by simp))).trans ?_
    exact (hlinks.cons p.1).trans (List.perm_append_singleton _ _).symm

/-- The places of the links that pass a test. -/
def placesWhere (links : List (Nat × Link)) (test : Link → Bool) : List Nat :=
  links.filterMap (fun p => if test p.2 then some p.1 else none)

theorem placesWhere_concat (p : Nat × Link) (test : Link → Bool) :
    placesWhere (links ++ [p]) test = placesWhere links test ++ if test p.2 then [p.1] else [] := by
  rw [placesWhere, List.filterMap_append, List.filterMap_cons]
  split <;> simp_all [placesWhere]

/-- One pass puts into every list the links that end there. -/
theorem gather_eq (hs : f.placeAt? side = none) : gather f side endOf links =
    ⟨placesWhere links (fun l => endOf l = side), (List.range f.nodes.length).map (fun i =>
      placesWhere links (fun l => f.placeAt? (endOf l) = some i))⟩ := by
  induction links using List.reverseRecOn with
  | nil => simp [gather, placesWhere, List.map_const']
  | append_singleton links p ih =>
    rw [gather_concat, ih, put]
    simp only [placesWhere_concat]
    by_cases hp : endOf p.2 = side
    · simp [hp, hs]
    · cases hi : f.placeAt? (endOf p.2) with
      | none => simp [hp]
      | some i => simp [hp, modify_map_range]

theorem files_ofFlow (hf : f.Regular) (hs : side.nodeId? = none)
    (h : ∀ l ∈ f.links, endOf l = side ∨ ∃ i, f.placeAt? (endOf l) = some i) :
    (ofFlow f side endOf).Files f side endOf := by
  have hside : f.placeAt? side = none := by rw [Flow.placeAt?, hs, Option.bind_none]
  have hmem : ∀ (test : Link → Prop) [DecidablePred test] {e : Nat} {l : Link}, f.links[e]? = some l →
      (e ∈ Plan.linksWhere f (fun l => test l) ↔ test l) := by
    intro test _ e l hl
    simp [Plan.mem_linksWhere, hl]
  refine ⟨?_, length_nodes_gather, fun e l hl => ?_, fun e l hl i id es hid hes => ?_, fun es hes => ?_⟩
  · have hends : ∀ p ∈ (List.range f.links.length).zip f.links,
        endOf p.2 = side ∨ ∃ i, f.placeAt? (endOf p.2) = some i := fun p hp => h p.2 (List.of_mem_zip hp).2
    have hperm := entries_gather_perm hends
    rwa [List.map_fst_zip (by simp)] at hperm
  · rw [ofFlow, gather_eq hside]
    exact hmem (fun l => endOf l = side) hl
  · rw [ofFlow, gather_eq hside, List.getElem?_map, Option.map_eq_some_iff] at hes
    obtain ⟨k, hk, rfl⟩ := hes
    obtain ⟨-, rfl⟩ := List.getElem?_eq_some_iff.mp hk
    rw [← Flow.placeAt?_eq_some_iff hf.ids_nodup hid, List.getElem_range]
    exact hmem (fun l => f.placeAt? (endOf l) = some i) hl
  · rw [ofFlow, gather_eq hside] at hes
    rcases List.mem_cons.mp hes with rfl | hes
    · exact Plan.linksWhere_pairwise f fun l => endOf l = side
    · obtain ⟨i, -, rfl⟩ := List.mem_map.mp hes
      exact Plan.linksWhere_pairwise f fun l => f.placeAt? (endOf l) = some i

/-- A link at the side of the run stands in the list of no node. -/
theorem Files.not_mem_node {t : LinkTable} (ht : t.Files f side endOf) (hs : side.nodeId? = none) {e : Nat}
    {l : Link} (hl : f.links[e]? = some l) (he : endOf l = side) : ∀ es ∈ t.nodes, e ∉ es := by
  intro es hes hm
  obtain ⟨i, hi, rfl⟩ := List.mem_iff_getElem.mp hes
  have hlt : i < f.ids.length := by
    rw [Flow.ids, List.length_map, ← ht.length_eq]
    exact hi
  have hnode := ht.mem_node_iff e l hl i _ _ (List.getElem?_eq_getElem hlt) (List.getElem?_eq_getElem hi)
  rw [← he, hnode.mp hm] at hs
  cases hs

end LinkTable

namespace Plan

variable {d : Document} {f : Flow} {p : Plan}

/-- The links by where they start: at the inputs of the run, or at a node. -/
def sourceTable (p : Plan) : LinkTable := ⟨p.inputLinks, p.outgoing⟩

/-- The links by where they end: at the outputs of the run, or at a node. -/
def targetTable (p : Plan) : LinkTable := ⟨p.outputLinks, p.incoming⟩

/-- The tables of a plan are those that one pass over its links fills, and each has every link once, where its
end says. A link from the inputs of the run to its outputs is at no node. -/
structure Partitioned (p : Plan) : Prop where
  sources_eq : p.sourceTable = .ofFlow p.flow .input (fun l => l.source.endpoint)
  targets_eq : p.targetTable = .ofFlow p.flow .output (fun l => l.target.endpoint)
  sources : p.sourceTable.Files p.flow .input (fun l => l.source.endpoint)
  targets : p.targetTable.Files p.flow .output (fun l => l.target.endpoint)
  through : ∀ (e : Nat) l, p.flow.links[e]? = some l →
    l.source.endpoint = .input → l.target.endpoint = .output →
    e ∈ p.inputLinks ∧ e ∈ p.outputLinks ∧ ∀ es ∈ p.outgoing ++ p.incoming, e ∉ es

theorem sourceTable_eq_ofFlow (hp : ofFlow f = .ok p) :
    p.sourceTable = .ofFlow p.flow .input (fun l => l.source.endpoint) := by
  obtain ⟨rfl, -, -, hout, hin, -⟩ := eq_of_ofFlow hp
  rw [LinkTable.ofFlow, LinkTable.gather_eq rfl, sourceTable, hout, hin]
  rfl

theorem targetTable_eq_ofFlow (hp : ofFlow f = .ok p) :
    p.targetTable = .ofFlow p.flow .output (fun l => l.target.endpoint) := by
  obtain ⟨rfl, -, hin, -, -, hout⟩ := eq_of_ofFlow hp
  rw [LinkTable.ofFlow, LinkTable.gather_eq rfl, targetTable, hout, hin]
  rfl

theorem partitioned_of_ofFlow (hp : ofFlow f = .ok p) (hf : f.Regular) : p.Partitioned := by
  have hflow : p.flow = f := (eq_of_ofFlow hp).1
  have hs : p.sourceTable.Files p.flow .input (fun l => l.source.endpoint) := by
    rw [sourceTable_eq_ofFlow hp, hflow]
    exact LinkTable.files_ofFlow hf rfl hf.source
  have ht : p.targetTable.Files p.flow .output (fun l => l.target.endpoint) := by
    rw [targetTable_eq_ofFlow hp, hflow]
    exact LinkTable.files_ofFlow hf rfl hf.target
  refine ⟨sourceTable_eq_ofFlow hp, targetTable_eq_ofFlow hp, hs, ht, fun e l hl hi ho => ?_⟩
  refine ⟨(hs.mem_own_iff e l hl).mpr hi, (ht.mem_own_iff e l hl).mpr ho, fun es hes => ?_⟩
  rcases List.mem_append.mp hes with hes | hes
  · exact hs.not_mem_node rfl hl hi es hes
  · exact ht.not_mem_node rfl hl ho es hes

/-- Every valid workflow has a plan, and its tables partition the links. -/
theorem exists_partitioned (hv : Flow.validate d = .ok f) :
    ∃ p, ofFlow f = .ok p ∧ p.flow = f ∧ p.Partitioned := by
  obtain ⟨p, hp⟩ := exists_ofFlow hv
  exact ⟨p, hp, (eq_of_ofFlow hp).1, partitioned_of_ofFlow hp (Flow.regular_of_validate hv)⟩

/-- Two nodes in a row, with links of all four kinds. -/
def crossing : Document where
  version := "1.0"
  metadata := []
  requires := []
  nodes := [("last", rung [⟨"a", .string, false, none⟩]), ("first", rung [⟨"a", .string, false, none⟩])]
  links := [⟨"first.out", "last.a", none, none⟩, ⟨"_input.x", "_output.x", none, none⟩,
    ⟨"_input.x", "first.a", none, none⟩, ⟨"first.out", "_output.y", none, none⟩,
    ⟨"last.out", "_output.z", none, none⟩]
  deployment := none

def crossingFlow : Flow where
  version := "1.0"
  metadata := []
  requires := []
  nodes := crossing.nodes
  links := [⟨⟨.node "first", "out"⟩, ⟨.node "last", "a"⟩, none, none, .identity⟩,
    ⟨⟨.input, "x"⟩, ⟨.output, "x"⟩, none, none, .identity⟩,
    ⟨⟨.input, "x"⟩, ⟨.node "first", "a"⟩, none, none, .identity⟩,
    ⟨⟨.node "first", "out"⟩, ⟨.output, "y"⟩, none, none, .identity⟩,
    ⟨⟨.node "last", "out"⟩, ⟨.output, "z"⟩, none, none, .identity⟩]
  deployment := none

set_option maxRecDepth 10000 in
/-- The link through the run alone is at no node. -/
theorem exists_partitioned_crossing : Flow.validate crossing = .ok crossingFlow ∧
    ∃ p, ofFlow crossingFlow = .ok p ∧ p.Partitioned ∧ p.sourceTable = ⟨[1, 2], [[4], [0, 3]]⟩ ∧
      p.targetTable = ⟨[1, 3, 4], [[0], [2]]⟩ := by
  have hv : Flow.validate crossing = .ok crossingFlow := by with_unfolding_all rfl
  obtain ⟨p, hp, hflow, h⟩ := exists_partitioned hv
  refine ⟨hv, p, hp, h, ?_, ?_⟩
  · rw [h.sources_eq, hflow]
    rfl
  · rw [h.targets_eq, hflow]
    rfl

end Plan

end Workflow
