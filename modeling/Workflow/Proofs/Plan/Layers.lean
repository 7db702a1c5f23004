import Workflow.Proofs.Graph.Levels
import Workflow.Proofs.Plan.Typed

namespace Workflow

/-- Some link leads from one node to another, which are given by their places. -/
def Flow.Joins (f : Flow) (i j : Nat) : Prop :=
  ∃ l ∈ f.links, f.placeAt? l.source.endpoint = some i ∧ f.placeAt? l.target.endpoint = some j

theorem Flow.graph_arc {f : Flow} : f.graph.Arc = f.Joins := by
  funext i j
  refine propext (List.mem_filterMap.trans (exists_congr fun l => and_congr_right fun _ => ?_))
  cases f.placeAt? l.source.endpoint <;> cases f.placeAt? l.target.endpoint <;> simp

theorem Flow.graph_inRange (f : Flow) : f.graph.InRange := by
  intro i j h
  rw [graph_arc] at h
  obtain ⟨l, _, hi, hj⟩ := h
  exact ⟨Plan.placeAt?_lt hi, Plan.placeAt?_lt hj⟩

namespace Plan

variable {d : Document} {f : Flow} {p : Plan} {i j : Nat} {name : String}

/-- The arcs between the nodes of a plan are its links with a node at either end. -/
theorem arc_iff : p.flow.graph.Arc i j ↔ ∃ e, p.sourceOf? e = some i ∧ p.targetOf? e = some j := by
  rw [Flow.graph_arc]
  constructor
  · rintro ⟨l, hl, hi, hj⟩
    obtain ⟨e, he⟩ := List.mem_iff_getElem?.mp hl
    exact ⟨e, Option.bind_eq_some_iff.mpr ⟨l, he, hi⟩, Option.bind_eq_some_iff.mpr ⟨l, he, hj⟩⟩
  · rintro ⟨e, hs, ht⟩
    obtain ⟨l, hl, hi⟩ := Option.bind_eq_some_iff.mp hs
    obtain ⟨l', hl', hj⟩ := Option.bind_eq_some_iff.mp ht
    obtain rfl : l = l' := Option.some.inj (hl.symm.trans hl')
    exact ⟨l, List.mem_of_getElem? hl, hi, hj⟩

/-- The layers of a plan. The layer of a node is the number of links on the longest path from node to node
that ends there; a path is given by the nodes before its end, last first. The nodes have a topological order,
and one pass in any such order comes to the layers. Every node stands in the list of its layer only, in document
order, and there is no layer without nodes. -/
structure Layered (p : Plan) : Prop where
  longest : ∀ i < p.size, IsGreatest
    {n | ∃ before : List Nat, before.length = n ∧ (i :: before).IsChain (fun b a => p.flow.Joins a b)}
    (p.layer i)
  sorted : ∃ order, p.flow.graph.Topological order
  swept : ∀ order, p.flow.graph.Topological order → p.flow.graph.sweep order = p.layerOf
  layerOf?_eq : ∀ i id, p.flow.ids[i]? = some id → p.layerOf? id = some (p.layer i)
  rises : ∀ i j, p.flow.Joins i j → p.layer i < p.layer j
  partition : p.layers.flatten.Perm (List.range p.size)
  mem_iff : ∀ k i, (∃ nodes, p.layers[k]? = some nodes ∧ i ∈ nodes) ↔ i < p.size ∧ p.layer i = k
  nonempty : ∀ nodes ∈ p.layers, nodes ≠ []
  ordered : ∀ nodes ∈ p.layers, nodes.Pairwise (· < ·)

/-- The schemas of a plan are the compiled ones of exactly the ports that declare one. -/
structure Schemed (p : Plan) : Prop where
  schema?_eq : ∀ i id n, p.flow.nodes[i]? = some (id, n) → ∀ q ∈ n.ports,
    p.schema? i q.name = q.schema.bind CompiledSchema.compile?
  isSome_iff : ∀ i name, (p.schema? i name).isSome = true ↔
    ∃ id n, p.flow.nodes[i]? = some (id, n) ∧ ∃ q ∈ n.ports, q.name = name ∧ q.schema.isSome = true

section Exists

theorem portSchemas_eq_ok (place : Nat) (id : String) {ports : List Port}
    (h : ∀ q ∈ ports, ∀ v, q.schema = some v → IsSchema v) :
    ∃ table, portSchemas place id ports = .ok table := by
  induction ports with
  | nil => exact ⟨[], rfl⟩
  | cons q ports ih =>
    obtain ⟨table, ht⟩ := ih fun r hr => h r (List.mem_cons_of_mem _ hr)
    cases hq : q.schema with
    | none => exact ⟨table, by simp only [portSchemas, hq, ht]⟩
    | some v =>
      obtain ⟨s, hs⟩ := h q List.mem_cons_self v hq
      exact ⟨_, by simp only [portSchemas, hq, hs, ht, Except.map]; rfl⟩

theorem nodeSchemas_eq_ok (place : Nat) {nodes : List (String × Node)}
    (h : ∀ e ∈ nodes, ∀ q ∈ e.2.ports, ∀ v, q.schema = some v → IsSchema v) :
    ∃ table, nodeSchemas place nodes = .ok table := by
  induction nodes generalizing place with
  | nil => exact ⟨[], rfl⟩
  | cons e nodes ih =>
    obtain ⟨first, hfirst⟩ := portSchemas_eq_ok place e.1 (h e List.mem_cons_self)
    obtain ⟨more, hmore⟩ := ih (place + 1) fun e he => h e (List.mem_cons_of_mem _ he)
    exact ⟨first ++ more, by simp only [nodeSchemas, hfirst, hmore, bind, Except.bind]; rfl⟩

theorem unknownAt_eq_nil {e : Endpoint} (h : e.nodeId? = none ∨ ∃ i, f.placeAt? e = some i) :
    unknownAt f e = [] := by
  rw [unknownAt]
  rcases h with h | ⟨i, h⟩
  · rw [h]
    rfl
  · obtain ⟨id, he, hi⟩ := Option.bind_eq_some_iff.mp h
    rw [he]
    simp [Option.filter, hi]

theorem unknownNodes_eq_nil (hf : f.Regular) : unknownNodes f = [] := by
  refine List.flatMap_eq_nil_iff.mpr fun x hx => ?_
  have hl : x.2 ∈ f.links := (List.of_mem_zip hx).2
  have hs := unknownAt_eq_nil ((hf.source _ hl).imp_left fun h => by rw [h]; rfl)
  have ht := unknownAt_eq_nil ((hf.target _ hl).imp_left fun h => by rw [h]; rfl)
  rw [hs, ht]
  rfl

theorem cyclicNodes_eq_nil (hf : f.Regular) : cyclicNodes f = [] := by
  rw [cyclicNodes, (Graph.cycles_eq_nil_iff f.graph_inRange).mpr hf.acyclic]
  rfl

/-- A valid workflow has a plan. -/
theorem exists_ofFlow (hv : Flow.validate d = .ok f) : ∃ p, ofFlow f = .ok p := by
  have hf := Flow.regular_of_validate hv
  obtain ⟨table, ht⟩ := nodeSchemas_eq_ok 0 fun e (he : e ∈ f.nodes) => (Flow.sound_of_validate hv he).schemas
  simp only [ofFlow, unknownNodes_eq_nil hf, cyclicNodes_eq_nil hf, List.append_nil, ht, bind,
    Except.bind]
  exact ⟨_, rfl⟩

end Exists

section Layers

variable (hp : ofFlow f = .ok p)
include hp

theorem size_eq : p.size = f.graph.size := congrArg (·.nodes.length) (eq_of_ofFlow hp).1

theorem lt_depth (hi : i < p.size) : p.layer i < p.depth := by
  obtain ⟨rfl, hl, _⟩ := eq_of_ofFlow hp
  have hlen : i < p.layerOf.length := by
    rw [hl, Graph.length_levels]
    exact hi
  refine (Graph.isGreatest_foldl_max (· + 1) p.layerOf 0).2 (.inr ⟨_, List.getElem_mem hlen, ?_⟩)
  rw [layer, List.getD_eq_getElem?_getD, List.getElem?_eq_getElem hlen]
  rfl

theorem mem_layers_iff {k : Nat} :
    (∃ nodes, p.layers[k]? = some nodes ∧ i ∈ nodes) ↔ i < p.size ∧ p.layer i = k := by
  simp only [layers, List.getElem?_map, Option.map_eq_some_iff]
  constructor
  · rintro ⟨_, ⟨k', hk, rfl⟩, hm⟩
    obtain ⟨_, rfl⟩ := List.getElem?_eq_some_iff.mp hk
    simpa using hm
  · rintro ⟨hi, rfl⟩
    exact ⟨_, ⟨_, List.getElem?_range (lt_depth hp hi), rfl⟩, by simp [hi]⟩

theorem layers_flatten_perm : p.layers.flatten.Perm (List.range p.size) := by
  refine (List.perm_ext_iff_of_nodup ?_ List.nodup_range).mpr fun i => ?_
  · refine List.nodup_flatten.mpr ⟨fun nodes hm => ?_, List.pairwise_map.mpr ?_⟩
    · obtain ⟨_, _, rfl⟩ := List.mem_map.mp hm
      exact List.nodup_range.filter _
    · refine List.nodup_range.imp fun hne i hi hi' => hne ?_
      simp only [List.mem_filter, decide_eq_true_eq] at hi hi'
      exact hi.2.symm.trans hi'.2
  · rw [List.mem_flatten, List.mem_range]
    constructor
    · rintro ⟨nodes, hm, hi⟩
      obtain ⟨k, hk⟩ := List.mem_iff_getElem?.mp hm
      exact ((mem_layers_iff hp).mp ⟨nodes, hk, hi⟩).1
    · intro hi
      obtain ⟨nodes, hk, hm⟩ := (mem_layers_iff hp).mpr ⟨hi, rfl⟩
      exact ⟨nodes, List.mem_of_getElem? hk, hm⟩

variable (hf : f.Regular)
include hf

theorem isGreatest_layer (hi : i < p.size) : IsGreatest (f.graph.Lengths i) (p.layer i) := by
  obtain ⟨rfl, hl, _⟩ := eq_of_ofFlow hp
  rw [layer, hl]
  exact Graph.isGreatest_levels p.flow.graph_inRange hf.acyclic hi

theorem layer_lt_of_arc (h : f.graph.Arc i j) : p.layer i < p.layer j := by
  rw [layer, layer, (eq_of_ofFlow hp).2.1]
  exact Graph.level_lt_of_arc f.graph_inRange hf.acyclic h

/-- The last link of a longest path comes from the layer before. -/
theorem exists_arc_of_layer_eq_succ {k : Nat} (hi : i < p.size) (h : p.layer i = k + 1) :
    ∃ j < p.size, f.graph.Arc j i ∧ p.layer j = k := by
  have hmem := (isGreatest_layer hp hf hi).1
  rw [h] at hmem
  obtain ⟨j, ha, hk⟩ := Graph.succ_mem_lengths_iff.mp hmem
  have hj : j < p.size := size_eq hp ▸ (f.graph_inRange j i ha).1
  have hge := (isGreatest_layer hp hf hj).2 hk
  have hlt := layer_lt_of_arc hp hf ha
  exact ⟨j, hj, ha, by omega⟩

/-- Going back along a longest path, every lower layer is met. -/
theorem exists_layer_eq {k : Nat} (hi : i < p.size) (hk : k ≤ p.layer i) :
    ∃ j < p.size, p.layer j = k := by
  induction hn : p.layer i generalizing i with
  | zero => exact ⟨i, hi, by omega⟩
  | succ n ih =>
    by_cases he : k = n + 1
    · exact ⟨i, hi, he ▸ hn⟩
    · obtain ⟨j, hj, _, hjn⟩ := exists_arc_of_layer_eq_succ hp hf hi hn
      exact ih hj (by omega) hjn

theorem exists_layer_eq_of_lt_depth {k : Nat} (hk : k < p.depth) : ∃ i < p.size, p.layer i = k := by
  rcases (Graph.isGreatest_foldl_max (· + 1) p.layerOf 0).1 with h0 | ⟨l, hl, hd⟩
  · exact absurd hk (by rw [depth, h0]; exact Nat.not_lt_zero k)
  · obtain ⟨i, hi, rfl⟩ := List.mem_iff_getElem.mp hl
    have hsize : i < p.size := by
      rw [size_eq hp, ← Graph.length_levels, ← (eq_of_ofFlow hp).2.1]
      exact hi
    have hlayer : p.layer i = p.layerOf[i] := by
      rw [layer, List.getD_eq_getElem?_getD, List.getElem?_eq_getElem hi, Option.getD_some]
    refine exists_layer_eq hp hf hsize ?_
    rw [depth, hd] at hk
    rw [hlayer]
    exact Nat.le_of_lt_succ hk

theorem layered_of_ofFlow : p.Layered := by
  have hflow : p.flow = f := (eq_of_ofFlow hp).1
  refine ⟨fun i hi => ?_, ?_, fun order ht => ?_, fun i id hi => ?_, fun i j h => ?_, layers_flatten_perm hp,
    fun k i => mem_layers_iff hp, fun nodes hm => ?_, fun nodes hm => ?_⟩
  · rw [hflow, ← Flow.graph_arc]
    exact isGreatest_layer hp hf hi
  · rw [hflow]
    exact (Graph.exists_topological_iff f.graph_inRange).mpr hf.acyclic
  · rw [hflow] at ht ⊢
    rw [ht.sweep_eq f.graph_inRange, (eq_of_ofFlow hp).2.1]
  · have hplace : p.flow.placeOf? id = some i :=
      (Flow.placeAt?_eq_some_iff (hflow ▸ hf.ids_nodup) hi).mpr rfl
    rw [layerOf?, hplace, Option.map_some]
  · rw [hflow, ← Flow.graph_arc] at h
    exact layer_lt_of_arc hp hf h
  · obtain ⟨k, hk, rfl⟩ := List.mem_map.mp hm
    obtain ⟨i, hi, hik⟩ := exists_layer_eq_of_lt_depth hp hf (List.mem_range.mp hk)
    exact List.ne_nil_of_mem (List.mem_filter.mpr ⟨List.mem_range.mpr hi, decide_eq_true hik⟩)
  · obtain ⟨k, _, rfl⟩ := List.mem_map.mp hm
    exact List.pairwise_lt_range.filter _

end Layers

theorem schemed_of_ofFlow (hv : Flow.validate d = .ok f) (hp : ofFlow f = .ok p) : p.Schemed := by
  have ht := typed_of_ofFlow hv hp
  refine ⟨ht.schema?_eq, fun i name => ⟨fun h => ?_, ?_⟩⟩
  · obtain ⟨c, hc⟩ := Option.isSome_iff_exists.mp h
    obtain ⟨s, hs, rfl⟩ := Option.map_eq_some_iff.mp hc
    have hkey : s.1 = (i, name) := by simpa using List.find?_some hs
    obtain ⟨k, e, hk, hplace, hname⟩ :=
      mem_nodeSchemas (schemas_eq_of_ofFlow hp) s (List.mem_of_find?_eq_some hs)
    rw [hkey] at hplace hname
    obtain rfl : i = k := hplace.trans (Nat.zero_add k)
    obtain ⟨q, hq, rfl⟩ := List.mem_map.mp hname
    have hn : p.flow.nodes[i]? = some (e.1, e.2) := by rw [(eq_of_ofFlow hp).1, hk]
    rw [ht.schema?_eq i e.1 e.2 hn q hq] at h
    exact ⟨e.1, e.2, hn, q, hq, rfl, Option.isSome_of_isSome_bind h⟩
  · rintro ⟨id, n, hn, q, hq, rfl, hs⟩
    obtain ⟨v, hv⟩ := Option.isSome_iff_exists.mp hs
    obtain ⟨c, hc⟩ := ht.schemas (id, n) (List.mem_of_getElem? hn) q hq v hv
    rw [ht.schema?_eq i id n hn q hq, hv, Option.bind_some, hc, Option.isSome_some]

/-- Every valid workflow has a plan, with the layers and the schemas that it should have. -/
theorem exists_layered (hv : Flow.validate d = .ok f) :
    ∃ p, ofFlow f = .ok p ∧ p.flow = f ∧ p.Layered ∧ p.Schemed := by
  obtain ⟨p, hp⟩ := exists_ofFlow hv
  exact ⟨p, hp, (eq_of_ofFlow hp).1, layered_of_ofFlow hp (Flow.regular_of_validate hv),
    schemed_of_ofFlow hv hp⟩

def rung (inputs : List Port) : Node where
  inputs := inputs
  outputs := [⟨"out", .string, false, none⟩]
  errorPort := none
  transform := .code ""
  policy := {}
  state := none

/-- Three nodes in a row, of which the first also leads to the last, and one that stands alone. -/
def ladder : Document where
  version := "1.0"
  metadata := []
  requires := []
  nodes := [("top", rung [⟨"a", .string, false, none⟩,
      ⟨"b", .string, false, some (.obj [("type", .str "string")])⟩]),
    ("alone", rung []), ("foot", rung [⟨"a", .string, false, none⟩]),
    ("middle", rung [⟨"a", .string, false, none⟩])]
  links := [⟨"_input.x", "foot.a", none, none⟩, ⟨"foot.out", "top.a", none, none⟩,
    ⟨"foot.out", "top.a", some "true", none⟩, ⟨"foot.out", "middle.a", none, none⟩,
    ⟨"middle.out", "top.b", none, none⟩]
  deployment := none

def ladderFlow : Flow where
  version := "1.0"
  metadata := []
  requires := []
  nodes := ladder.nodes
  links := [⟨⟨.input, "x"⟩, ⟨.node "foot", "a"⟩, none, none, .identity⟩,
    ⟨⟨.node "foot", "out"⟩, ⟨.node "top", "a"⟩, none, none, .identity⟩,
    ⟨⟨.node "foot", "out"⟩, ⟨.node "top", "a"⟩, some "true", none, .identity⟩,
    ⟨⟨.node "foot", "out"⟩, ⟨.node "middle", "a"⟩, none, none, .identity⟩,
    ⟨⟨.node "middle", "out"⟩, ⟨.node "top", "b"⟩, none, none, .identity⟩]
  deployment := none

set_option maxRecDepth 10000 in
theorem validate_ladder : Flow.validate ladder = .ok ladderFlow := by with_unfolding_all rfl

/-- The link from the first node to the last does not bring the last one down. -/
theorem exists_layered_ladder : Flow.validate ladder = .ok ladderFlow ∧
    ∃ p, ofFlow ladderFlow = .ok p ∧ p.Layered ∧ p.Schemed ∧ p.layers = [[1, 2], [3], [0]] := by
  obtain ⟨p, hp, _, hl, hs⟩ := exists_layered validate_ladder
  refine ⟨validate_ladder, p, hp, hl, hs, ?_⟩
  obtain ⟨hflow, hlayers, _⟩ := eq_of_ofFlow hp
  have hlevels : ladderFlow.graph.levels = [2, 0, 0, 1] := by rfl
  simp only [layers, depth, size, layer, hlayers, hflow, hlevels]
  rfl

end Plan

end Workflow
