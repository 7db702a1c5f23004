import Mathlib
import Workflow.Proofs.Flow.Validation
import Workflow.Proofs.Graph.Components

namespace Workflow.Flow

variable {ids : List String} {g : Graph} {C D : Set Nat} {c d : List Nat} {names : List String}

/-- The ids of the places in a set, each once and in order. -/
structure Lists (ids : List String) (C : Set Nat) (names : List String) : Prop where
  sorted : names.Pairwise (· < ·)
  mem_iff : ∀ id, id ∈ names ↔ ∃ i ∈ C, ids[i]? = some id

/-- There is one issue for each strongly connected component that has a cycle, which lists the ids of the
component, and there are no other issues. They are in the order of what they list. -/
structure Reports (ids : List String) (g : Graph) (found : List Issue) : Prop where
  sorted : ∃ lists : List (List String), found = lists.map .cycle ∧ lists.Pairwise (· < ·)
  complete : ∀ C, g.IsComponent C → g.Looped C →
    ∃! issue, issue ∈ found ∧ ∃ names, issue = .cycle names ∧ Lists ids C names
  sound : ∀ issue ∈ found, ∃! C, (g.IsComponent C ∧ g.Looped C) ∧
    ∃ names, issue = .cycle names ∧ Lists ids C names

theorem Lists.unique {names' : List String} (h : Lists ids C names) (h' : Lists ids C names') :
    names = names' := by
  refine h.sorted.eq_of_mem_iff h'.sorted fun id => ?_
  rw [h.mem_iff, h'.mem_iff]

/-- Components that are listed the same way have a place in common. -/
theorem Lists.component_unique (hd : ids.Nodup) (hC : g.IsComponent C) (hD : g.IsComponent D)
    (hr : ∀ i ∈ C, i < ids.length) (h : Lists ids C names) (h' : Lists ids D names) : C = D := by
  obtain ⟨i, hi⟩ := hC.nonempty
  have hid := List.getElem?_eq_getElem (hr i hi)
  obtain ⟨j, hj, hjd⟩ := (h'.mem_iff _).mp ((h.mem_iff _).mpr ⟨i, hi, hid⟩)
  have hij : i = j := (List.getElem?_inj (hr i hi) hd).mp (hid.trans hjd.symm)
  exact hC.eq hD hi (hij ▸ hj)

/-- The ids of places, sorted. -/
def named (ids : List String) (c : List Nat) : List String :=
  (c.map (fun i => ids.getD i "")).mergeSort (fun a b => a ≤ b)

theorem pairwise_lt_of_nodup {α : Type} [LinearOrder α] {xs : List α} (hs : xs.Pairwise (· ≤ ·))
    (hd : xs.Nodup) : xs.Pairwise (· < ·) :=
  (hs.and hd).imp fun h => lt_of_le_of_ne h.1 h.2

theorem lists_named (hd : ids.Nodup) (hc : c.Nodup) (hr : ∀ i ∈ c, i < ids.length) :
    Lists ids {i | i ∈ c} (named ids c) := by
  have hget : ∀ i ∈ c, ids[i]? = some (ids.getD i "") := by
    intro i hi
    rw [List.getD_eq_getElem?_getD, List.getElem?_eq_getElem (hr i hi)]
    rfl
  have hperm := List.mergeSort_perm (c.map (fun i => ids.getD i "")) (fun a b => a ≤ b)
  constructor
  · refine pairwise_lt_of_nodup (List.pairwise_mergeSort' (· ≤ ·) _) (hperm.nodup_iff.mpr ?_)
    refine hc.map_on fun i hi j hj he => ?_
    refine (List.getElem?_inj (hr i hi) hd).mp ?_
    rw [hget i hi, hget j hj, he]
  · intro id
    rw [named, hperm.mem_iff, List.mem_map]
    constructor
    · rintro ⟨i, hi, rfl⟩
      exact ⟨i, hi, hget i hi⟩
    · rintro ⟨i, hi, he⟩
      exact ⟨i, hi, Option.some.inj ((hget i hi).symm.trans he)⟩

theorem lexLe_iff {a b : List String} : lexLe a b = true ↔ a ≤ b := by
  rw [lexLe, Bool.not_eq_true', decide_eq_false_iff_not]
  exact not_lt

theorem pairwise_cyclesOf (ids : List String) (g : Graph) : (cyclesOf ids g).Pairwise (· ≤ ·) := by
  refine (List.pairwise_mergeSort ?_ ?_ _).imp lexLe_iff.mp
  · intro a b c hab hbc
    exact lexLe_iff.mpr (le_trans (lexLe_iff.mp hab) (lexLe_iff.mp hbc))
  · intro a b
    rw [Bool.or_eq_true, lexLe_iff, lexLe_iff]
    exact le_total a b

/-- What is reported lists the components of the graph that have a cycle. -/
theorem reports_cyclesOf (hd : ids.Nodup) (hg : g.InRange) (hs : g.size = ids.length) :
    Reports ids g ((cyclesOf ids g).map .cycle) := by
  have hr : ∀ C, g.IsComponent C → ∀ i ∈ C, i < ids.length := fun C hC i hi => hs ▸ hC.lt_size hg hi
  have hlists : ∀ c ∈ g.cycles, Lists ids {i | i ∈ c} (named ids c) := fun c hc =>
    lists_named hd (Graph.pairwise_of_mem_cycles hc).nodup
      (hr _ (Graph.component_of_mem_cycles hg hc).1)
  have hperm := List.mergeSort_perm (g.cycles.map (named ids)) lexLe
  have hmem : ∀ names, names ∈ cyclesOf ids g ↔ ∃ c ∈ g.cycles, named ids c = names :=
    fun names => hperm.mem_iff.trans List.mem_map
  have hinj : ∀ c ∈ g.cycles, ∀ d ∈ g.cycles, named ids c = named ids d → c = d := by
    intro c hc d hd' he
    have hset := (hlists c hc).component_unique hd (Graph.component_of_mem_cycles hg hc).1
      (Graph.component_of_mem_cycles hg hd').1 (hr _ (Graph.component_of_mem_cycles hg hc).1)
      (he ▸ hlists d hd')
    exact (Graph.pairwise_of_mem_cycles hc).eq_of_mem_iff (Graph.pairwise_of_mem_cycles hd')
      (Set.ext_iff.mp hset)
  constructor
  · refine ⟨_, rfl, pairwise_lt_of_nodup (pairwise_cyclesOf ids g) (hperm.nodup_iff.mpr ?_)⟩
    exact (Graph.nodup_cycles g).map_on hinj
  · intro C hC hl
    obtain ⟨c, hc, rfl⟩ := Graph.exists_mem_cycles hg hC hl
    refine ⟨.cycle (named ids c), ⟨List.mem_map_of_mem ((hmem _).mpr ⟨c, hc, rfl⟩),
      _, rfl, hlists c hc⟩, ?_⟩
    rintro _ ⟨_, names, rfl, hn⟩
    rw [hn.unique (hlists c hc)]
  · intro issue hi
    obtain ⟨names, hn, rfl⟩ := List.mem_map.mp hi
    obtain ⟨c, hc, rfl⟩ := (hmem names).mp hn
    have hcc := Graph.component_of_mem_cycles hg hc
    refine ⟨{i | i ∈ c}, ⟨hcc, _, rfl, hlists c hc⟩, ?_⟩
    rintro D ⟨⟨hD, _⟩, names, he, hl⟩
    cases he
    exact hl.component_unique hd hD hcc.1 (hr D hD) (hlists c hc)

/-- The links between the nodes of a document are reported as they are. -/
theorem reports_cycleIssues {d : Document} (hd : (d.nodes.map Prod.fst).Nodup) :
    Reports (d.nodes.map Prod.fst) (graphOf d) (cycleIssues d.nodes d.links) :=
  reports_cyclesOf hd (graphOf_inRange d) (List.length_map _).symm

/-- For all nodes with different ids and all links between them, the cycles found are the strongly connected
components that have one; there are none exactly when no path leads back to its start. -/
theorem cycles_exact (nodes : List (String × Node)) (hd : (nodes.map Prod.fst).Nodup)
    (links : List (Nat × Nat)) (hl : ∀ a ∈ links, a.1 < nodes.length ∧ a.2 < nodes.length) :
    Reports (nodes.map Prod.fst) ⟨nodes.length, links⟩
      ((cyclesOf (nodes.map Prod.fst) ⟨nodes.length, links⟩).map .cycle) ∧
    ((cyclesOf (nodes.map Prod.fst) ⟨nodes.length, links⟩).map Issue.cycle = [] ↔
      (⟨nodes.length, links⟩ : Graph).Acyclic) := by
  have hg : (⟨nodes.length, links⟩ : Graph).InRange := fun i j h => hl (i, j) h
  refine ⟨reports_cyclesOf hd hg (List.length_map _).symm, ?_⟩
  rw [List.map_eq_nil_iff, cyclesOf_eq_nil_iff]
  exact Graph.cycles_eq_nil_iff hg

def bare : Node := ⟨[], [], none, .code "", {}, none⟩

/-- Two nodes in a ring with a link on it twice, and one linked to itself. -/
theorem cycles_exact_ring :
    Reports ["b", "a", "c"] ⟨3, [(1, 0), (0, 1), (2, 2), (0, 1)]⟩ [.cycle ["a", "b"], .cycle ["c"]] := by
  have hexact : Reports ["b", "a", "c"] ⟨3, _⟩ ((cyclesOf ["b", "a", "c"] ⟨3, _⟩).map .cycle) :=
    (cycles_exact [("b", bare), ("a", bare), ("c", bare)] (by decide)
      [(1, 0), (0, 1), (2, 2), (0, 1)] (by decide)).1
  have hcycles : cyclesOf ["b", "a", "c"] ⟨3, [(1, 0), (0, 1), (2, 2), (0, 1)]⟩ = [["a", "b"], ["c"]] := by
    cbv
  rwa [hcycles] at hexact

end Workflow.Flow
