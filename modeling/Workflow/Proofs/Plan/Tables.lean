import Workflow.Plan
import Workflow.Proofs.Flow.Validation

namespace Workflow

namespace Plan

theorem mem_linksWhere {f : Flow} {test : Link → Bool} {e : Nat} :
    e ∈ linksWhere f test ↔ ∃ l, f.links[e]? = some l ∧ test l = true := by
  simp only [linksWhere, List.mem_filterMap, Option.ite_none_right_eq_some, Option.some.injEq]
  constructor
  · rintro ⟨⟨i, l⟩, hm, ht, rfl⟩
    obtain ⟨k, hk⟩ := List.mem_iff_getElem?.mp hm
    obtain ⟨hr, hl⟩ := List.getElem?_zip_eq_some.mp hk
    obtain ⟨hk, hi⟩ := List.getElem?_eq_some_iff.mp hr
    rw [List.getElem_range] at hi
    exact ⟨l, hi ▸ hl, ht⟩
  · rintro ⟨l, hl, ht⟩
    have hlt : e < f.links.length := (List.getElem?_eq_some_iff.mp hl).1
    refine ⟨(e, l), List.mem_iff_getElem?.mpr ⟨e, ?_⟩, ht, rfl⟩
    exact List.getElem?_zip_eq_some.mpr ⟨List.getElem?_range hlt, hl⟩

theorem linksWhere_pairwise (f : Flow) (test : Link → Bool) :
    (linksWhere f test).Pairwise (· < ·) := by
  have hz : ((List.range f.links.length).zip f.links).Pairwise (fun a b => a.1 < b.1) := by
    rw [← List.pairwise_map, List.map_fst_zip (by simp)]
    exact List.pairwise_lt_range
  refine List.Pairwise.filterMap _ ?_ hz
  rintro ⟨i, l⟩ ⟨j, m⟩ hij a ha b hb
  simp only [Option.ite_none_right_eq_some, Option.some.injEq] at ha hb
  obtain ⟨_, rfl⟩ := ha
  obtain ⟨_, rfl⟩ := hb
  exact hij

theorem linksWhere_nodup (f : Flow) (test : Link → Bool) : (linksWhere f test).Nodup :=
  (linksWhere_pairwise f test).imp Nat.ne_of_lt

def sourceOf? (p : Plan) (e : Nat) : Option Nat :=
  (p.flow.links[e]?).bind (fun l => p.flow.placeAt? l.source.endpoint)

def targetOf? (p : Plan) (e : Nat) : Option Nat :=
  (p.flow.links[e]?).bind (fun l => p.flow.placeAt? l.target.endpoint)

/-- The tables of a plan list the links of its flow as they stand in the document. -/
structure Tabled (p : Plan) : Prop where
  mem_into : ∀ i e, e ∈ p.into i ↔ p.targetOf? e = some i
  into_nodup : ∀ i, (p.into i).Nodup
  mem_outOf : ∀ i e, e ∈ p.outOf i ↔ p.sourceOf? e = some i
  outOf_nodup : ∀ i, (p.outOf i).Nodup
  mem_inputLinks : ∀ e, e ∈ p.inputLinks ↔ ∃ l, p.flow.links[e]? = some l ∧ l.source.endpoint = .input
  inputLinks_nodup : p.inputLinks.Nodup
  mem_outputLinks : ∀ e, e ∈ p.outputLinks ↔
    ∃ l, p.flow.links[e]? = some l ∧ l.target.endpoint = .output

/-- A plan is that of the flow that it keeps. -/
theorem eq_of_ofFlow {f : Flow} {p : Plan} (h : ofFlow f = .ok p) :
    p.flow = f ∧ p.layerOf = f.graph.levels ∧
    p.incoming = (List.range f.nodes.length).map (fun i =>
      linksWhere f (fun l => f.placeAt? l.target.endpoint = some i)) ∧
    p.outgoing = (List.range f.nodes.length).map (fun i =>
      linksWhere f (fun l => f.placeAt? l.source.endpoint = some i)) ∧
    p.inputLinks = linksWhere f (fun l => l.source.endpoint = .input) ∧
    p.outputLinks = linksWhere f (fun l => l.target.endpoint = .output) := by
  unfold ofFlow at h
  split at h
  · cases h
  · cases hs : nodeSchemas 0 f.nodes with
    | error e =>
      rw [hs] at h
      cases h
    | ok schemas =>
      rw [hs] at h
      cases h
      exact ⟨rfl, rfl, rfl, rfl, rfl, rfl⟩

theorem placeOf?_lt {f : Flow} {id : String} {i : Nat} (h : f.placeOf? id = some i) :
    i < f.nodes.length := by
  have hlt := (List.findIdx?_eq_some_iff_getElem.mp h).1
  simpa [Flow.ids] using hlt

theorem placeAt?_lt {f : Flow} {e : Endpoint} {i : Nat} (h : f.placeAt? e = some i) :
    i < f.nodes.length := by
  obtain ⟨id, _, hi⟩ := Option.bind_eq_some_iff.mp h
  exact placeOf?_lt hi

theorem getD_map_range {α : Type} (g : Nat → List α) (n i : Nat) :
    ((List.range n).map g).getD i [] = if i < n then g i else [] := by
  rw [List.getD_eq_getElem?_getD, List.getElem?_map]
  split
  · next h => rw [List.getElem?_range h, Option.map_some, Option.getD_some]
  · next h => rw [List.getElem?_eq_none (by simpa using h), Option.map_none, Option.getD_none]

theorem mem_table {f : Flow} {end? : Link → Option Nat}
    (hlt : ∀ l i, end? l = some i → i < f.nodes.length) (i e : Nat) :
    e ∈ ((List.range f.nodes.length).map (fun i => linksWhere f (fun l => end? l = some i))).getD i []
      ↔ (f.links[e]?).bind end? = some i := by
  rw [getD_map_range]
  split
  · simp [mem_linksWhere, Option.bind_eq_some_iff]
  · next hi =>
    simp only [List.not_mem_nil, false_iff]
    intro h
    obtain ⟨l, _, hl⟩ := Option.bind_eq_some_iff.mp h
    exact hi (hlt l i hl)

theorem table_pairwise (f : Flow) (test : Nat → Link → Bool) (n i : Nat) :
    (((List.range n).map (fun i => linksWhere f (test i))).getD i []).Pairwise (· < ·) := by
  rw [getD_map_range]
  split
  · exact linksWhere_pairwise f (test i)
  · exact List.Pairwise.nil

theorem table_nodup (f : Flow) (test : Nat → Link → Bool) (n i : Nat) :
    (((List.range n).map (fun i => linksWhere f (test i))).getD i []).Nodup :=
  (table_pairwise f test n i).imp Nat.ne_of_lt

/-- The links into a node stand in document order. -/
theorem into_pairwise {f : Flow} {p : Plan} (h : ofFlow f = .ok p) (i : Nat) :
    (p.into i).Pairwise (· < ·) := by
  obtain ⟨rfl, _, hin, _⟩ := eq_of_ofFlow h
  rw [into, hin]
  exact table_pairwise _ _ _ i

theorem outOf_pairwise {f : Flow} {p : Plan} (h : ofFlow f = .ok p) (i : Nat) :
    (p.outOf i).Pairwise (· < ·) := by
  obtain ⟨rfl, _, _, hout, _⟩ := eq_of_ofFlow h
  rw [outOf, hout]
  exact table_pairwise _ _ _ i

theorem inputLinks_pairwise {f : Flow} {p : Plan} (h : ofFlow f = .ok p) :
    p.inputLinks.Pairwise (· < ·) := by
  obtain ⟨rfl, _, _, _, hi, _⟩ := eq_of_ofFlow h
  rw [hi]
  exact linksWhere_pairwise _ _

theorem outputLinks_pairwise {f : Flow} {p : Plan} (h : ofFlow f = .ok p) :
    p.outputLinks.Pairwise (· < ·) := by
  obtain ⟨rfl, _, _, _, _, ho⟩ := eq_of_ofFlow h
  rw [ho]
  exact linksWhere_pairwise _ _

theorem tabled_of_ofFlow {f : Flow} {p : Plan} (h : ofFlow f = .ok p) : p.Tabled := by
  obtain ⟨rfl, _, hin, hout, hi, ho⟩ := eq_of_ofFlow h
  refine ⟨fun i e => ?_, fun i => ?_, fun i e => ?_, fun i => ?_, fun e => ?_, ?_, fun e => ?_⟩
  · rw [into, hin]
    exact mem_table (fun l i => placeAt?_lt) i e
  · rw [into, hin]
    exact table_nodup _ _ _ i
  · rw [outOf, hout]
    exact mem_table (fun l i => placeAt?_lt) i e
  · rw [outOf, hout]
    exact table_nodup _ _ _ i
  · simp [hi, mem_linksWhere]
  · rw [hi]
    exact linksWhere_nodup _ _
  · simp [ho, mem_linksWhere]

end Plan

end Workflow
