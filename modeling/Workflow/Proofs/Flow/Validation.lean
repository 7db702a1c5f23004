import Workflow.Proofs.Flow.Links
import Workflow.Proofs.Flow.Rules
import Workflow.Proofs.Graph.Reach

namespace Workflow

namespace Flow

theorem cyclesOf_eq_nil_iff {ids : List String} {g : Graph} :
    cyclesOf ids g = [] ↔ g.cycles = [] := by
  rw [cyclesOf, ← List.length_eq_zero_iff, List.length_mergeSort, List.length_map,
    List.length_eq_zero_iff]

theorem getD_of_findIdx? {nodes : List (String × Node)} {id : String} {i : Nat}
    (h : nodes.findIdx? (fun e => e.1 = id) = some i) :
    i < nodes.length ∧ (nodes.map Prod.fst).getD i "" = id := by
  obtain ⟨hi, hp, _⟩ := List.findIdx?_eq_some_iff_getElem.mp h
  refine ⟨hi, ?_⟩
  simpa [List.getD_eq_getElem?_getD, hi] using hp

theorem findIdx?_of_mem {nodes : List (String × Node)} {id : String} {n : Node}
    (h : (id, n) ∈ nodes) :
    nodes.findIdx? (fun e => e.1 = id) = some (nodes.findIdx (fun e => e.1 = id)) :=
  List.findIdx?_eq_some_of_exists ⟨(id, n), h, by simp⟩

section Cycles

variable {d : Document}

/-- The nodes of a document, by their places, and the links between them. -/
def graphOf (d : Document) : Graph := ⟨d.nodes.length, d.links.filterMap (arcOf? d.nodes)⟩

theorem graphOf_arc {i j : Nat} :
    (graphOf d).Arc i j ↔ ∃ spec ∈ d.links, arcOf? d.nodes spec = some (i, j) := by
  simp [Graph.Arc, graphOf, List.mem_filterMap]

theorem graphOf_inRange (d : Document) : (graphOf d).InRange := by
  intro i j h
  obtain ⟨spec, _, hs⟩ := graphOf_arc.mp h
  obtain ⟨a, p, b, q, _, _, hi, hj⟩ := arcOf?_eq_some_iff.mp hs
  exact ⟨(getD_of_findIdx? hi).1, (getD_of_findIdx? hj).1⟩

theorem feeds_of_arc {i j : Nat} (h : (graphOf d).Arc i j) :
    d.Feeds ((d.nodes.map Prod.fst).getD i "") ((d.nodes.map Prod.fst).getD j "") := by
  obtain ⟨spec, hm, hs⟩ := graphOf_arc.mp h
  obtain ⟨a, p, b, q, hps, hpt, hi, hj⟩ := arcOf?_eq_some_iff.mp hs
  rw [(getD_of_findIdx? hi).2, (getD_of_findIdx? hj).2]
  exact ⟨spec, hm, p, q, hps, hpt⟩

theorem arc_of_feeds (hl : ∀ spec ∈ d.links, ∃ l, spec.Denotes d.nodes l) {a b : String}
    (h : d.Feeds a b) :
    (graphOf d).Arc (d.nodes.findIdx (fun e => e.1 = a)) (d.nodes.findIdx (fun e => e.1 = b)) := by
  obtain ⟨spec, hm, p, q, hps, hpt⟩ := h
  obtain ⟨l, hs, ht, _, _, k, k', hk, hk', _⟩ := hl spec hm
  have hsl : l.source = ⟨.node a, p⟩ := Option.some.inj (hs.symm.trans hps)
  have htl : l.target = ⟨.node b, q⟩ := Option.some.inj (ht.symm.trans hpt)
  rw [hsl] at hk
  rw [htl] at hk'
  refine graphOf_arc.mpr ⟨spec, hm, arcOf?_eq_some_iff.mpr ⟨a, p, b, q, hps, hpt, ?_, ?_⟩⟩
  · cases hk with
    | node hn _ => exact findIdx?_of_mem hn
  · cases hk' with
    | node hn _ => exact findIdx?_of_mem hn

/-- Paths of names and paths of places are the same when every link joins nodes that exist. -/
theorem acyclic_iff (hl : ∀ spec ∈ d.links, ∃ l, spec.Denotes d.nodes l) :
    (graphOf d).Acyclic ↔ ∀ id, ¬ Relation.TransGen d.Feeds id id := by
  constructor
  · intro h id hc
    exact h _ (hc.lift (fun a => d.nodes.findIdx (fun e => e.1 = a)) fun _ _ => arc_of_feeds hl)
  · intro h i hc
    exact h _ (hc.lift (fun i => (d.nodes.map Prod.fst).getD i "") fun _ _ => feeds_of_arc)

theorem cycleIssues_eq_nil_iff (hl : ∀ spec ∈ d.links, ∃ l, spec.Denotes d.nodes l) :
    cycleIssues d.nodes d.links = [] ↔ ∀ id, ¬ Relation.TransGen d.Feeds id id := by
  rw [cycleIssues, List.map_eq_nil_iff, cyclesOf_eq_nil_iff, ← acyclic_iff hl]
  exact Graph.cycles_eq_nil_iff (graphOf_inRange d)

end Cycles

theorem named_of_sound {d : Document} (hd : (d.nodes.map Prod.fst).Nodup)
    (hn : ∀ e ∈ d.nodes, e.2.Sound d.requires) : Named d.nodes :=
  ⟨hd, fun e he => (hn e he).ports_nodup⟩

/-- Nothing is wrong with a document exactly when it is well formed. -/
theorem issues_eq_nil_iff {d : Document} : issues d = [] ↔ d.WellFormed := by
  simp only [issues, List.append_eq_nil_iff, ite_nil_eq_nil, isSupportedVersion_iff,
    nodesIssues_eq_nil_iff, linksIssues_eq_nil_iff, unwiredIssues_eq_nil_iff]
  constructor
  · rintro ⟨⟨⟨⟨hv, hi, hs, hd, hn⟩, -, hld, hl⟩, hw⟩, hc⟩
    rw [firstNodes_eq_self hs hd] at hl hw hc
    have hlinks : ∀ spec ∈ d.links, ∃ l, spec.Denotes d.nodes l := fun spec hm =>
      (hl spec hm).imp fun l => (linkOf?_eq_some_iff (named_of_sound hd hn)).mp
    exact ⟨hv, hi, hd, hn, hlinks, hld, hw, (cycleIssues_eq_nil_iff hlinks).mp hc⟩
  · rintro ⟨hv, hi, hd, hn, hl, hld, hw, hc⟩
    rw [firstNodes_eq_self (by simp) hd]
    refine ⟨⟨⟨⟨hv, hi, by simp, hd, hn⟩, by simp, hld, fun spec hm => ?_⟩, hw⟩, ?_⟩
    · exact (hl spec hm).imp fun l => (linkOf?_eq_some_iff (named_of_sound hd hn)).mpr
    · exact (cycleIssues_eq_nil_iff hl).mpr hc

theorem validate_of_issues_eq_nil {d : Document} (h : issues d = []) :
    validate d = .ok ⟨d.version, d.metadata, d.requires, d.nodes,
      d.links.filterMap (linkOf? d.nodes), d.deployment⟩ := by
  rw [validate, h]

theorem issues_eq_nil_of_validate {d : Document} {f : Flow} (h : validate d = .ok f) :
    issues d = [] := by
  unfold validate at h
  split at h
  · next hi => exact hi
  · cases h

theorem denotes_of_validate {d : Document} {f : Flow} (h : validate d = .ok f) : d.Denotes f := by
  have hi := issues_eq_nil_of_validate h
  have hw := issues_eq_nil_iff.mp hi
  rw [validate_of_issues_eq_nil hi] at h
  cases h
  have hnamed := named_of_sound hw.ids_nodup hw.nodes
  refine ⟨rfl, rfl, rfl, rfl, forall₂_links hnamed fun spec hm => ?_, rfl⟩
  exact (hw.links spec hm).imp fun l => (linkOf?_eq_some_iff hnamed).mpr

theorem wellFormed_of_validate {d : Document} {f : Flow} (h : validate d = .ok f) : d.WellFormed :=
  issues_eq_nil_iff.mp (issues_eq_nil_of_validate h)

theorem sound_of_validate {d : Document} {f : Flow} (h : validate d = .ok f) {id : String} {n : Node}
    (hn : (id, n) ∈ f.nodes) : n.Sound d.requires :=
  (wellFormed_of_validate h).nodes (id, n) ((denotes_of_validate h).nodes ▸ hn)

/-- A document is accepted exactly when it is well formed, and then as the flow that it denotes. -/
theorem validate_eq_ok_iff (d : Document) :
    ((∃ f, validate d = .ok f) ↔ d.WellFormed) ∧
      ∀ f, validate d = .ok f ↔ d.WellFormed ∧ d.Denotes f := by
  have hok : d.WellFormed → ∃ f, validate d = .ok f := fun h =>
    ⟨_, validate_of_issues_eq_nil (issues_eq_nil_iff.mpr h)⟩
  have hwf : ∀ f, validate d = .ok f → d.WellFormed := fun f h =>
    issues_eq_nil_iff.mp (issues_eq_nil_of_validate h)
  refine ⟨⟨fun ⟨f, h⟩ => hwf f h, hok⟩, fun f => ⟨fun h => ⟨hwf f h, denotes_of_validate h⟩, ?_⟩⟩
  rintro ⟨h, hf⟩
  rw [validate_of_issues_eq_nil (issues_eq_nil_iff.mpr h)]
  obtain ⟨version, metadata, requires, nodes, links, deployment⟩ := f
  obtain ⟨rfl, rfl, rfl, rfl, hl, rfl⟩ := hf
  cases links_eq_of_forall₂ (named_of_sound h.ids_nodup h.nodes) hl
  rfl

end Flow

end Workflow
