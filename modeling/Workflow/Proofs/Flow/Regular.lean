import Workflow.Proofs.Flow.Validation

namespace Workflow.Flow

/-- What runs rely on: every node has an id of its own, every link leads from the inputs of the run or
a node to its outputs or a node, and no path leads back to its start. -/
structure Regular (f : Flow) : Prop where
  ids_nodup : f.ids.Nodup
  source : ∀ l ∈ f.links, l.source.endpoint = .input ∨ ∃ i, f.placeAt? l.source.endpoint = some i
  target : ∀ l ∈ f.links, l.target.endpoint = .output ∨ ∃ i, f.placeAt? l.target.endpoint = some i
  acyclic : f.graph.Acyclic

theorem placeOf?_of_mem {f : Flow} {id : String} (h : id ∈ f.ids) : ∃ i, f.placeOf? id = some i :=
  ⟨_, List.findIdx?_eq_some_of_exists ⟨id, h, by simp⟩⟩

theorem placeOf?_eq_some {f : Flow} {id : String} {i : Nat} (h : f.placeOf? id = some i) :
    f.ids[i]? = some id := by
  obtain ⟨hi, hp, _⟩ := List.findIdx?_eq_some_iff_getElem.mp h
  rw [List.getElem?_eq_getElem hi]
  simpa using hp

theorem placeAt?_eq_some {f : Flow} {e : Endpoint} {i : Nat} (h : f.placeAt? e = some i) :
    ∃ id, e = .node id ∧ f.ids[i]? = some id := by
  obtain ⟨id, he, hi⟩ := Option.bind_eq_some_iff.mp h
  refine ⟨id, ?_, placeOf?_eq_some hi⟩
  cases e with
  | node a => exact congrArg Endpoint.node (Option.some.inj he)
  | input | output => cases he

/-- Where ids are different, the place of a node is the one where its id stands. -/
theorem placeAt?_eq_some_iff {f : Flow} (hd : f.ids.Nodup) {i : Nat} {id : String} (hid : f.ids[i]? = some id)
    {e : Endpoint} : f.placeAt? e = some i ↔ e = .node id := by
  constructor
  · intro he
    obtain ⟨id', rfl, hid'⟩ := placeAt?_eq_some he
    rw [Option.some.inj (hid'.symm.trans hid)]
  · rintro rfl
    obtain ⟨j, hj⟩ := placeOf?_of_mem (List.mem_of_getElem? hid)
    have hlt : i < f.ids.length := (List.getElem?_eq_some_iff.mp hid).1
    have hij : i = j := (List.getElem?_inj hlt hd).mp (hid.trans (placeOf?_eq_some hj).symm)
    exact hij ▸ hj

theorem exists_denotes {d : Document} {f : Flow} (h : d.Denotes f) {l : Link} (hl : l ∈ f.links) :
    ∃ spec ∈ d.links, spec.Denotes d.nodes l := by
  obtain ⟨i, hi, rfl⟩ := List.mem_iff_getElem.mp hl
  have hlen := h.links.length_eq
  exact ⟨d.links[i], List.getElem_mem _, h.links.get (by omega) hi⟩

theorem mem_ids {d : Document} {f : Flow} (h : d.Denotes f) {id : String} {n : Node}
    (hn : (id, n) ∈ d.nodes) : id ∈ f.ids := by
  rw [ids, h.nodes]
  exact List.mem_map.mpr ⟨(id, n), hn, rfl⟩

theorem feeds_of_graph_arc {d : Document} {f : Flow} (h : d.Denotes f) {i j : Nat}
    (ha : f.graph.Arc i j) : d.Feeds (f.ids.getD i "") (f.ids.getD j "") := by
  obtain ⟨l, hl, hm⟩ := List.mem_filterMap.mp ha
  split at hm
  · next hi hj =>
    cases hm
    obtain ⟨a, hs, ha⟩ := placeAt?_eq_some hi
    obtain ⟨b, ht, hb⟩ := placeAt?_eq_some hj
    obtain ⟨spec, hspec, hd⟩ := exists_denotes h hl
    have hfeeds : d.Feeds a b := by
      refine ⟨spec, hspec, l.source.port, l.target.port, ?_, ?_⟩
      · rw [hd.source, ← hs]
      · rw [hd.target, ← ht]
    simpa only [List.getD_eq_getElem?_getD, ha, hb, Option.getD_some] using hfeeds
  · cases hm

theorem regular_of_validate {d : Document} {f : Flow} (h : validate d = .ok f) : f.Regular := by
  have hw := wellFormed_of_validate h
  have hd := denotes_of_validate h
  refine ⟨?_, fun l hl => ?_, fun l hl => ?_, fun i hi => ?_⟩
  · rw [ids, hd.nodes]
    exact hw.ids_nodup
  · obtain ⟨spec, _, hs⟩ := exists_denotes hd hl
    obtain ⟨k, k', hk, -, -⟩ := hs.converts
    generalize l.source = r at hk
    cases hk with
    | input port => exact .inl rfl
    | node hn hp => exact .inr (placeOf?_of_mem (mem_ids hd hn))
  · obtain ⟨spec, _, hs⟩ := exists_denotes hd hl
    obtain ⟨k, k', -, hk', -⟩ := hs.converts
    generalize l.target = r at hk'
    cases hk' with
    | output port => exact .inl rfl
    | node hn hp => exact .inr (placeOf?_of_mem (mem_ids hd hn))
  · exact hw.acyclic _ (hi.lift (fun i => f.ids.getD i "") fun _ _ => feeds_of_graph_arc hd)

end Workflow.Flow
