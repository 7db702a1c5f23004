import Workflow.Proofs.Flow.Cycles
import Workflow.Proofs.Plan.Layers

namespace Workflow

/-- Some link leads from one node to another, which are given by their ids. -/
def Flow.Feeds (f : Flow) (a b : String) : Prop :=
  ∃ l ∈ f.links, l.source.endpoint = .node a ∧ l.target.endpoint = .node b

namespace Plan

variable {d : Document} {f : Flow} {p : Plan} {id : String} {i j k n : Nat} {stack seen : List Nat}

section Ids

variable {a b : String}

theorem lt_length_ids (hi : i < f.graph.size) : i < f.ids.length := by
  rwa [Flow.ids, List.length_map]

theorem feeds_of_joins (ha : f.ids[i]? = some a) (hb : f.ids[j]? = some b) (h : f.Joins i j) :
    f.Feeds a b := by
  obtain ⟨l, hl, hs, ht⟩ := h
  obtain ⟨a', hsource, ha'⟩ := Flow.placeAt?_eq_some hs
  obtain ⟨b', htarget, hb'⟩ := Flow.placeAt?_eq_some ht
  obtain rfl : a = a' := Option.some.inj (ha.symm.trans ha')
  obtain rfl : b = b' := Option.some.inj (hb.symm.trans hb')
  exact ⟨l, hl, hsource, htarget⟩

theorem joins_of_feeds (hf : f.Regular) (h : f.Feeds a b) :
    ∃ i j, f.placeOf? a = some i ∧ f.placeOf? b = some j ∧ f.Joins i j := by
  obtain ⟨l, hl, hs, ht⟩ := h
  obtain ⟨i, hi⟩ := (hf.source l hl).resolve_left (by rw [hs]; exact Endpoint.noConfusion)
  obtain ⟨j, hj⟩ := (hf.target l hl).resolve_left (by rw [ht]; exact Endpoint.noConfusion)
  exact ⟨i, j, by rwa [hs] at hi, by rwa [ht] at hj, l, hl, hi, hj⟩

theorem feeds_of_reach (ha : f.ids[i]? = some a) (hb : f.ids[j]? = some b) (h : f.graph.Reach i j) :
    Relation.TransGen f.Feeds a b := by
  induction h generalizing b with
  | single harc => exact .single (feeds_of_joins ha hb (Flow.graph_arc ▸ harc))
  | @tail k j _ harc ih =>
    have hc := List.getElem?_eq_getElem (lt_length_ids (f.graph_inRange _ _ harc).1)
    exact (ih hc).tail (feeds_of_joins hc hb (Flow.graph_arc ▸ harc))

theorem reach_of_feeds (hf : f.Regular) (h : Relation.TransGen f.Feeds a b) :
    ∃ i j, f.placeOf? a = some i ∧ f.placeOf? b = some j ∧ f.graph.Reach i j := by
  induction h with
  | single hab =>
    obtain ⟨i, j, hi, hj, hij⟩ := joins_of_feeds hf hab
    exact ⟨i, j, hi, hj, .single (Flow.graph_arc ▸ hij)⟩
  | tail _ hbc ih =>
    obtain ⟨i, j, hi, hj, hij⟩ := ih
    obtain ⟨j', k, hj', hk, hjk⟩ := joins_of_feeds hf hbc
    obtain rfl : j = j' := Option.some.inj (hj.symm.trans hj')
    exact ⟨i, k, hi, hk, hij.tail (Flow.graph_arc ▸ hjk)⟩

end Ids

section Search

/-- The nodes that the links into a node come from. -/
def sources (p : Plan) (i : Nat) : List Nat := (p.into i).filterMap p.sourceOf?

/-- The sources of a node that were not seen before, each once. -/
def unseen (p : Plan) (seen : List Nat) (i : Nat) : List Nat :=
  (p.sources i).eraseDups.filter (fun k => k ∉ seen)

/-- The rounds done of a search for what a node depends on, the nodes still to be looked at and those seen.
A round looks at any one of the former, and has only those of its sources still to be looked at that were
not seen before. -/
inductive Searched (p : Plan) (i : Nat) : Nat → List Nat → List Nat → Prop
  | start : Searched p i 0 [i] []
  | round {n j : Nat} {stack rest seen : List Nat} (h : Searched p i n stack seen)
      (ht : stack.Perm (j :: rest)) :
      Searched p i (n + 1) (rest ++ p.unseen seen j) (seen ++ p.unseen seen j)

theorem mem_sources (ht : p.Tabled) : k ∈ p.sources j ↔ p.flow.graph.Arc k j := by
  rw [sources, List.mem_filterMap, arc_iff]
  exact exists_congr fun e => by rw [ht.mem_into, and_comm]

theorem mem_unseen (ht : p.Tabled) : k ∈ p.unseen seen j ↔ p.flow.graph.Arc k j ∧ k ∉ seen := by
  rw [unseen, List.mem_filter, List.mem_eraseDups, mem_sources ht, decide_eq_true_eq]

theorem Searched.count (h : p.Searched i n stack seen) : n + stack.length = seen.length + 1 := by
  induction h with
  | start => rfl
  | round _ hperm ih =>
    have hlen := hperm.length_eq
    simp only [List.length_append, List.length_cons] at hlen ⊢
    omega

theorem Searched.nodup (h : p.Searched i n stack seen) : seen.Nodup := by
  induction h with
  | start => exact List.nodup_nil
  | round _ _ ih =>
    refine ih.append ((Graph.nodup_eraseDups _).filter _) fun k hk hu => ?_
    exact of_decide_eq_true (List.mem_filter.mp hu).2 hk

/-- Apart from the node itself only what was seen is looked at. -/
theorem Searched.mem_stack (h : p.Searched i n stack seen) (hk : k ∈ stack) : k = i ∨ k ∈ seen := by
  induction h with
  | start => exact .inl (List.mem_singleton.mp hk)
  | round _ hperm ih =>
    rcases List.mem_append.mp hk with hk | hk
    · exact (ih (hperm.mem_iff.mpr (List.mem_cons_of_mem _ hk))).imp_right (List.mem_append_left _)
    · exact .inr (List.mem_append_right _ hk)

theorem Searched.reach (ht : p.Tabled) (h : p.Searched i n stack seen) :
    ∀ k ∈ seen, p.flow.graph.Reach k i := by
  induction h with
  | start => exact fun k hk => nomatch hk
  | round h hperm ih =>
    intro k hk
    rcases List.mem_append.mp hk with hk | hk
    · exact ih k hk
    · have harc := ((mem_unseen ht).mp hk).1
      rcases h.mem_stack (hperm.mem_iff.mpr List.mem_cons_self) with rfl | hj
      · exact .single harc
      · exact .head harc (ih _ hj)

/-- All sources were seen of the nodes that are no longer to be looked at. -/
theorem Searched.closed (ht : p.Tabled) (h : p.Searched i n stack seen) :
    ∀ j, j = i ∨ j ∈ seen → j ∉ stack → ∀ k, p.flow.graph.Arc k j → k ∈ seen := by
  induction h with
  | start =>
    rintro j (rfl | hj) hs
    · exact absurd List.mem_cons_self hs
    · cases hj
  | @round _ now stack rest seen _ hperm ih =>
    intro j hj hs k harc
    rw [List.mem_append, not_or] at hs
    have hseen : j = i ∨ j ∈ seen :=
      hj.imp_right fun hm => (List.mem_append.mp hm).resolve_right hs.2
    by_cases hk : k ∈ seen
    · exact List.mem_append_left _ hk
    · refine List.mem_append_right _ ?_
      by_cases hnow : j = now
      · exact (mem_unseen ht).mpr ⟨hnow ▸ harc, hk⟩
      · refine absurd (ih j hseen (fun hm => ?_) k harc) hk
        exact (List.mem_cons.mp (hperm.mem_iff.mp hm)).elim hnow hs.1

/-- With nothing left to look at, the nodes on all paths were seen. -/
theorem Searched.mem_iff (ht : p.Tabled) (h : p.Searched i n [] seen) :
    k ∈ seen ↔ p.flow.graph.Reach k i := by
  refine ⟨h.reach ht k, fun hk => ?_⟩
  have hc := fun j hj => h.closed ht j hj List.not_mem_nil
  induction hk using Relation.TransGen.head_induction_on with
  | single harc => exact hc i (.inl rfl) _ harc
  | head harc _ ih => exact hc _ (.inr ih) _ harc

/-- A search sees no more than the ancestors in the graph, and looks at each of them only once. -/
theorem Searched.le (ht : p.Tabled) (h : p.Searched i n stack seen) :
    n ≤ (p.flow.graph.ancestors i).length + 1 := by
  have hsub : seen ⊆ p.flow.graph.ancestors i := fun k hk =>
    (Graph.mem_ancestors p.flow.graph_inRange).mpr (h.reach ht k hk)
  have hle := (h.nodup.subperm hsub).length_le
  have hcount := h.count
  omega

/-- A search comes to its end from wherever it is. -/
theorem Searched.exists_end (ht : p.Tabled) (h : p.Searched i n stack seen) :
    ∃ m found, p.Searched i m [] found := by
  induction hb : (p.flow.graph.ancestors i).length + 1 - n generalizing n stack seen with
  | zero =>
    match stack with
    | [] => exact ⟨n, seen, h⟩
    | j :: rest =>
      have hle := (h.round (List.Perm.refl _)).le ht
      omega
  | succ b ih =>
    match stack with
    | [] => exact ⟨n, seen, h⟩
    | j :: rest => exact ih (h.round (List.Perm.refl _)) (by omega)

end Search

theorem dependencies_eq (hflow : p.flow = f) (hi : f.placeOf? id = some i) :
    p.dependencies id = Flow.named f.ids (f.graph.ancestors i) := by
  subst hflow
  rw [dependencies, hi]
  rfl

theorem lists_dependencies (hf : f.Regular) (hflow : p.flow = f) (hi : f.placeOf? id = some i) :
    Flow.Lists f.ids {k | k ∈ f.graph.ancestors i} (p.dependencies id) := by
  rw [dependencies_eq hflow hi]
  refine Flow.lists_named hf.ids_nodup (Graph.nodup_ancestors _ _) fun k hk => lt_length_ids ?_
  exact (f.graph_inRange.reach ((Graph.mem_ancestors f.graph_inRange).mp hk)).1

theorem mem_dependencies (hf : f.Regular) (hflow : p.flow = f) (hid : id ∈ f.ids) {m : String} :
    m ∈ p.dependencies id ↔ Relation.TransGen f.Feeds m id := by
  obtain ⟨i, hi⟩ := Flow.placeOf?_of_mem hid
  rw [(lists_dependencies hf hflow hi).mem_iff]
  constructor
  · rintro ⟨k, hk, hm⟩
    exact feeds_of_reach hm (Flow.placeOf?_eq_some hi) ((Graph.mem_ancestors f.graph_inRange).mp hk)
  · intro h
    obtain ⟨k, i', hk, hi', hr⟩ := reach_of_feeds hf h
    obtain rfl : i = i' := Option.some.inj (hi.symm.trans hi')
    exact ⟨k, (Graph.mem_ancestors f.graph_inRange).mpr hr, Flow.placeOf?_eq_some hk⟩

/-- The dependencies of a node are listed in order and once each. They are the nodes from which a path of
one or more links leads to it, and so neither the node itself nor without their own dependencies. Every
search for them ends, in whatever order it goes, and finds them all. -/
theorem dependencies_exact (hv : Flow.validate d = .ok f) (hp : ofFlow f = .ok p) (hid : id ∈ f.ids) :
    (∃ i, f.placeOf? id = some i ∧
      (∀ n stack seen, p.Searched i n stack seen → n ≤ (p.dependencies id).length + 1 ∧
        (stack = [] → Flow.named f.ids seen = p.dependencies id)) ∧
      ∃ n seen, p.Searched i n [] seen) ∧
    (p.dependencies id).Pairwise (· < ·) ∧
    (∀ m, m ∈ p.dependencies id ↔ Relation.TransGen f.Feeds m id) ∧
    id ∉ p.dependencies id ∧
    ∀ m ∈ p.dependencies id, p.dependencies m ⊆ p.dependencies id := by
  have hf := Flow.regular_of_validate hv
  have hflow := (eq_of_ofFlow hp).1
  have htab := tabled_of_ofFlow hp
  obtain ⟨i, hi⟩ := Flow.placeOf?_of_mem hid
  have hlists := lists_dependencies hf hflow hi
  have hmem := fun m => mem_dependencies (m := m) hf hflow hid
  refine ⟨⟨i, hi, fun n stack seen hs => ⟨?_, ?_⟩, Searched.start.exists_end htab⟩, hlists.sorted, hmem,
    fun h => ?_, fun m hm a ha => ?_⟩
  · have hle := hs.le htab
    rw [hflow] at hle
    rw [dependencies_eq hflow hi, Flow.named, List.length_mergeSort, List.length_map]
    exact hle
  · rintro rfl
    have hset : {k | k ∈ seen} = {k | k ∈ f.graph.ancestors i} := by
      ext k
      exact (hflow ▸ hs.mem_iff htab).trans (Graph.mem_ancestors f.graph_inRange).symm
    refine (Flow.lists_named hf.ids_nodup hs.nodup fun k hk => lt_length_ids ?_).unique (hset ▸ hlists)
    exact (f.graph_inRange.reach (hflow ▸ hs.reach htab k hk)).1
  · obtain ⟨j, k, hj, hk, hr⟩ := reach_of_feeds hf ((hmem id).mp h)
    obtain rfl : j = k := Option.some.inj (hj.symm.trans hk)
    exact hf.acyclic j hr
  · have hpath := (hmem m).mp hm
    obtain ⟨j, _, hj, _, _⟩ := reach_of_feeds hf hpath
    have hmid : m ∈ f.ids := List.mem_of_getElem? (Flow.placeOf?_eq_some hj)
    exact (hmem a).mpr (((mem_dependencies hf hflow hmid).mp ha).trans hpath)

/-- The first node is found once though two paths lead from it to the last. -/
theorem dependencies_exact_ladder : Flow.validate ladder = .ok ladderFlow ∧ "top" ∈ ladderFlow.ids ∧
    ∃ p, ofFlow ladderFlow = .ok p ∧ p.dependencies "top" = ["foot", "middle"] ∧
      p.dependencies "middle" ⊆ p.dependencies "top" ∧
      ∀ m, m ∈ p.dependencies "top" ↔ Relation.TransGen ladderFlow.Feeds m "top" := by
  have hid : "top" ∈ ladderFlow.ids := by decide
  obtain ⟨p, hp⟩ := exists_ofFlow validate_ladder
  obtain ⟨_, _, hmem, _, htrans⟩ := dependencies_exact validate_ladder hp hid
  have hdeps : p.dependencies "top" = ["foot", "middle"] := by
    rw [dependencies_eq (eq_of_ofFlow hp).1 (by rfl : ladderFlow.placeOf? "top" = some 0)]
    cbv
  exact ⟨validate_ladder, hid, p, hp, hdeps, htrans "middle" (by rw [hdeps]; decide), hmem⟩

end Plan

end Workflow
