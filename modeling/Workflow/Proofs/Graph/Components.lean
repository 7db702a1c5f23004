import Mathlib.Data.Set.Subsingleton
import Workflow.Proofs.Graph.Reach

namespace Workflow.Graph

open Relation

variable {g : Graph} {i j k : Nat} {C D : Set Nat}

/-- There are paths between two places both ways; a path may have no arc. -/
def Joined (g : Graph) (i j : Nat) : Prop := ReflTransGen g.Arc i j ∧ ReflTransGen g.Arc j i

/-- The strongly connected components are the classes of places that are joined. -/
def IsComponent (g : Graph) (C : Set Nat) : Prop := ∃ i < g.size, C = {j | g.Joined i j}

/-- A component has more than one place, or one with an arc to itself. -/
def Looped (g : Graph) (C : Set Nat) : Prop := C.Nontrivial ∨ ∃ i, C = {i} ∧ g.Arc i i

namespace Joined

theorem refl (g : Graph) (i : Nat) : g.Joined i i := ⟨.refl, .refl⟩

theorem symm (h : g.Joined i j) : g.Joined j i := ⟨h.2, h.1⟩

theorem trans (h : g.Joined i j) (h' : g.Joined j k) : g.Joined i k :=
  ⟨h.1.trans h'.1, h'.2.trans h.2⟩

/-- Between two different places the paths have arcs, so they lead back to their start. -/
theorem reach_self (h : g.Joined i j) (hne : i ≠ j) : g.Reach i i := by
  rcases reflTransGen_iff_eq_or_transGen.mp h.1 with he | hr
  · exact absurd he.symm hne
  · exact hr.trans_left h.2

end Joined

/-- On a cycle a path without arcs is as good as one with arcs. -/
theorem joined_iff_reach (h : g.Reach i i) : g.Joined i j ↔ g.Reach i j ∧ g.Reach j i := by
  constructor
  · exact fun hj => ⟨h.trans_left hj.1, .trans_right hj.2 h⟩
  · exact fun hr => ⟨hr.1.to_reflTransGen, hr.2.to_reflTransGen⟩

theorem InRange.joined (hg : g.InRange) (hi : i < g.size) (h : g.Joined i j) : j < g.size := by
  rcases reflTransGen_iff_eq_or_transGen.mp h.1 with rfl | hr
  · exact hi
  · exact (hg.reach hr).2

namespace IsComponent

theorem lt_size (hC : g.IsComponent C) (hg : g.InRange) (hi : i ∈ C) : i < g.size := by
  obtain ⟨k, hk, rfl⟩ := hC
  exact hg.joined hk hi

theorem eq_of_mem (hC : g.IsComponent C) (hi : i ∈ C) : C = {j | g.Joined i j} := by
  obtain ⟨k, _, rfl⟩ := hC
  have hki : g.Joined k i := hi
  ext j
  exact ⟨hki.symm.trans, hki.trans⟩

theorem nonempty (hC : g.IsComponent C) : C.Nonempty := by
  obtain ⟨k, _, rfl⟩ := hC
  exact ⟨k, .refl g k⟩

/-- Two components with a place in common are the same. -/
theorem eq (hC : g.IsComponent C) (hD : g.IsComponent D) (hi : i ∈ C) (hi' : i ∈ D) : C = D :=
  (hC.eq_of_mem hi).trans (hD.eq_of_mem hi').symm

/-- There is a cycle in a component exactly when there is one through each of its places. -/
theorem looped_iff (hC : g.IsComponent C) (hi : i ∈ C) : g.Looped C ↔ g.Reach i i := by
  rw [hC.eq_of_mem hi]
  constructor
  · rintro (hn | ⟨k, hk, ha⟩)
    · obtain ⟨j, hj, hne⟩ := hn.exists_ne i
      exact Joined.reach_self hj hne.symm
    · have hik : i = k := (Set.ext_iff.mp hk i).mp (.refl g i)
      rw [hik]
      exact .single ha
  · intro h
    by_cases hn : ({j | g.Joined i j} : Set Nat).Nontrivial
    · exact .inl hn
    · -- The first arc of the cycle leads to a joined place, and there is no other than `i`.
      have hone : ∀ j, g.Joined i j → j = i := fun j hj =>
        Set.not_nontrivial_iff.mp hn hj (.refl g i)
      obtain ⟨k, ha, hki⟩ := TransGen.head'_iff.mp h
      rw [hone k ⟨.single ha, hki⟩] at ha
      refine .inr ⟨i, ?_, ha⟩
      ext j
      exact ⟨hone j, fun hj => hj ▸ .refl g i⟩

end IsComponent

theorem pairwise_cycleThrough (g : Graph) (i : Nat) : (g.cycleThrough i).Pairwise (· < ·) :=
  List.pairwise_lt_range.filter _

theorem mem_cycles {c : List Nat} :
    c ∈ g.cycles ↔ ∃ i < g.size, c = g.cycleThrough i ∧ c.head? = some i := by
  simp only [cycles, List.mem_filterMap, List.mem_range, Option.ite_none_right_eq_some,
    Option.some.injEq]
  constructor
  · rintro ⟨i, hi, hh, rfl⟩
    exact ⟨i, hi, rfl, hh⟩
  · rintro ⟨i, hi, rfl, hh⟩
    exact ⟨i, hi, hh, rfl⟩

theorem setOf_mem_cycleThrough (hg : g.InRange) (h : g.Reach i i) :
    {j | j ∈ g.cycleThrough i} = {j | g.Joined i j} := by
  ext j
  exact (mem_cycleThrough hg).trans (joined_iff_reach h).symm

/-- The places of what is reported are those of a component with a cycle. -/
theorem component_of_mem_cycles (hg : g.InRange) {c : List Nat} (hc : c ∈ g.cycles) :
    g.IsComponent {j | j ∈ c} ∧ g.Looped {j | j ∈ c} := by
  obtain ⟨i, hi, rfl, hh⟩ := mem_cycles.mp hc
  have hii : g.Reach i i := ((mem_cycleThrough hg).mp (List.mem_of_head? hh)).1
  have hC : g.IsComponent {j | j ∈ g.cycleThrough i} := ⟨i, hi, setOf_mem_cycleThrough hg hii⟩
  exact ⟨hC, (hC.looped_iff (List.mem_of_head? hh)).mpr hii⟩

/-- Every component with a cycle is reported, at the least of its places. -/
theorem exists_mem_cycles (hg : g.InRange) (hC : g.IsComponent C) (hl : g.Looped C) :
    ∃ c ∈ g.cycles, {j | j ∈ c} = C := by
  obtain ⟨i, hi⟩ := hC.nonempty
  have hii : g.Reach i i := (hC.looped_iff hi).mp hl
  have hs : {j | j ∈ g.cycleThrough i} = C :=
    (setOf_mem_cycleThrough hg hii).trans (hC.eq_of_mem hi).symm
  have hmem : i ∈ g.cycleThrough i := (mem_cycleThrough hg).mpr ⟨hii, hii⟩
  obtain ⟨k, rest, he⟩ := List.exists_cons_of_ne_nil (List.ne_nil_of_mem hmem)
  have hk : g.Reach i k ∧ g.Reach k i := (mem_cycleThrough hg).mp (he ▸ List.mem_cons_self)
  have hik := cycleThrough_eq hg hk.1 hk.2
  refine ⟨g.cycleThrough i, mem_cycles.mpr ⟨k, (hg.reach hk.1).2, hik, ?_⟩, hs⟩
  rw [he, List.head?_cons]

theorem nodup_cycles (g : Graph) : g.cycles.Nodup := by
  refine List.nodup_range.filterMap ?_
  intro i j c hi hj
  obtain ⟨hhi, hci⟩ := Option.ite_none_right_eq_some.mp hi
  obtain ⟨hhj, hcj⟩ := Option.ite_none_right_eq_some.mp hj
  rw [Option.some.inj hci] at hhi
  rw [Option.some.inj hcj] at hhj
  exact Option.some.inj (hhi.symm.trans hhj)

theorem pairwise_of_mem_cycles {c : List Nat} (hc : c ∈ g.cycles) : c.Pairwise (· < ·) := by
  obtain ⟨i, _, rfl, _⟩ := mem_cycles.mp hc
  exact pairwise_cycleThrough g i

end Workflow.Graph
