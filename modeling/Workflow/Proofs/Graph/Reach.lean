import Mathlib.Data.Fintype.EquivFin
import Mathlib.Data.List.Nodup
import Mathlib.Data.List.Perm.Subperm
import Mathlib.Logic.Relation
import Workflow.Graph

namespace Workflow.Graph

variable {g : Graph} {i j : Nat}

def Arc (g : Graph) (i j : Nat) : Prop := (i, j) ∈ g.arcs

/-- There is a path with at least one arc. -/
abbrev Reach (g : Graph) : Nat → Nat → Prop := Relation.TransGen g.Arc

/-- Every arc joins places of the graph. -/
def InRange (g : Graph) : Prop := ∀ i j, g.Arc i j → i < g.size ∧ j < g.size

def Acyclic (g : Graph) : Prop := ∀ i, ¬ g.Reach i i

@[simp] theorem mem_successors : j ∈ g.successors i ↔ g.Arc i j := by
  simp [successors, Arc]

theorem arc_reverse : g.reverse.Arc i j ↔ g.Arc j i := by
  constructor
  · intro h
    obtain ⟨⟨a, b⟩, hm, he⟩ := List.mem_map.mp h
    cases he
    exact hm
  · intro h
    exact List.mem_map.mpr ⟨(j, i), h, rfl⟩

theorem InRange.reverse (h : g.InRange) : g.reverse.InRange := by
  intro i j hij
  exact (h j i (arc_reverse.mp hij)).symm

theorem reach_reverse : g.reverse.Reach i j ↔ g.Reach j i := by
  have he : g.reverse.Arc = Function.swap g.Arc := by
    funext a b
    exact propext arc_reverse
  rw [Reach, he, Relation.transGen_swap]

theorem InRange.reach (h : g.InRange) (hij : g.Reach i j) : i < g.size ∧ j < g.size := by
  induction hij with
  | single ha => exact h _ _ ha
  | tail _ ha ih => exact ⟨ih.1, (h _ _ ha).2⟩

theorem mem_fresh {last seen : List Nat} :
    j ∈ (last.flatMap g.successors).eraseDups.filter (fun j => j ∉ seen) ↔
      (∃ i ∈ last, g.Arc i j) ∧ j ∉ seen := by
  simp [List.mem_filter, List.mem_eraseDups]

theorem nodup_eraseDups (l : List Nat) : l.eraseDups.Nodup := by
  match l with
  | [] => simp
  | a :: l =>
    rw [List.eraseDups_cons, List.nodup_cons]
    exact ⟨by simp [List.mem_eraseDups], nodup_eraseDups _⟩
termination_by l.length
decreasing_by exact Nat.lt_succ_of_le (List.length_filter_le _ _)

theorem nodup_append_fresh (last : List Nat) {seen : List Nat} (hd : seen.Nodup) :
    (seen ++ (last.flatMap g.successors).eraseDups.filter (fun j => j ∉ seen)).Nodup :=
  hd.append ((nodup_eraseDups _).filter _) fun _ hs hf => (mem_fresh.mp hf).2 hs

theorem reach_of_mem_spread {n : Nat} {last seen : List Nat} (hl : last ⊆ seen)
    (hs : ∀ k ∈ seen, g.Reach i k) (h : j ∈ g.spread n last seen) : g.Reach i j := by
  induction n generalizing last seen with
  | zero => exact hs j h
  | succ n ih =>
    rw [spread] at h
    split at h
    · exact hs j h
    · refine ih (List.subset_append_right _ _) ?_ h
      intro k hk
      rcases List.mem_append.mp hk with hk | hk
      · exact hs k hk
      · obtain ⟨⟨m, hm, ha⟩, _⟩ := mem_fresh.mp hk
        exact (hs m (hl hm)).tail ha

theorem subset_spread (n : Nat) (last seen : List Nat) : seen ⊆ g.spread n last seen := by
  induction n generalizing last seen with
  | zero => exact List.Subset.refl _
  | succ n ih =>
    rw [spread]
    split
    · exact List.Subset.refl _
    · exact List.Subset.trans (List.subset_append_left _ _) (ih _ _)

theorem nodup_spread (n : Nat) (last : List Nat) {seen : List Nat} (hd : seen.Nodup) :
    (g.spread n last seen).Nodup := by
  induction n generalizing last seen with
  | zero => exact hd
  | succ n ih =>
    rw [spread]
    split
    · exact hd
    · exact ih _ (nodup_append_fresh last hd)

/-- Once all places may have been seen nothing is left out: every round but the last sees a new one. -/
theorem spread_closed (hg : g.InRange) {n : Nat} {last seen : List Nat} (hd : seen.Nodup)
    (hr : ∀ k ∈ seen, k < g.size) (hn : g.size ≤ n + seen.length)
    (hc : ∀ k ∈ seen, k ∉ last → ∀ m, g.Arc k m → m ∈ seen) :
    ∀ k ∈ g.spread n last seen, ∀ m, g.Arc k m → m ∈ g.spread n last seen := by
  induction n generalizing last seen with
  | zero =>
    intro k _ m ha
    have hsub : seen ⊆ List.range g.size := fun x hx => List.mem_range.mpr (hr x hx)
    have hp : seen.Subperm (List.range g.size) := hd.subperm hsub
    have hall : List.range g.size ⊆ seen :=
      (hp.perm_of_length_le (by simpa using hn)).symm.subset
    exact hall (List.mem_range.mpr (hg k m ha).2)
  | succ n ih =>
    rw [spread]
    split
    · next he =>
      intro k hk m ha
      by_cases hkl : k ∈ last
      · by_contra hm
        have hf := mem_fresh.mpr ⟨⟨k, hkl, ha⟩, hm⟩
        rw [List.isEmpty_iff.mp he] at hf
        cases hf
      · exact hc k hk hkl m ha
    · next he =>
      refine ih ?_ ?_ ?_ ?_
      · exact nodup_append_fresh last hd
      · intro k hk
        rcases List.mem_append.mp hk with hk | hk
        · exact hr k hk
        · obtain ⟨⟨m, _, ha⟩, _⟩ := mem_fresh.mp hk
          exact (hg m k ha).2
      · have hpos := List.length_pos_iff.mpr (fun h => he (List.isEmpty_iff.mpr h))
        rw [List.length_append]
        omega
      · intro k hk hkn m ha
        have hks : k ∈ seen := (List.mem_append.mp hk).resolve_right hkn
        by_cases hm : m ∈ seen
        · exact List.mem_append_left _ hm
        · refine List.mem_append_right _ (mem_fresh.mpr ⟨?_, hm⟩)
          by_contra hkl
          exact hm (hc k hks (fun h => hkl ⟨k, h, ha⟩) m ha)

theorem mem_descendants (hg : g.InRange) : j ∈ g.descendants i ↔ g.Reach i j := by
  have hm : ∀ k, k ∈ (g.successors i).eraseDups ↔ g.Arc i k := by
    simp [List.mem_eraseDups]
  constructor
  · exact reach_of_mem_spread (List.Subset.refl _) (fun k hk => .single ((hm k).mp hk))
  · intro h
    induction h with
    | single ha => exact subset_spread _ _ _ ((hm _).mpr ha)
    | tail _ ha ih =>
      refine spread_closed hg (nodup_eraseDups _) ?_ (Nat.le_add_right _ _) ?_ _ ih _ ha
      · exact fun k hk => (hg i k ((hm k).mp hk)).2
      · exact fun k hk hn => absurd hk hn

theorem mem_ancestors (hg : g.InRange) : j ∈ g.ancestors i ↔ g.Reach j i := by
  rw [ancestors, mem_descendants hg.reverse, reach_reverse]

theorem nodup_ancestors (g : Graph) (i : Nat) : (g.ancestors i).Nodup :=
  nodup_spread _ _ (nodup_eraseDups _)

theorem mem_cycleThrough (hg : g.InRange) :
    j ∈ g.cycleThrough i ↔ g.Reach i j ∧ g.Reach j i := by
  simp only [cycleThrough, List.mem_filter, List.mem_range, mem_descendants hg, mem_ancestors hg,
    decide_eq_true_eq, and_iff_right_iff_imp]
  exact fun h => (hg.reach h.1).2

/-- Places on one cycle have the same places on cycles through them. -/
theorem cycleThrough_eq (hg : g.InRange) (hij : g.Reach i j) (hji : g.Reach j i) :
    g.cycleThrough i = g.cycleThrough j := by
  unfold cycleThrough
  refine List.filter_congr fun k _ => ?_
  simp only [mem_descendants hg, mem_ancestors hg, decide_eq_decide]
  constructor
  · exact fun h => ⟨hji.trans h.1, h.2.trans hij⟩
  · exact fun h => ⟨hij.trans h.1, h.2.trans hji⟩

/-- There is no cycle to report exactly when no path leads back to its start. -/
theorem cycles_eq_nil_iff (hg : g.InRange) : g.cycles = [] ↔ g.Acyclic := by
  simp only [cycles, List.filterMap_eq_nil_iff, List.mem_range]
  constructor
  · intro h i hi
    have hmem : i ∈ g.cycleThrough i := (mem_cycleThrough hg).mpr ⟨hi, hi⟩
    obtain ⟨k, rest, he⟩ := List.exists_cons_of_ne_nil (List.ne_nil_of_mem hmem)
    have hk : g.Reach i k ∧ g.Reach k i := (mem_cycleThrough hg).mp (he ▸ List.mem_cons_self)
    have hnone := h k (hg.reach hk.1).2
    rw [← cycleThrough_eq hg hk.1 hk.2, he] at hnone
    simp at hnone
  · intro h i _
    have hne : g.cycleThrough i = [] := by
      refine List.eq_nil_iff_forall_not_mem.mpr fun k hk => ?_
      have hr := (mem_cycleThrough hg).mp hk
      exact h i (hr.1.trans hr.2)
    simp [hne]

/-- What holds of a place when it holds of all that have arcs to it, holds of all places of a graph
without cycles. -/
theorem Acyclic.induction (h : g.Acyclic) {P : Nat → Prop}
    (hP : ∀ j < g.size, (∀ i < g.size, g.Arc i j → P i) → P j) : ∀ j < g.size, P j := by
  let before (a b : Fin g.size) : Prop := g.Reach a b
  have : IsTrans (Fin g.size) before := ⟨fun _ _ _ => Relation.TransGen.trans⟩
  have : Std.Irrefl before := ⟨fun a => h a⟩
  have hwf : WellFounded before := Finite.wellFounded_of_trans_of_irrefl before
  intro j hj
  refine hwf.induction (C := fun a => P a) ⟨j, hj⟩ fun b ih => ?_
  exact hP b b.2 fun i hi hib => ih ⟨i, hi⟩ (.single hib)

end Workflow.Graph
