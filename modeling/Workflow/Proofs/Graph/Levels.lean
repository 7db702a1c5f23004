import Mathlib.Data.List.Chain
import Mathlib.Order.Bounds.Basic
import Workflow.Proofs.Graph.Reach

namespace Workflow.Graph

variable {g : Graph} {i j k n : Nat}

/-- The numbers of arcs of the paths that end at a place. A path is given by the places before its end,
last first. -/
def Lengths (g : Graph) (i : Nat) : Set Nat :=
  {n | ∃ before : List Nat, before.length = n ∧ (i :: before).IsChain (fun b a => g.Arc a b)}

theorem zero_mem_lengths (g : Graph) (i : Nat) : 0 ∈ g.Lengths i := ⟨[], rfl, List.isChain_singleton i⟩

theorem succ_mem_lengths_iff : n + 1 ∈ g.Lengths j ↔ ∃ i, g.Arc i j ∧ n ∈ g.Lengths i := by
  constructor
  · rintro ⟨before, hl, hc⟩
    obtain ⟨i, before, rfl⟩ := List.exists_cons_of_length_eq_add_one hl
    obtain ⟨ha, hc⟩ := List.isChain_cons_cons.mp hc
    exact ⟨i, ha, before, Nat.succ.inj hl, hc⟩
  · rintro ⟨i, ha, before, rfl, hc⟩
    exact ⟨i :: before, rfl, List.isChain_cons_cons.mpr ⟨ha, hc⟩⟩

/-- Without cycles no path comes to a place twice. -/
theorem lt_size_of_mem_lengths (hg : g.InRange) (ha : g.Acyclic) (hi : i < g.size)
    (h : n ∈ g.Lengths i) : n < g.size := by
  obtain ⟨before, rfl, hc⟩ := h
  have hp : (i :: before).Pairwise (fun b a => g.Reach a b) := by
    have : IsTrans Nat (fun b a => g.Reach a b) := ⟨fun _ _ _ h h' => h'.trans h⟩
    exact List.isChain_iff_pairwise.mp (hc.imp fun _ _ => .single)
  have hd : (i :: before).Nodup := by
    refine hp.imp ?_
    rintro a _ h rfl
    exact ha a h
  have hr : i :: before ⊆ List.range g.size := by
    intro a hm
    refine List.mem_range.mpr ?_
    rcases List.mem_cons.mp hm with rfl | hm
    · exact hi
    · exact (hg.reach (List.rel_of_pairwise_cons hp hm)).1
  have hle := (hd.subperm hr).length_le
  rwa [List.length_range] at hle

/-- A running maximum is the greatest of the values and what it started with. -/
theorem isGreatest_foldl_max {α : Type} (f : α → Nat) (xs : List α) (start : Nat) :
    IsGreatest {n | n = start ∨ ∃ x ∈ xs, n = f x} (xs.foldl (fun n x => max n (f x)) start) := by
  induction xs generalizing start with
  | nil => exact ⟨.inl rfl, by simp [upperBounds]⟩
  | cons x xs ih =>
    obtain ⟨hmem, hle⟩ := ih (max start (f x))
    rw [List.foldl_cons]
    refine ⟨?_, ?_⟩
    · rcases hmem with h | ⟨y, hy, h⟩
      · rcases max_choice start (f x) with hm | hm
        · exact .inl (h.trans hm)
        · exact .inr ⟨x, List.mem_cons_self, h.trans hm⟩
      · exact .inr ⟨y, List.mem_cons_of_mem _ hy, h⟩
    · have hstart := hle (.inl rfl)
      rintro n (rfl | ⟨y, hy, rfl⟩)
      · exact (le_max_left _ _).trans hstart
      · rcases List.mem_cons.mp hy with rfl | hy
        · exact (le_max_right _ _).trans hstart
        · exact hle (.inr ⟨y, hy, rfl⟩)

@[simp] theorem mem_predecessors : i ∈ g.predecessors j ↔ g.Arc i j := by
  simp [predecessors, Arc]

theorem getD_raise {levels : List Nat} (hi : i < g.size) :
    (g.raise levels).getD i 0 =
      (g.predecessors i).foldl (fun n j => max n (levels.getD j 0 + 1)) 0 := by
  simp [raise, List.getD_eq_getElem?_getD, hi]

/-- Levels are raised until they stay as they are, which they do from then on. -/
theorem raised_eq_iterate (n : Nat) (levels : List Nat) : g.raised n levels = g.raise^[n] levels := by
  induction n generalizing levels with
  | zero => rfl
  | succ n ih =>
    rw [raised]
    split
    · next h => exact (Function.iterate_fixed h (n + 1)).symm
    · rw [ih, Function.iterate_succ_apply]

theorem length_levels (g : Graph) : g.levels.length = g.size := by
  have h : ∀ k, (g.raise^[k] (List.replicate g.size 0)).length = g.size := by
    intro k
    cases k with
    | zero => exact List.length_replicate
    | succ k => rw [Function.iterate_succ_apply', raise, List.length_map, List.length_range]
  rw [levels, raised_eq_iterate, h]

/-- After so many rounds a level is the length of the longest path among those that are no longer. -/
theorem isGreatest_iterate (hg : g.InRange) (k : Nat) (hi : i < g.size) :
    IsGreatest {n | n ∈ g.Lengths i ∧ n ≤ k}
      ((g.raise^[k] (List.replicate g.size 0)).getD i 0) := by
  induction k generalizing i with
  | zero =>
    have h : (List.replicate g.size 0).getD i 0 = 0 := by
      rw [List.getD_eq_getElem?_getD, List.getElem?_replicate_of_lt hi, Option.getD_some]
    rw [Function.iterate_zero_apply, h]
    exact ⟨⟨g.zero_mem_lengths i, le_rfl⟩, fun n hn => hn.2⟩
  | succ k ih =>
    rw [Function.iterate_succ_apply', getD_raise hi]
    obtain ⟨hmem, hle⟩ := isGreatest_foldl_max
      (fun j => (g.raise^[k] (List.replicate g.size 0)).getD j 0 + 1) (g.predecessors i) 0
    refine ⟨?_, ?_⟩
    · rcases hmem with h | ⟨j, hj, h⟩
      · rw [h]
        exact ⟨g.zero_mem_lengths i, Nat.zero_le _⟩
      · have ha := mem_predecessors.mp hj
        obtain ⟨hlen, hk⟩ := (ih (hg j i ha).1).1
        rw [h]
        exact ⟨succ_mem_lengths_iff.mpr ⟨j, ha, hlen⟩, Nat.succ_le_succ hk⟩
    · rintro n ⟨hn, hk⟩
      cases n with
      | zero => exact Nat.zero_le _
      | succ n =>
        obtain ⟨j, ha, hn⟩ := succ_mem_lengths_iff.mp hn
        have hlevel := (ih (hg j i ha).1).2 ⟨hn, Nat.le_of_succ_le_succ hk⟩
        exact (Nat.succ_le_succ hlevel).trans (hle (.inr ⟨j, mem_predecessors.mpr ha, rfl⟩))

/-- The level of a place is the length of the longest path that ends there. -/
theorem isGreatest_levels (hg : g.InRange) (ha : g.Acyclic) (hi : i < g.size) :
    IsGreatest (g.Lengths i) (g.levels.getD i 0) := by
  obtain ⟨⟨hmem, -⟩, hle⟩ := isGreatest_iterate hg g.size hi
  rw [levels, raised_eq_iterate]
  exact ⟨hmem, fun n hn => hle ⟨hn, (lt_size_of_mem_lengths hg ha hi hn).le⟩⟩

section Sweep

variable {order before after done : List Nat} {levels : List Nat}

/-- An order of all places in which no arc leads back. -/
structure Topological (g : Graph) (order : List Nat) : Prop where
  perm : order.Perm (List.range g.size)
  onward : ∀ before j after, order = before ++ j :: after → ∀ i, g.Arc i j → i ∈ before

/-- The level of a place is set to one more than the largest level before it, or zero when there is none. -/
def lift (g : Graph) (levels : List Nat) (j : Nat) : List Nat :=
  levels.set j ((g.predecessors j).foldl (fun n i => max n (levels.getD i 0 + 1)) 0)

/-- The levels that one pass over the places in some order comes to. -/
def sweep (g : Graph) (order : List Nat) : List Nat := order.foldl g.lift (List.replicate g.size 0)

theorem Topological.idxOf_lt (ht : g.Topological order) (hg : g.InRange) (h : g.Arc i j) :
    order.idxOf i < order.idxOf j := by
  have hj : j ∈ order := ht.perm.mem_iff.mpr (List.mem_range.mpr (hg i j h).2)
  obtain ⟨before, after, rfl, hnot⟩ := List.eq_append_cons_of_mem hj
  have hi := ht.onward before j after rfl i h
  rw [List.idxOf_append_of_mem hi, List.idxOf_append_of_notMem hnot, List.idxOf_cons_self, Nat.add_zero]
  exact List.idxOf_lt_length_of_mem hi

theorem Topological.acyclic (ht : g.Topological order) (hg : g.InRange) : g.Acyclic := by
  have hlt : ∀ i j, g.Reach i j → order.idxOf i < order.idxOf j := by
    intro i j h
    induction h with
    | single h => exact ht.idxOf_lt hg h
    | tail _ h ih => exact ih.trans (ht.idxOf_lt hg h)
  exact fun i h => Nat.lt_irrefl _ (hlt i i h)

theorem length_sweep (g : Graph) (order : List Nat) : (g.sweep order).length = g.size := by
  have h : ∀ levels, (order.foldl g.lift levels).length = levels.length := by
    induction order with
    | nil => exact fun levels => rfl
    | cons j order ih => exact fun levels => (ih (g.lift levels j)).trans List.length_set
  rw [sweep, h, List.length_replicate]

/-- A pass changes no level of a place that it has passed. -/
theorem getD_lift_of_ne (h : i ≠ j) : (g.lift levels j).getD i 0 = levels.getD i 0 := by
  rw [lift, List.getD_eq_getElem?_getD, List.getElem?_set_ne h.symm, List.getD_eq_getElem?_getD]

/-- Once all places before it have their levels, a place gets its own. -/
theorem isGreatest_lift (hj : j < levels.length)
    (h : ∀ i, g.Arc i j → IsGreatest (g.Lengths i) (levels.getD i 0)) :
    IsGreatest (g.Lengths j) ((g.lift levels j).getD j 0) := by
  have hlevel : (g.lift levels j).getD j 0 =
      (g.predecessors j).foldl (fun n i => max n (levels.getD i 0 + 1)) 0 := by
    rw [lift, List.getD_eq_getElem?_getD, List.getElem?_set_self hj, Option.getD_some]
  rw [hlevel]
  obtain ⟨hmem, hle⟩ := isGreatest_foldl_max (fun i => levels.getD i 0 + 1) (g.predecessors j) 0
  refine ⟨?_, ?_⟩
  · rcases hmem with hzero | ⟨i, hi, hsucc⟩
    · rw [hzero]
      exact g.zero_mem_lengths j
    · have ha := mem_predecessors.mp hi
      rw [hsucc]
      exact succ_mem_lengths_iff.mpr ⟨i, ha, (h i ha).1⟩
  · intro n hn
    cases n with
    | zero => exact Nat.zero_le _
    | succ n =>
      obtain ⟨i, ha, hn⟩ := succ_mem_lengths_iff.mp hn
      exact (Nat.succ_le_succ ((h i ha).2 hn)).trans (hle (.inr ⟨i, mem_predecessors.mpr ha, rfl⟩))

theorem sweep_concat (g : Graph) (done : List Nat) (j : Nat) :
    g.sweep (done ++ [j]) = g.lift (g.sweep done) j := List.foldl_concat ..

/-- The places that a pass is done with have their levels. -/
theorem Topological.isGreatest_sweep (ht : g.Topological order) (ho : order = done ++ after) :
    ∀ i ∈ done, IsGreatest (g.Lengths i) ((g.sweep done).getD i 0) := by
  induction done using List.reverseRecOn generalizing after with
  | nil => exact fun i hi => nomatch hi
  | append_singleton done j ih =>
    have ho' : order = done ++ j :: after := by rw [ho, List.append_assoc, List.singleton_append]
    intro i hi
    rw [sweep_concat]
    by_cases hij : i = j
    · subst hij
      have hsize : i < g.size := List.mem_range.mp (ht.perm.mem_iff.mp (by simp [ho']))
      refine isGreatest_lift ((length_sweep g done).symm ▸ hsize) fun k hk => ?_
      exact ih ho' k (ht.onward done i after ho' k hk)
    · rw [getD_lift_of_ne hij]
      refine ih ho' i ((List.mem_append.mp hi).resolve_right fun hm => ?_)
      exact hij (List.mem_singleton.mp hm)

/-- One pass over the places in any topological order comes to the levels. -/
theorem Topological.sweep_eq (ht : g.Topological order) (hg : g.InRange) : g.sweep order = g.levels := by
  refine List.ext_getElem ((length_sweep g order).trans (length_levels g).symm) fun i hi hi' => ?_
  have hsize : i < g.size := length_sweep g order ▸ hi
  have hmem : i ∈ order := ht.perm.mem_iff.mpr (List.mem_range.mpr hsize)
  have hsweep := ht.isGreatest_sweep (List.append_nil order).symm i hmem
  have hlevel := isGreatest_levels hg (ht.acyclic hg) hsize
  rw [List.getD_eq_getElem?_getD, List.getElem?_eq_getElem hi, Option.getD_some] at hsweep
  rw [List.getD_eq_getElem?_getD, List.getElem?_eq_getElem hi', Option.getD_some] at hlevel
  exact hsweep.unique hlevel

theorem level_lt_of_arc (hg : g.InRange) (ha : g.Acyclic) (h : g.Arc i j) :
    g.levels.getD i 0 < g.levels.getD j 0 := by
  have hi := isGreatest_levels hg ha (hg i j h).1
  have hj := isGreatest_levels hg ha (hg i j h).2
  exact hj.2 (succ_mem_lengths_iff.mpr ⟨i, h, hi.1⟩)

/-- There is a topological order exactly when there is no cycle. -/
theorem exists_topological_iff (hg : g.InRange) : (∃ order, g.Topological order) ↔ g.Acyclic := by
  refine ⟨fun ⟨order, ht⟩ => ht.acyclic hg, fun ha => ?_⟩
  let le (i j : Nat) : Bool := decide (g.levels.getD i 0 ≤ g.levels.getD j 0)
  have hsorted : ((List.range g.size).mergeSort le).Pairwise (fun i j => le i j = true) :=
    List.pairwise_mergeSort (fun a b c hab hbc => by simp only [le, decide_eq_true_eq] at *; omega)
      (fun a b => by simp only [le, Bool.or_eq_true, decide_eq_true_eq]; omega) _
  refine ⟨_, List.mergeSort_perm _ le, fun before j after ho i h => ?_⟩
  have hlt := level_lt_of_arc hg ha h
  have hi : i ∈ before ++ j :: after := by
    rw [← ho, (List.mergeSort_perm _ le).mem_iff]
    exact List.mem_range.mpr (hg i j h).1
  -- What comes from `j` on has no smaller level than `j`.
  refine (List.mem_append.mp hi).resolve_right fun hm => ?_
  rw [ho] at hsorted
  rcases List.mem_cons.mp hm with rfl | hm
  · exact Nat.lt_irrefl _ hlt
  · have hle := List.rel_of_pairwise_cons (List.pairwise_append.mp hsorted).2.1 hm
    exact absurd (of_decide_eq_true hle) (Nat.not_le_of_lt hlt)

end Sweep

end Workflow.Graph
