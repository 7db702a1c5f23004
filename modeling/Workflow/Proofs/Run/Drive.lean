import Workflow.Proofs.Run.Coordination

namespace Workflow

theorem Progress.isStopping_skip {p : Plan} (s : Progress) (i : Nat) :
    (s.skip p i).isStopping = s.isStopping := by
  rw [skip_eq, isStopping, settleEach_aborted, settleEach_failure]
  rfl

theorem Progress.aborted_dispatch {p : Plan} (n : Nat) (s : Progress) :
    (s.dispatch p n).1.aborted = s.aborted := by
  induction n generalizing s with
  | zero => rfl
  | succ n ih =>
    unfold dispatch
    split
    · rfl
    · dsimp only
      split
      · rw [ih, skip_eq, settleEach_aborted]
      · exact ih _

theorem Progress.aborted_round {p : Plan} (s : Progress) : (s.round p).1.aborted = s.aborted := by
  unfold round
  split
  · rfl
  · exact aborted_dispatch _ _

theorem Progress.isStopping_dispatch {p : Plan} (n : Nat) (s : Progress) :
    (s.dispatch p n).1.isStopping = s.isStopping := by
  induction n generalizing s with
  | zero => rfl
  | succ n ih =>
    unfold dispatch
    split
    · rfl
    · dsimp only
      split
      · rw [ih, isStopping_skip]
        rfl
      · exact ih _

/-- To start nodes does not stop a run. -/
theorem Progress.isStopping_round {p : Plan} (s : Progress) : (s.round p).1.isStopping = s.isStopping := by
  unfold round
  split
  · rfl
  · exact isStopping_dispatch _ _

namespace Coordination

variable {p : Plan} {ctx : Context} {inputs : Inputs} {ms : List Move} {c : Coordination}

/-- Start all nodes that are ready, unless the run is stopping. -/
def round (p : Plan) (c : Coordination) : Coordination where
  progress := (c.progress.round p).1
  running := c.running ++ (c.progress.round p).2

def join (p : Plan) (ctx : Context) (c : Coordination) (e : Completion) : Coordination where
  progress := c.progress.complete p ctx e
  running := c.running.filter (fun x => x.1 ≠ e.place)

/-- Have a run go on: start what is ready and take the next end into account, again and again. -/
def drive (p : Plan) (ctx : Context) : List Completion → Coordination → Coordination
  | [], c => c.round p
  | e :: rest, c => drive p ctx rest ((c.round p).join p ctx e)

/-- The ends of executions can come in an order: each is that of a node under way then, and only while the
run is stopping one was cancelled. -/
def Admits (p : Plan) (ctx : Context) : List Completion → Coordination → Prop
  | [], _ => True
  | e :: rest, c =>
    e.place ∈ (c.round p).running.map Prod.fst ∧
      (e.outcome = .cancelled → (c.round p).progress.isStopping = true) ∧
      Admits p ctx rest ((c.round p).join p ctx e)

theorem Kept.ready_eq_nil (h : Kept p ms c) (hn : p.size ≤ (placed ms).length) :
    c.progress.ready = [] := by
  have hcounted := h.consistent.counted
  have hsub : c.progress.ready.map Prod.snd ++ (c.running.map Prod.fst ++ ended ms) ⊆
      List.range p.size := fun i hi => List.mem_range.mpr ((hcounted.mem i).mp hi).1
  have hlen := (hcounted.nodup.subperm hsub).length_le
  rw [List.length_append, List.length_range, ← h.placed_perm.length_eq, List.length_map] at hlen
  exact List.eq_nil_of_length_eq_zero (by omega)

/-- To start what is ready is a sequence of moves, which ends when nothing is ready any more. -/
theorem dispatch_reached (ht : p.Tabled) (hf : p.flow.Regular) {s : Progress}
    {running : List (Nat × Inputs)} (h : Reached p ctx inputs ms ⟨s, running⟩)
    (hs : s.isStopping = false) (n : Nat) (hn : p.size ≤ n + (placed ms).length) :
    ∃ ms', Reached p ctx inputs (ms ++ ms') ⟨(s.dispatch p n).1, running ++ (s.dispatch p n).2⟩ ∧
      (∀ m ∈ ms', m.placed?.isSome = true) ∧ (s.dispatch p n).1.ready = [] := by
  induction n generalizing ms s running with
  | zero =>
    refine ⟨[], ?_, fun m hm => absurd hm List.not_mem_nil, ?_⟩
    · rw [List.append_nil, Progress.dispatch, List.append_nil]
      exact h
    · exact (h.kept ht hf).ready_eq_nil (by omega)
  | succ n ih =>
    cases hr : s.ready with
    | nil =>
      refine ⟨[], ?_, fun m hm => absurd hm List.not_mem_nil, ?_⟩
      · rw [List.append_nil, Progress.dispatch, hr, List.append_nil]
        exact h
      · rw [Progress.dispatch, hr]
        exact hr
    | cons x rest =>
      have hplaced : ∀ m : Move, m.placed? = some x.2 → p.size ≤ n + (placed (ms ++ [m])).length := by
        intro m hm
        rw [placed_concat, hm, List.length_append]
        simp only [Option.toList_some, List.length_singleton]
        omega
      cases hg : ({ s with ready := rest } : Progress).gather p x.2 with
      | none =>
        have hstep := h.step (Step.pass hs hr hg)
        obtain ⟨ms', hr', hms, hnil⟩ := ih hstep (by rw [Progress.isStopping_skip]; exact hs)
          (hplaced _ rfl)
        refine ⟨.pass x.2 :: ms', ?_, ?_, ?_⟩
        · rw [Progress.dispatch, hr]
          simp only [hg]
          rw [List.append_cons]
          exact hr'
        · exact List.forall_mem_cons.mpr ⟨rfl, hms⟩
        · rw [Progress.dispatch, hr]
          simp only [hg]
          exact hnil
      | some given =>
        have hstep := h.step (Step.start hs hr hg)
        obtain ⟨ms', hr', hms, hnil⟩ := ih hstep hs (hplaced _ rfl)
        refine ⟨.start x.2 given :: ms', ?_, ?_, ?_⟩
        · rw [Progress.dispatch, hr]
          simp only [hg]
          rw [List.append_cons, List.append_cons running]
          exact hr'
        · exact List.forall_mem_cons.mpr ⟨rfl, hms⟩
        · rw [Progress.dispatch, hr]
          simp only [hg]
          exact hnil

theorem round_reached (ht : p.Tabled) (hf : p.flow.Regular) (h : Reached p ctx inputs ms c) :
    ∃ ms', Reached p ctx inputs (ms ++ ms') (c.round p) ∧ (∀ m ∈ ms', m.placed?.isSome = true) ∧
      ((c.round p).progress.ready = [] ∨ (c.round p).progress.isStopping = true) := by
  obtain ⟨s, running⟩ := c
  cases hs : s.isStopping with
  | true =>
    have heq : round p ⟨s, running⟩ = ⟨s, running⟩ := by
      simp only [round, Progress.round, hs, if_true, List.append_nil]
    refine ⟨[], ?_, fun m hm => absurd hm List.not_mem_nil, .inr ?_⟩
    · rw [heq, List.append_nil]
      exact h
    · rw [heq]
      exact hs
  | false =>
    obtain ⟨ms', hr, hms, hnil⟩ := dispatch_reached ht hf h hs p.size (Nat.le_add_right _ _)
    have heq : round p ⟨s, running⟩ = ⟨(s.dispatch p p.size).1, running ++ (s.dispatch p p.size).2⟩ := by
      simp only [round, Progress.round, hs, Bool.false_eq_true, if_false]
    exact ⟨ms', heq ▸ hr, hms, .inl (heq ▸ hnil)⟩

/-- To drive a run is a sequence of moves too, with the ends of executions in the order in which they
come. -/
theorem drive_reached (ht : p.Tabled) (hf : p.flow.Regular) {es : List Completion}
    (h : Reached p ctx inputs ms c) (ha : Admits p ctx es c) :
    ∃ ms', Reached p ctx inputs (ms ++ ms') (drive p ctx es c) ∧
      (∀ m ∈ ms', m.placed?.isSome = true ∨ ∃ e ∈ es, ∃ given, m = .join given e) ∧
      ((drive p ctx es c).progress.ready = [] ∨ (drive p ctx es c).progress.isStopping = true) := by
  induction es generalizing ms c with
  | nil =>
    obtain ⟨ms', hr, hms, hstop⟩ := round_reached ht hf h
    exact ⟨ms', hr, fun m hm => .inl (hms m hm), hstop⟩
  | cons e es ih =>
    obtain ⟨hm, hc, ha⟩ := ha
    obtain ⟨ms₁, hr, hms₁, _⟩ := round_reached ht hf h
    obtain ⟨⟨_, given⟩, hrunning, rfl⟩ := List.mem_map.mp hm
    obtain ⟨ms₂, hr, hms₂, hstop⟩ := ih (hr.step (Step.join hrunning hc)) ha
    refine ⟨ms₁ ++ .join given e :: ms₂, ?_, fun m hm => ?_, hstop⟩
    · rw [← List.append_assoc, List.append_cons]
      exact hr
    · rcases List.mem_append.mp hm with hm | hm
      · exact .inl (hms₁ m hm)
      · rcases List.mem_cons.mp hm with rfl | hm
        · exact .inr ⟨e, List.mem_cons_self, given, rfl⟩
        · refine (hms₂ m hm).imp_right fun ⟨e', he', hj⟩ => ?_
          exact ⟨e', List.mem_cons_of_mem _ he', hj⟩

end Coordination

end Workflow
