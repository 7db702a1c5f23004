import Workflow.Proofs.Run.Drive
import Workflow.Proofs.Run.Conclusion

namespace Workflow

def Answer.completion (answer : Answer) (i : Nat) (given : Inputs) : Completion :=
  ⟨i, .ofExcept (answer i given).1, (answer i given).2, none, 0⟩

/-- Go on with a run for at most `n` nodes, each of which ends as soon as it starts. -/
def Progress.follow (p : Plan) (ctx : Context) (answer : Answer) : Nat → Progress → Progress
  | 0, s => s
  | n + 1, s =>
    if s.isStopping then s
    else
      match s.ready with
      | [] => s
      | (_, i) :: rest =>
        let s := { s with ready := rest }
        match s.gather p i with
        | none => follow p ctx answer n (s.skip p i)
        | some given => follow p ctx answer n (s.complete p ctx (answer.completion i given))

namespace Coordination

variable {p : Plan} {ctx : Context} {inputs : Inputs} {answer : Answer} {ms : List Move}

/-- The run in which every node ends before the next one starts. -/
def sequential (p : Plan) (ctx : Context) (inputs : Inputs) (answer : Answer) : Coordination where
  progress := (opened p ctx inputs).progress.follow p ctx answer p.size
  running := []

theorem obeys_concat {m : Move} (ho : ∀ m ∈ ms, m.Obeys answer) (hm : m.Obeys answer) :
    ∀ m' ∈ ms ++ [m], m'.Obeys answer := by
  intro m' hm'
  rcases List.mem_append.mp hm' with hm' | hm'
  · exact ho m' hm'
  · exact List.mem_singleton.mp hm' ▸ hm

/-- When each node ends before the next one starts, this is a run too. -/
theorem follow_reached (ht : p.Tabled) (hf : p.flow.Regular) {s : Progress}
    (h : Reached p ctx inputs ms ⟨s, []⟩) (ho : ∀ m ∈ ms, m.Obeys answer) (n : Nat)
    (hn : p.size ≤ n + (placed ms).length) :
    ∃ ms', Reached p ctx inputs ms' ⟨s.follow p ctx answer n, []⟩ ∧ (∀ m ∈ ms', m.Obeys answer) ∧
      Ended ⟨s.follow p ctx answer n, []⟩ := by
  induction n generalizing ms s with
  | zero => exact ⟨ms, h, ho, rfl, .inl ((h.kept ht hf).ready_eq_nil (by omega))⟩
  | succ n ih =>
    cases hs : s.isStopping with
    | true =>
      have heq : s.follow p ctx answer (n + 1) = s := by simp only [Progress.follow, hs, if_true]
      rw [heq]
      exact ⟨ms, h, ho, rfl, .inr hs⟩
    | false =>
      have hplaced : ∀ m : Move, ∀ i, m.placed? = some i →
          p.size ≤ n + (placed (ms ++ [m])).length := by
        intro m i hm
        rw [placed_concat, hm, List.length_append]
        simp only [Option.toList_some, List.length_singleton]
        omega
      cases hr : s.ready with
      | nil =>
        have heq : s.follow p ctx answer (n + 1) = s := by
          simp only [Progress.follow, hs, hr, Bool.false_eq_true, if_false]
        rw [heq]
        exact ⟨ms, h, ho, rfl, .inl hr⟩
      | cons x rest =>
        cases hg : ({ s with ready := rest } : Progress).gather p x.2 with
        | none =>
          have heq : s.follow p ctx answer (n + 1) =
              (({ s with ready := rest } : Progress).skip p x.2).follow p ctx answer n := by
            simp only [Progress.follow, hs, hr, hg, Bool.false_eq_true, if_false]
          rw [heq]
          exact ih (h.step (Step.pass hs hr hg)) (obeys_concat ho trivial) (hplaced _ _ rfl)
        | some given =>
          have heq : s.follow p ctx answer (n + 1) =
              (({ s with ready := rest } : Progress).complete p ctx
                (answer.completion x.2 given)).follow p ctx answer n := by
            simp only [Progress.follow, hs, hr, hg, Bool.false_eq_true, if_false]
          rw [heq]
          have hstarted := h.step (Step.start hs hr hg)
          have hm : ((answer.completion x.2 given).place, given) ∈ [] ++ [(x.2, given)] :=
            List.mem_singleton_self _
          have hjoined := hstarted.step (Step.join hm fun hc => absurd hc (Outcome.ofExcept_ne_cancelled _))
          have hrunning : ([] ++ [(x.2, given)]).filter
              (fun y : Nat × Inputs => y.1 ≠ (answer.completion x.2 given).place) = [] := by
            simp [Answer.completion]
          rw [hrunning] at hjoined
          refine ih hjoined (obeys_concat (obeys_concat ho trivial) (.inr ⟨rfl, rfl⟩)) ?_
          have hcount := hplaced (.start x.2 given) x.2 rfl
          rw [placed_concat, List.length_append]
          omega

theorem sequential_reached (ht : p.Tabled) (hf : p.flow.Regular) (ctx : Context) (inputs : Inputs)
    (answer : Answer) :
    ∃ ms, Reached p ctx inputs ms (sequential p ctx inputs answer) ∧ (∀ m ∈ ms, m.Obeys answer) ∧
      (sequential p ctx inputs answer).Ended :=
  follow_reached ht hf .opened (fun _ hm => absurd hm List.not_mem_nil) p.size (Nat.le_add_right _ _)

end Coordination

end Workflow
