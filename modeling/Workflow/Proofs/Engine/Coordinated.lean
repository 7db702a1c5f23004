import Workflow.Proofs.Engine.Views
import Workflow.Proofs.Run.Drive

namespace Workflow

theorem Progress.round_of_done {p : Plan} {s : Progress} (h : s.ready = [] ∨ s.isStopping = true) :
    s.round p = (s, []) := by
  unfold round
  split
  · rfl
  · next hs =>
    have hr := h.resolve_right hs
    cases p.size with
    | zero => rfl
    | succ n => rw [dispatch, hr]

namespace View

variable {v w : View} {inputs : Inputs} {called : Bool}

/-- The run has come by moves from its inputs to the state in which it is seen. Its nodes under way are
those that execute and those whose ends were not yet taken into account. They are cancelled only after
they were stopped, because the run was cancelled or is stopping. -/
structure Coordinated (v : View) (inputs : Inputs) : Prop where
  reached : ∃ ms running,
    Coordination.Reached v.plan v.context inputs ms ⟨v.progress, running⟩ ∧
      (running.map Prod.fst).Perm (v.executions.map Prod.fst ++ v.finished.map Completion.place) ∧
      v.executions ⊆ running
  stopped : v.stopped = true → v.cancelled = true ∨ v.progress.isStopping = true
  cancelled : ∀ c ∈ v.finished, c.outcome = .cancelled → v.stopped = true
  ended : v.ended = true → v.executions = [] ∧ v.finished = [] ∧
    (v.progress.ready = [] ∨ v.progress.isStopping = true)

/-- The plan of a run is one of a valid workflow. -/
def Valid (v : View) : Prop :=
  ∃ d f, Flow.validate d = .ok f ∧ Plan.ofFlow f = .ok v.plan

theorem Valid.tabled (h : v.Valid) : v.plan.Tabled := by
  obtain ⟨_, _, _, hp⟩ := h
  exact Plan.tabled_of_ofFlow hp

theorem Valid.regular (h : v.Valid) : v.plan.flow.Regular := by
  obtain ⟨_, _, hv, hp⟩ := h
  rw [(Plan.eq_of_ofFlow hp).1]
  exact Flow.regular_of_validate hv

theorem Valid.moved (h : v.Valid) (hm : v.Moved called w) : w.Valid := by
  unfold Valid
  rw [hm.plan_eq]
  exact h

theorem round_of_done (h : v.progress.ready = [] ∨ v.progress.isStopping = true) : v.round = v := by
  rw [round, Progress.round_of_done h]
  simp only [launch, List.map_nil, List.append_nil]

theorem isStopping_step {p : Plan} {ctx : Context} {ms : List Move} {m : Move} {c c' : Coordination}
    (ht : p.Tabled) (hk : Coordination.Kept p ms c) (hs : Coordination.Step p ctx c m c')
    (hc : c.progress.isStopping = true) : c'.progress.isStopping = true := by
  have hne : c'.progress.failure ≠ none := fun hn =>
    hk.consistent.failure_ne_none hc (hk.failure ht hs hn)
  exact Progress.isStopping_iff.mpr (.inr (Option.isSome_iff_ne_none.mpr hne))

namespace Coordinated

theorem kept (hv : v.Valid) (h : v.Coordinated inputs) : ∃ ms running,
    Coordination.Kept v.plan ms ⟨v.progress, running⟩ ∧
      (running.map Prod.fst).Perm (v.executions.map Prod.fst ++ v.finished.map Completion.place) := by
  obtain ⟨ms, running, hr, hperm, _⟩ := h.reached
  exact ⟨ms, running, hr.kept hv.tabled hv.regular, hperm⟩

theorem nodup (hv : v.Valid) (h : v.Coordinated inputs) :
    (v.executions.map Prod.fst ++ v.finished.map Completion.place).Nodup := by
  obtain ⟨ms, running, hk, hperm⟩ := h.kept hv
  exact hperm.nodup_iff.mp hk.running_nodup

theorem executions_nodup (hv : v.Valid) (h : v.Coordinated inputs) :
    (v.executions.map Prod.fst).Nodup :=
  (List.nodup_append.mp (h.nodup hv)).1

theorem finish (hv : v.Valid) (h : v.Coordinated inputs) {c : Completion}
    (hm : c.place ∈ v.executions.map Prod.fst)
    (hc : c.outcome = .cancelled → v.stopped = true) : (v.finish c).Coordinated inputs := by
  have hn := h.executions_nodup hv
  obtain ⟨ms, running, hr, hperm, hsub⟩ := h.reached
  refine ⟨⟨ms, running, hr, ?_, ?_⟩, h.stopped, fun c' hc' => ?_, fun he => ?_⟩
  · have hout := Coordination.running_perm hn hm
    have hstep := hperm.trans (hout.append_right _)
    refine hstep.trans ?_
    simp only [View.finish, List.map_append, List.map_singleton, ← List.append_assoc]
    exact (List.perm_append_singleton _ _).symm
  · exact fun x hx => hsub (List.mem_filter.mp hx).1
  · rcases List.mem_append.mp hc' with hc' | hc'
    · exact h.cancelled c' hc'
    · rw [List.mem_singleton.mp hc']
      exact hc
  · rw [(h.ended he).1] at hm
    cases hm

theorem round (hv : v.Valid) (h : v.Coordinated inputs) : v.round.Coordinated inputs := by
  obtain ⟨ms, running, hr, hperm, hsub⟩ := h.reached
  obtain ⟨ms', hround, _, hdone⟩ := Coordination.round_reached hv.tabled hv.regular hr
  refine ⟨⟨_, _, hround, ?_, ?_⟩, fun hs => ?_, h.cancelled, fun he => ?_⟩
  · simp only [View.round, View.launch, List.map_append, List.append_assoc]
    exact (hperm.append_right _).trans
      (by rw [List.append_assoc]; exact List.perm_append_comm.append_left _)
  · exact List.append_subset.mpr ⟨fun x hx => List.mem_append_left _ (hsub hx),
      fun x hx => List.mem_append_right _ hx⟩
  · refine (h.stopped hs).imp_right fun hst => ?_
    rw [round_of_done (.inr hst)]
    exact hst
  · obtain ⟨hx, hfin, hd⟩ := h.ended he
    rw [round_of_done hd]
    exact ⟨hx, hfin, hd⟩

theorem round_done (hv : v.Valid) (h : v.Coordinated inputs) :
    v.round.progress.ready = [] ∨ v.round.progress.isStopping = true := by
  obtain ⟨ms, running, hr, _⟩ := h.reached
  obtain ⟨_, _, _, hdone⟩ := Coordination.round_reached hv.tabled hv.regular hr
  exact hdone

theorem abort (h : v.Coordinated inputs) (e : RunError) (ha : v.progress.aborted = false)
    (hne : v.executions ≠ [] ∨ v.finished ≠ []) (he : v.ended = false) :
    (v.abort e).Coordinated inputs := by
  obtain ⟨ms, running, hr, hperm, hsub⟩ := h.reached
  have hrunning : running ≠ [] := by
    rintro rfl
    have hnil := List.nil_perm.mp hperm
    simp only [List.append_eq_nil_iff, List.map_eq_nil_iff] at hnil
    exact hne.elim (absurd hnil.1) (absurd hnil.2)
  refine ⟨⟨_, running, hr.step (.abort hrunning ha), hperm, hsub⟩, fun _ => .inr ?_,
    fun _ _ _ => rfl, fun h => ?_⟩
  · exact Progress.isStopping_iff.mpr (.inl rfl)
  · cases he.symm.trans h

theorem join (hv : v.Valid) (h : v.Coordinated inputs) {c : Completion}
    {rest : List Completion} (hf : v.finished = c :: rest)
    (hs : v.stopped = true → v.progress.isStopping = true) : (v.join c rest).Coordinated inputs := by
  obtain ⟨ms, running, hr, hperm, hsub⟩ := h.reached
  have hk := hr.kept hv.tabled hv.regular
  have hplaces : (v.executions.map Prod.fst ++ v.finished.map Completion.place).Perm
      (c.place :: (v.executions.map Prod.fst ++ rest.map Completion.place)) := by
    rw [hf, List.map_cons]
    exact List.perm_middle
  have hm : c.place ∈ running.map Prod.fst :=
    (hperm.trans hplaces).symm.subset List.mem_cons_self
  obtain ⟨⟨_, given⟩, hgiven, rfl⟩ := List.mem_map.mp hm
  have hcan : c.outcome = .cancelled → v.progress.isStopping = true := fun hc =>
    hs (h.cancelled c (hf ▸ List.mem_cons_self) hc)
  have hstep : Coordination.Step v.plan v.context ⟨v.progress, running⟩ (.join given c) _ :=
    .join hgiven hcan
  have hout := Coordination.running_perm hk.running_nodup hm
  refine ⟨⟨_, _, hr.step hstep, ?_, fun x hx => ?_⟩, fun hst => ?_, fun c' hc' => ?_,
    fun he => ?_⟩
  · exact (hout.symm.trans (hperm.trans hplaces)).cons_inv
  · refine List.mem_filter.mpr ⟨hsub hx, ?_⟩
    have hnot := (List.nodup_cons.mp (hplaces.nodup_iff.mp (h.nodup hv))).1
    have hne : x.1 ≠ c.place := fun he =>
      hnot (List.mem_append_left _ (he ▸ List.mem_map_of_mem hx))
    simpa using hne
  · exact .inr (isStopping_step hv.tabled hk hstep (hs hst))
  · exact h.cancelled c' (hf ▸ List.mem_cons_of_mem _ hc')
  · rw [(h.ended he).2.1] at hf
    cases hf

theorem stop (h : v.Coordinated inputs) (hs : v.progress.isStopping = true) :
    v.stop.Coordinated inputs :=
  ⟨h.reached, fun _ => .inr hs, fun _ _ _ => rfl, h.ended⟩

theorem settle (hv : v.Valid) (h : v.Coordinated inputs) {c : Completion}
    {rest : List Completion} (hf : v.finished = c :: rest)
    (hs : v.stopped = true → v.progress.isStopping = true) : (v.settle c rest).Coordinated inputs := by
  have hjoin := h.join hv hf hs
  unfold View.settle
  split
  · next hstopping => exact hjoin.stop hstopping
  · exact hjoin

/-- Whatever happens to a run are moves of its coordination. -/
theorem moved (hv : v.Valid) (h : v.Coordinated inputs) (hm : v.Moved called w) :
    w.Coordinated inputs := by
  cases hm with
  | round => exact h.round hv
  | close hx hf hd => exact ⟨h.reached, h.stopped, h.cancelled, fun _ => ⟨hx, hf, hd⟩⟩
  | abort e he hne ha => exact h.abort e ha hne he
  | settle _ hf hc _ =>
    refine h.settle hv hf fun hs => (h.stopped hs).elim (fun hcancelled => ?_) id
    exact Progress.isStopping_iff.mpr (.inl (hc hcancelled))
  | stay _ _ => exact h
  | work n hi hs => exact ⟨h.reached, h.stopped, h.cancelled, h.ended⟩
  | finish hi hf hc hb => exact h.finish hv hi hc
  | cancel => exact ⟨h.reached, fun _ => .inl rfl, fun _ _ _ => rfl, h.ended⟩

end Coordinated

/-- A bound on how often the coordination of a run finds something to look at: every end, and that the run
is called off. -/
def rounds (v : View) : Nat := v.finished.length + if v.progress.aborted then 0 else 1

theorem rounds_round : v.round.rounds = v.rounds := by
  simp only [rounds, round, launch, Progress.aborted_round]

theorem rounds_abort (e : RunError) (ha : v.progress.aborted = false) :
    (v.abort e).rounds + 1 = v.rounds := by
  simp [rounds, abort, Progress.abort, ha]

theorem rounds_settle {c : Completion} {rest : List Completion} (hf : v.finished = c :: rest) :
    (v.settle c rest).rounds + 1 = v.rounds := by
  have hjoin : (v.join c rest).rounds + 1 = v.rounds := by
    simp only [rounds, join, Progress.complete_aborted, hf, List.length_cons]
    omega
  rw [settle_eq]
  exact hjoin

end View

end Workflow
