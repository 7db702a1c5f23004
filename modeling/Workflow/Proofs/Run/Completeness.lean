import Workflow.Proofs.Plan.Layers
import Workflow.Proofs.Run.Scheduling

namespace Workflow.Coordination

variable {p : Plan} {ctx : Context} {inputs : Inputs} {ms : List Move} {c : Coordination} {e i : Nat}

theorem input_or_source (ht : p.Tabled) (hf : p.flow.Regular) (he : e < p.flow.links.length) :
    e ∈ p.inputLinks ∨ ∃ i < p.size, p.sourceOf? e = some i := by
  have hl := List.getElem?_eq_getElem he
  rcases hf.source _ (List.getElem_mem he) with hin | ⟨i, hi⟩
  · exact .inl ((ht.mem_inputLinks e).mpr ⟨_, hl, hin⟩)
  · refine .inr ⟨i, Plan.placeAt?_lt hi, ?_⟩
    rw [Plan.sourceOf?, hl, Option.bind_some, hi]

theorem Ended.ready_eq_nil (he : c.Ended) (hc : c.progress.isStopping = false) :
    c.progress.ready = [] := by
  refine he.2.resolve_right fun hs => ?_
  cases hc.symm.trans hs

namespace Kept

theorem settled_of_source (ht : p.Tabled) (hf : p.flow.Regular) (h : Kept p ms c)
    (hn : c.progress.failure = none) (he : e < p.flow.links.length)
    (hs : ∀ i < p.size, p.sourceOf? e = some i → i ∈ ended ms) : c.progress.isPending e = false := by
  rcases input_or_source ht hf he with hin | ⟨i, hi, hsi⟩
  · exact h.consistent.bound e hin
  · exact h.consistent.settled hn e i hsi (hs i hi hsi)

/-- In a run that has ended without a failure, every node has ended: its links have their results once
the nodes that feed it have ended. -/
theorem ended_of_lt (ht : p.Tabled) (hf : p.flow.Regular) (h : Kept p ms c) (he : c.Ended)
    (hn : c.progress.failure = none) : ∀ j < p.size, j ∈ ended ms := by
  refine hf.acyclic.induction fun j hj ih => ?_
  have hready := he.ready_eq_nil (h.isStopping_eq_false hn)
  have hzero : Progress.pendingInto p c.progress j = 0 := by
    refine (Progress.pendingInto_eq_zero_iff ht).mpr fun e hej => ?_
    exact h.settled_of_source ht hf hn (Progress.targetOf?_lt_links hej)
      fun i hi hsi => ih i hi (Plan.arc_iff.mpr ⟨e, hsi, hej⟩)
  have hmem := (h.consistent.counted.mem j).mpr ⟨hj, hzero⟩
  rwa [hready, he.1] at hmem

theorem ended_perm (ht : p.Tabled) (hf : p.flow.Regular) (h : Kept p ms c) (he : c.Ended)
    (hn : c.progress.failure = none) : (ended ms).Perm (List.range p.size) := by
  refine (List.perm_ext_iff_of_nodup h.ended_nodup List.nodup_range).mpr fun i => ?_
  rw [List.mem_range]
  exact ⟨h.consistent.lt_of_ended, h.ended_of_lt ht hf he hn i⟩

theorem recorded_perm (ht : p.Tabled) (hf : p.flow.Regular) (h : Kept p ms c) (he : c.Ended)
    (hn : c.progress.failure = none) : (c.progress.trace.map Record.nodeId).Perm p.flow.ids := by
  have hids : (List.range p.size).map p.idOf = p.flow.ids := by
    refine List.ext_getElem? fun i => ?_
    by_cases hi : i < p.size
    · rw [List.getElem?_map, List.getElem?_range hi, Progress.idOf_eq hi, Option.map_some]
    · rw [List.getElem?_eq_none (by simpa using hi),
        List.getElem?_eq_none (by simpa [Flow.ids, Plan.size] using hi)]
  rw [h.consistent.trace, ← hids]
  exact (h.ended_perm ht hf he hn).map p.idOf

theorem settled_of_lt (ht : p.Tabled) (hf : p.flow.Regular) (h : Kept p ms c) (he : c.Ended)
    (hn : c.progress.failure = none) (hlt : e < p.flow.links.length) :
    c.progress.isPending e = false :=
  h.settled_of_source ht hf hn hlt fun i hi _ => h.ended_of_lt ht hf he hn i hi

end Kept

/-- When a run of a valid workflow ends without a failure, which an abort would be too, every link has
its result, and every node has exactly one record, which tells that it succeeded, was routed or
skipped. -/
theorem complete_of_ended {d : Document} {f : Flow} (hv : Flow.validate d = .ok f)
    (hp : Plan.ofFlow f = .ok p) (h : Reached p ctx inputs ms c) (he : c.Ended)
    (hn : c.progress.failure = none) :
    (∀ e < f.links.length,
      c.progress.links[e]? = some .empty ∨ ∃ v, c.progress.links[e]? = some (.delivered v)) ∧
      (c.progress.trace.map Record.nodeId).Perm f.ids ∧ f.ids.Nodup ∧
      ∀ r ∈ c.progress.trace, r.status = .succeeded ∨ r.status = .routed ∨ r.status = .skipped := by
  have hflow := (Plan.eq_of_ofFlow hp).1
  have hf : p.flow.Regular := hflow ▸ Flow.regular_of_validate hv
  have ht := Plan.tabled_of_ofFlow hp
  have hk := h.kept ht hf
  rw [← hflow]
  refine ⟨fun e hlt => ?_, hk.recorded_perm ht hf he hn, hf.ids_nodup, hk.consistent.status hn⟩
  have hlen : e < c.progress.links.length := by
    rw [hk.consistent.counted.links_length]
    exact hlt
  have hsettled := hk.settled_of_lt ht hf he hn hlt
  have hstate := List.getElem?_eq_getElem hlen
  cases hv : c.progress.links[e] with
  | pending =>
    rw [Progress.isPending_iff.mpr (hstate.trans (congrArg some hv))] at hsettled
    cases hsettled
  | empty => exact .inl (hstate.trans (congrArg some hv))
  | delivered v => exact .inr ⟨v, hstate.trans (congrArg some hv)⟩

theorem complete_of_diamond :
    (∀ e < diamondFlow.links.length, (diamondAfter [1, 0, 2]).progress.links[e]? = some .empty ∨
      ∃ v, (diamondAfter [1, 0, 2]).progress.links[e]? = some (.delivered v)) ∧
    ((diamondAfter [1, 0, 2]).progress.trace.map Record.nodeId).Perm diamondFlow.ids ∧
    diamondFlow.ids.Nodup ∧ ∀ r ∈ (diamondAfter [1, 0, 2]).progress.trace,
      r.status = .succeeded ∨ r.status = .routed ∨ r.status = .skipped := by
  obtain ⟨ms, hr, _⟩ := diamond_reached _ (admits_diamond (.inr ⟨rfl, rfl⟩))
  exact complete_of_ended validate_diamond ofFlow_diamond hr ⟨rfl, .inl rfl⟩ rfl

end Workflow.Coordination
