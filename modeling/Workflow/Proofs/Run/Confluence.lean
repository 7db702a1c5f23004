import Workflow.Proofs.Run.Completeness
import Workflow.Proofs.Run.Sequential
import Workflow.Proofs.Run.Solution

namespace Workflow

namespace Coordination

open Progress (Explains Solves Agrees Shares)

variable {p : Plan} {ctx : Context} {inputs : Inputs} {answer : Answer}
variable {ms : List Move} {m : Move} {c c' : Coordination} {u : Progress}

theorem obeys_of_concat (h : ∀ m' ∈ ms ++ [m], m'.Obeys answer) :
    (∀ m' ∈ ms, m'.Obeys answer) ∧ m.Obeys answer :=
  ⟨fun m' hm => h m' (List.mem_append_left _ hm), h m (by simp)⟩

theorem explains_opened (ht : p.Tabled) (hn : (opened p ctx inputs).progress.failure = none) :
    (opened p ctx inputs).progress.Explains p ctx inputs answer [] [] := by
  obtain ⟨rs, f, hrs, heq, hf⟩ := Progress.bindInputs_eq ht ctx inputs
  rw [opened, heq] at hn ⊢
  obtain ⟨_, hres⟩ := hf.resolve_right fun h => by
    rw [show f = none from hn] at h
    cases h.1
  refine ⟨fun e he => ?_, fun x hx => absurd hx List.not_mem_nil,
    fun i hi => absurd hi List.not_mem_nil, ?_, ?_⟩
  · exact Progress.shares_of_resolved hres (hrs ▸ ht.inputLinks_nodup)
      (Progress.counted_start ht).links_length (hrs ▸ he)
  · dsimp only
    rw [Progress.settleEach_trace]
    rfl
  · dsimp only
    rw [Progress.settleEach_outputs]
    rfl

/-- In a run that has not failed, everything is as the answers of the nodes have it. -/
theorem explains_of_reached (ht : p.Tabled) (hf : p.flow.Regular) (h : Reached p ctx inputs ms c)
    (ho : ∀ m ∈ ms, m.Obeys answer) (hn : c.progress.failure = none) :
    c.progress.Explains p ctx inputs answer c.running (ended ms) := by
  induction h with
  | opened => exact explains_opened ht hn
  | @step ms m c c' h hs ih =>
    obtain ⟨ho, hm⟩ := obeys_of_concat ho
    have hk := h.kept ht hf
    have hn' := hk.failure ht hs hn
    have hstop := hk.isStopping_eq_false hn'
    have ih := ih ho hn'
    obtain ⟨log, hlog⟩ := hk.settling ht hf hs
    have hkeep : ∀ e, c.progress.isPending e = false → c'.progress.links[e]? = c.progress.links[e]? :=
      fun e => hlog.links_eq
    rw [ended_concat]
    cases hs with
    | @start s running x rest given _ hr hg =>
      have he : ended ms ++ (Move.start x.2 given).ended?.toList = ended ms := List.append_nil _
      rw [he]
      refine ⟨ih.bound, fun y hy => ?_, ih.explained, ih.keys, ih.outputs⟩
      rcases List.mem_append.mp hy with hy | hy
      · exact ih.given y hy
      · rw [List.mem_singleton.mp hy]
        exact hg
    | @pass s running x rest _ hr hg =>
      have hcount := (hk.consistent.start hr).counted
      have hx : x.2 ∈ running.map Prod.fst ++ [x.2] ++ ended ms := by simp
      obtain ⟨id, n, hnode⟩ := Progress.node?_of_lt ((hcount.mem x.2).mp (List.mem_append_right _ hx)).1
      refine Explains.ends ht (s := { s with ready := rest })
        ⟨ih.bound, ih.given, ih.explained, ih.keys, ih.outputs⟩
        hcount hx ?_ ?_ (List.Subset.refl _) hkeep hnode ?_ ?_ hn
      · exact fun i hi => List.mem_append_left _ (List.mem_append_left _ hi)
      · exact List.subset_append_right _ _
      · rw [hg]
        exact fun h => by cases h
      · rw [hg]
        exact Progress.concludes_skip ht hnode
    | @join s running given e hm' hc =>
      have hi : e.place ∈ running.map Prod.fst := List.mem_map_of_mem hm'
      obtain ⟨id, n, hnode⟩ := Progress.node?_of_lt (hk.consistent.lt_of_running hi)
      have hans : e.Answers answer given := hm.resolve_left fun hcan => by
        cases hstop.symm.trans (hc hcan)
      have hg : s.gather p e.place = some given := ih.given _ hm'
      have hv : (Progress.conclusion p ctx answer e.place n (some given)).status ≠ .failed := fun hfail =>
        Progress.complete_fails hnode hans hfail hn
      refine Explains.ends ht ih hk.consistent.counted (List.mem_append_left _ hi)
        (List.subset_append_left _ _) (List.subset_append_right _ _)
        (fun x hx => (List.mem_filter.mp hx).1) hkeep hnode ?_ ?_ hn
      · rw [hg]
        exact hv
      · rw [hg]
        exact Progress.concludes_complete hnode hstop hans hv
    | abort _ _ => exact hm.elim

/-- A run whose links fit together at its end is a solution for its inputs and answers. -/
theorem solves_of_ended (ht : p.Tabled) (hf : p.flow.Regular) (h : Reached p ctx inputs ms c)
    (ho : ∀ m ∈ ms, m.Obeys answer) (he : c.Ended) (hn : c.progress.failure = none) :
    c.progress.Solves p ctx inputs answer := by
  have hx := explains_of_reached ht hf h ho hn
  exact ⟨hx.bound, fun i hi => hx.explained i ((h.kept ht hf).ended_of_lt ht hf he hn i hi)⟩

theorem agrees_opened (ht : p.Tabled) (hu : u.Solves p ctx inputs answer) :
    (opened p ctx inputs).progress.failure = none ∧ (opened p ctx inputs).progress.Agrees p u := by
  obtain ⟨rs, f, hrs, heq, hf⟩ := Progress.bindInputs_eq ht ctx inputs
  have hgood : f = none ∧ Progress.Resolved p (Progress.bound p ctx inputs) rs := by
    refine hf.resolve_right fun ⟨_, e, he, l, err, hl, herr⟩ => ?_
    obtain ⟨l', v, hl', hv, _⟩ := hu.bound e he
    cases hl.symm.trans hl'
    cases herr.symm.trans hv
  obtain ⟨hnone, hres⟩ := hgood
  rw [opened, heq]
  refine ⟨hnone, fun e he hp => ?_⟩
  by_cases hm : e ∈ rs.map Prod.fst
  · have hs := Progress.shares_of_resolved hres (hrs ▸ ht.inputLinks_nodup)
      (Progress.counted_start ht).links_length hm
    exact (hu.bound e (hrs ▸ hm)).links_eq hs
  · have hstart : ((Progress.start p).settleEach p rs).isPending e = true := by
      rw [Progress.isPending_of_eq (Progress.links_settleEach_of_not_mem hm)]
      exact Progress.isPending_start.mpr he
    cases hp.symm.trans hstart

/-- A node that ends as it has to gives links what they have in a solution, and so does not fail the
run. -/
theorem agrees_of_concludes (ht : p.Tabled) {s t : Progress} {i : Nat} {id : String} {v : Conclusion}
    (hlen : s.links.length = p.flow.links.length) (ha : s.Agrees p u)
    (hkeep : ∀ e, e ∉ p.outOf i → t.links[e]? = s.links[e]?)
    (hc : Progress.Concludes p s i id v t) (hn : s.failure = none)
    (hu : ∀ e ∈ p.outOf i, Shares p v.share u e) : t.failure = none ∧ t.Agrees p u := by
  have hf : t.failure = none := (hc.failure_eq ht hu).trans hn
  refine ⟨hf, fun e he hp => ?_⟩
  by_cases hm : e ∈ p.outOf i
  · exact (hu e hm).links_eq (hc.shares ht hlen hf e hm)
  · rw [hkeep e hm]
    exact ha e he (by rw [← Progress.isPending_of_eq (hkeep e hm), hp])

/-- Whenever nodes give their answers, a run does not leave a solution that there is, and does not
fail. -/
theorem agrees_of_reached (ht : p.Tabled) (hf : p.flow.Regular) (hu : u.Solves p ctx inputs answer)
    (h : Reached p ctx inputs ms c) (ho : ∀ m ∈ ms, m.Obeys answer) :
    c.progress.failure = none ∧ c.progress.Agrees p u := by
  induction h with
  | opened => exact agrees_opened ht hu
  | @step ms m c c' h hs ih =>
    obtain ⟨ho, hm⟩ := obeys_of_concat ho
    obtain ⟨hn, ha⟩ := ih ho
    have hk := h.kept ht hf
    have hstop := hk.isStopping_eq_false hn
    have hx := explains_of_reached ht hf h ho hn
    have hlen := hk.consistent.counted.links_length
    cases hs with
    | start _ _ _ => exact ⟨hn, ha⟩
    | @pass s running x rest _ hr hg =>
      obtain ⟨hstart, r, rs, hends⟩ := hk.ends_pass hr
      have hgone : x.2 ∈ running.map Prod.fst ++ [x.2] ++ ended ms := by simp
      have hlt := ((hstart.counted.mem x.2).mp (List.mem_append_right _ hgone)).1
      obtain ⟨id, n, hnode⟩ := Progress.node?_of_lt hlt
      have hgu : u.gather p x.2 = none :=
        (Agrees.gather_eq ht (s := { s with ready := rest }) ha hstart.counted hgone).trans hg
      have hshares := (hu.explained x.2 hlt id n hnode).2
      rw [hgu] at hshares
      exact agrees_of_concludes ht (s := { s with ready := rest }) hlen ha
        (fun e he => hends.links_eq fun hm => he (hends.links.subset hm))
        (Progress.concludes_skip ht hnode) hn hshares
    | @join s running given e hm' hc =>
      obtain ⟨r, rs, hends⟩ := hk.ends_join ht ctx hm' hc
      have hi : e.place ∈ running.map Prod.fst := List.mem_map_of_mem hm'
      have hlt := hk.consistent.lt_of_running hi
      obtain ⟨id, n, hnode⟩ := Progress.node?_of_lt hlt
      have hans : e.Answers answer given := hm.resolve_left fun hcan => by
        cases hstop.symm.trans (hc hcan)
      have hgu : u.gather p e.place = some given :=
        (ha.gather_eq ht hk.consistent.counted (List.mem_append_left _ hi)).trans (hx.given _ hm')
      obtain ⟨hv, hshares⟩ := hu.explained e.place hlt id n hnode
      rw [hgu] at hv hshares
      exact agrees_of_concludes ht hlen ha
        (fun e he => hends.links_eq fun hm => he (hends.links.subset hm))
        (Progress.concludes_complete hnode hstop hans hv) hn hshares
    | abort _ _ => exact hm.elim

theorem aborted_of_reached (ht : p.Tabled) (hf : p.flow.Regular) (h : Reached p ctx inputs ms c)
    (ho : ∀ m ∈ ms, m.Obeys answer) : c.progress.aborted = false := by
  induction h with
  | opened =>
    obtain ⟨rs, f, _, heq, _⟩ := Progress.bindInputs_eq ht ctx inputs
    rw [opened, heq]
    exact Progress.settleEach_aborted
  | @step ms m c c' h hs ih =>
    have ih := ih (obeys_of_concat ho).1
    have hm := (obeys_of_concat ho).2
    have hk := h.kept ht hf
    cases hs with
    | start _ _ _ => exact ih
    | pass _ hr _ =>
      obtain ⟨_, r, rs, hends⟩ := hk.ends_pass hr
      exact hends.aborted_eq.trans ih
    | join hm' hc =>
      obtain ⟨r, rs, hends⟩ := hk.ends_join ht ctx hm' hc
      exact hends.aborted_eq.trans ih
    | abort _ _ => exact hm.elim

/-- When the inputs of a run cannot be bound, it makes no move. -/
theorem eq_opened_of_failure (hn : (opened p ctx inputs).progress.failure ≠ none)
    (h : Reached p ctx inputs ms c) : c = opened p ctx inputs := by
  induction h with
  | opened => rfl
  | step _ hs ih =>
    have hstop : (opened p ctx inputs).progress.isStopping = true :=
      Progress.isStopping_iff.mpr (.inr (Option.isSome_iff_ne_none.mpr hn))
    generalize hc : opened p ctx inputs = o at ih hstop
    subst ih
    cases hs with
    | start hs _ _ => cases hstop.symm.trans hs
    | pass hs _ _ => cases hstop.symm.trans hs
    | join hm _ =>
      cases hc
      cases hm
    | abort hr _ =>
      cases hc
      exact absurd rfl hr

/-- The run has failed after its inputs were bound: a node failed and had no error port to go along, or
a link could not be given its result. -/
def Broken (p : Plan) (ctx : Context) (inputs : Inputs) (c : Coordination) : Prop :=
  c.progress.failure ≠ (opened p ctx inputs).progress.failure

/-- What a run is reported to have come to. -/
def result (p : Plan) (ctx : Context) (c : Coordination) : Report := c.progress.report p ctx.traceId

/-- Two runs have the same status, and are both broken or both not. If they are not, they differ at most
in the order and the times of their records. -/
structure Alike (p : Plan) (ctx : Context) (inputs : Inputs) (c c' : Coordination) : Prop where
  status : (result p ctx c).status = (result p ctx c').status
  broken : Broken p ctx inputs c ↔ Broken p ctx inputs c'
  failed : Broken p ctx inputs c → (result p ctx c).status = .failed
  outputs : ¬ Broken p ctx inputs c → (result p ctx c).outputs = (result p ctx c').outputs
  boundary : ¬ Broken p ctx inputs c → (result p ctx c).boundary = (result p ctx c').boundary
  error : ¬ Broken p ctx inputs c → (result p ctx c).error = (result p ctx c').error
  records : ¬ Broken p ctx inputs c →
    ((result p ctx c).trace.map Record.key).Perm ((result p ctx c').trace.map Record.key)

theorem same_of_reached (ht : p.Tabled) (hf : p.flow.Regular) {ms' : List Move}
    (h : Reached p ctx inputs ms c) (ho : ∀ m ∈ ms, m.Obeys answer) (he : c.Ended)
    (h' : Reached p ctx inputs ms' c') (ho' : ∀ m ∈ ms', m.Obeys answer) (he' : c'.Ended)
    (hn : c.progress.failure = none) : c'.progress.failure = none ∧
      c'.progress.links = c.progress.links ∧ c'.progress.outputs = c.progress.outputs ∧
      (c.progress.trace.map Record.key).Perm (c'.progress.trace.map Record.key) := by
  have hk := h.kept ht hf
  have hk' := h'.kept ht hf
  obtain ⟨hn', ha⟩ := agrees_of_reached ht hf (solves_of_ended ht hf h ho he hn) h' ho'
  have hlinks : c'.progress.links = c.progress.links := by
    refine List.ext_getElem? fun e => ?_
    by_cases hlt : e < p.flow.links.length
    · exact ha e hlt (hk'.settled_of_lt ht hf he' hn' hlt)
    · rw [List.getElem?_eq_none (by rw [hk'.consistent.counted.links_length]; omega),
        List.getElem?_eq_none (by rw [hk.consistent.counted.links_length]; omega)]
  have hx := explains_of_reached ht hf h ho hn
  have hx' := explains_of_reached ht hf h' ho' hn'
  have hgather : ∀ i, c'.progress.gather p i = c.progress.gather p i := fun i =>
    Progress.gather_congr fun e _ => by rw [hlinks]
  have hperm : (ended ms).Perm (ended ms') :=
    (hk.ended_perm ht hf he hn).trans (hk'.ended_perm ht hf he' hn').symm
  refine ⟨hn', hlinks, ?_, ?_⟩
  · have hnotes : (ended ms').foldl (Progress.noteAt p ctx answer c'.progress) [] =
        (ended ms').foldl (Progress.noteAt p ctx answer c.progress) [] :=
      List.foldl_ext _ _ _ fun outputs i _ => Progress.noteAt_congr (hgather i)
    rw [hx'.outputs, hx.outputs, hnotes]
    exact hperm.symm.foldl_eq' (fun i _ j _ outputs => Progress.noteAt_comm hf outputs i j) []
  · have hkeys : (ended ms').map (Progress.keyAt p ctx answer c'.progress) =
        (ended ms').map (Progress.keyAt p ctx answer c.progress) :=
      List.map_congr_left fun i _ => Progress.keyAt_congr (hgather i)
    have hsome : (c.progress.trace.map (fun r => some r.key)).Perm
        (c'.progress.trace.map (fun r => some r.key)) := by
      rw [hx.keys, hx'.keys, hkeys]
      exact hperm.map _
    rw [← List.map_perm_map_iff (Option.some_injective _), List.map_map, List.map_map]
    exact hsome

theorem status_of_failure (p : Plan) (ctx : Context) (hn : c.progress.failure ≠ none)
    (ha : c.progress.aborted = false) :
    (result p ctx c).status = .failed := by
  obtain ⟨e, he⟩ := Option.ne_none_iff_exists'.mp hn
  simp only [result, Progress.report, ha, he, Bool.false_eq_true, if_false]

theorem alike_of_not_failed (ht : p.Tabled) (hf : p.flow.Regular) {ms' : List Move}
    (h : Reached p ctx inputs ms c) (ho : ∀ m ∈ ms, m.Obeys answer) (he : c.Ended)
    (h' : Reached p ctx inputs ms' c') (ho' : ∀ m ∈ ms', m.Obeys answer) (he' : c'.Ended)
    (hopen : (opened p ctx inputs).progress.failure = none) (hn : c.progress.failure = none) :
    Alike p ctx inputs c c' := by
  obtain ⟨hn', hlinks, houtputs, hrecords⟩ := same_of_reached ht hf h ho he h' ho' he' hn
  have ha := aborted_of_reached ht hf h ho
  have ha' := aborted_of_reached ht hf h' ho'
  have hboundary : c'.progress.delivered p p.outputLinks = c.progress.delivered p p.outputLinks :=
    Progress.delivered_congr fun e _ => by rw [hlinks]
  have hbroken : ¬ Broken p ctx inputs c := not_not.mpr (hn.trans hopen.symm)
  have hbroken' : ¬ Broken p ctx inputs c' := not_not.mpr (hn'.trans hopen.symm)
  refine ⟨?_, iff_of_false hbroken hbroken', fun hb => absurd hb hbroken, fun _ => houtputs.symm,
    fun _ => hboundary.symm, fun _ => ?_, fun _ => hrecords⟩
  · simp only [result, Progress.report, ha, ha', hn, hn', hboundary]
  · simp only [result, Progress.report, ha, ha', hn, hn', hboundary]

/-- Runs with the same answers come to the same, in whatever order their executions end. -/
theorem alike (ht : p.Tabled) (hf : p.flow.Regular) {ms' : List Move}
    (h : Reached p ctx inputs ms c) (ho : ∀ m ∈ ms, m.Obeys answer) (he : c.Ended)
    (h' : Reached p ctx inputs ms' c') (ho' : ∀ m ∈ ms', m.Obeys answer) (he' : c'.Ended) :
    Alike p ctx inputs c c' := by
  by_cases hopen : (opened p ctx inputs).progress.failure = none
  · by_cases hn : c.progress.failure = none
    · exact alike_of_not_failed ht hf h ho he h' ho' he' hopen hn
    · have hn' : c'.progress.failure ≠ none := fun hn' =>
        hn (same_of_reached ht hf h' ho' he' h ho he hn').1
      have hs := status_of_failure p ctx hn (aborted_of_reached ht hf h ho)
      have hs' := status_of_failure p ctx hn' (aborted_of_reached ht hf h' ho')
      have hb : Broken p ctx inputs c := fun heq => hn (heq.trans hopen)
      have hb' : Broken p ctx inputs c' := fun heq => hn' (heq.trans hopen)
      exact ⟨hs.trans hs'.symm, iff_of_true hb hb', fun _ => hs, fun h => absurd hb h,
        fun h => absurd hb h, fun h => absurd hb h, fun h => absurd hb h⟩
  · rw [eq_opened_of_failure hopen h, eq_opened_of_failure hopen h']
    exact ⟨rfl, Iff.rfl, fun hb => absurd rfl hb, fun _ => rfl, fun _ => rfl, fun _ => rfl,
      fun _ => List.Perm.refl _⟩

/-- In a valid workflow whose nodes answer to their inputs, the order in which executions end does not
matter: any two runs come to the same, and to what the sequential run comes to. -/
theorem confluent {d : Document} {f : Flow} (hv : Flow.validate d = .ok f)
    (hp : Plan.ofFlow f = .ok p) {ms' : List Move}
    (h : Reached p ctx inputs ms c) (ho : ∀ m ∈ ms, m.Obeys answer) (he : c.Ended)
    (h' : Reached p ctx inputs ms' c') (ho' : ∀ m ∈ ms', m.Obeys answer) (he' : c'.Ended) :
    Alike p ctx inputs c c' ∧ Alike p ctx inputs c (sequential p ctx inputs answer) := by
  have hflow := (Plan.eq_of_ofFlow hp).1
  have hf : p.flow.Regular := hflow ▸ Flow.regular_of_validate hv
  have ht := Plan.tabled_of_ofFlow hp
  obtain ⟨msₛ, hs, hos, hes⟩ := sequential_reached ht hf ctx inputs answer
  exact ⟨alike ht hf h ho he h' ho' he', alike ht hf h ho he hs hos hes⟩

theorem confluent_diamond :
    Alike diamondPlan diamondContext diamondInputs (diamondAfter [0, 1, 2]) (diamondAfter [1, 0, 2]) ∧
      Alike diamondPlan diamondContext diamondInputs (diamondAfter [0, 1, 2])
        (sequential diamondPlan diamondContext diamondInputs fun _ _ => (.ok (.str "w"), 1)) := by
  have hobeys : ∀ m : Move, (m.placed?.isSome = true ∨ ∃ i given, m = .join given (said i)) →
      m.Obeys fun _ _ => (.ok (.str "w"), 1) := by
    rintro m (hm | ⟨i, given, rfl⟩)
    · cases m with
      | start i given => trivial
      | pass i => trivial
      | join given e => cases hm
      | abort e => cases hm
    · exact .inr ⟨rfl, rfl⟩
  obtain ⟨ms, hr, hms⟩ := diamond_reached _ (admits_diamond (.inl ⟨rfl, rfl⟩))
  obtain ⟨ms', hr', hms'⟩ := diamond_reached _ (admits_diamond (.inr ⟨rfl, rfl⟩))
  exact confluent validate_diamond ofFlow_diamond hr (fun m hm => hobeys m (hms m hm)) ⟨rfl, .inl rfl⟩
    hr' (fun m hm => hobeys m (hms' m hm)) ⟨rfl, .inl rfl⟩

end Coordination

end Workflow
