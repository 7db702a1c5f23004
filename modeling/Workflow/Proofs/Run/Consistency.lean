import Workflow.Proofs.Flow.Regular
import Workflow.Proofs.Run.Ending

namespace Workflow.Progress

variable {p : Plan} {s t : Progress} {running ended : List Nat} {i e : Nat}

/-- Wherever a link joins two nodes, the record of the second one stands behind that of the first, which
gave the link its result. -/
def Ordered (p : Plan) (records : List Record) : Prop :=
  ∀ e a b, p.sourceOf? e = some a → p.targetOf? e = some b →
    ∀ (k : Nat) (r : Record), records[k]? = some r → r.nodeId = p.idOf b →
      ∃ (j : Nat) (q : Record), j < k ∧ records[j]? = some q ∧ q.nodeId = p.idOf a ∧ q.status.Settles

theorem ordered_concat {records : List Record} {r : Record} (h : Ordered p records)
    (hr : ∀ e a b, p.sourceOf? e = some a → p.targetOf? e = some b → r.nodeId = p.idOf b →
      ∃ q ∈ records, q.nodeId = p.idOf a ∧ q.status.Settles) : Ordered p (records ++ [r]) := by
  intro e a b ha hb k r' hk hid
  have hbefore : ∀ j q, records[j]? = some q → (records ++ [r])[j]? = some q := fun j q hq => by
    rw [List.getElem?_append_left (List.getElem?_eq_some_iff.mp hq).1, hq]
  rcases Nat.lt_or_ge k records.length with hlt | hge
  · rw [List.getElem?_append_left hlt] at hk
    obtain ⟨j, q, hj, hq, hs⟩ := h e a b ha hb k r' hk hid
    exact ⟨j, q, hj, hbefore j q hq, hs⟩
  · rw [List.getElem?_append_right hge, List.getElem?_singleton] at hk
    split at hk
    · cases hk
      obtain ⟨q, hq, hs⟩ := hr e a b ha hb hid
      obtain ⟨j, hj, hjq⟩ := List.mem_iff_getElem.mp hq
      have hjq' : records[j]? = some q := by rw [List.getElem?_eq_getElem hj, hjq]
      exact ⟨j, q, Nat.lt_of_lt_of_le hj hge, hbefore j q hjq', hs⟩
    · cases hk

/-- What holds of a run at all times, given the nodes that are under way and those that have ended, in
order. A link from the inputs of the run has its result; one from a node has it only after the node has
ended, and then always unless the run has failed. -/
structure Consistent (p : Plan) (s : Progress) (running ended : List Nat) : Prop where
  counted : Counted p s (running ++ ended)
  trace : s.trace.map Record.nodeId = ended.map p.idOf
  bound : ∀ e ∈ p.inputLinks, s.isPending e = false
  source : ∀ e i, p.sourceOf? e = some i → e < s.links.length → s.isPending e = false →
    ∃ r ∈ s.trace, r.nodeId = p.idOf i ∧ r.status.Settles
  settled : s.failure = none → ∀ e i, p.sourceOf? e = some i → i ∈ ended → s.isPending e = false
  status : s.failure = none → ∀ r ∈ s.trace, r.status.Settles
  aborted : s.aborted = true → s.failure.isSome = true
  ordered : Ordered p s.trace

theorem idOf_eq {i : Nat} (h : i < p.size) : p.flow.ids[i]? = some (p.idOf i) := by
  have hlt : i < p.flow.ids.length := by simpa [Flow.ids, Plan.size] using h
  rw [Plan.idOf, List.getD_eq_getElem?_getD, List.getElem?_eq_getElem hlt, Option.getD_some]

theorem idOf_inj (hr : p.flow.Regular) {i j : Nat} (hi : i < p.size) (hj : j < p.size)
    (h : p.idOf i = p.idOf j) : i = j := by
  have hi' := idOf_eq hi
  have hj' := idOf_eq hj
  rw [← h, ← hi'] at hj'
  have hlt : i < p.flow.ids.length := by simpa [Flow.ids, Plan.size] using hi
  exact (List.getElem?_inj hlt hr.ids_nodup).mp hj'.symm

theorem node?_of_lt (h : i < p.size) : ∃ id n, p.flow.nodes[i]? = some (id, n) :=
  ⟨_, _, List.getElem?_eq_getElem h⟩

namespace Consistent

theorem lt_of_running (h : Consistent p s running ended) (hi : i ∈ running) : i < p.size :=
  ((h.counted.mem i).mp (List.mem_append_right _ (List.mem_append_left _ hi))).1

theorem lt_of_ended (h : Consistent p s running ended) (hi : i ∈ ended) : i < p.size :=
  ((h.counted.mem i).mp (List.mem_append_right _ (List.mem_append_right _ hi))).1

theorem not_ended_of_running (h : Consistent p s running ended) (hi : i ∈ running) : i ∉ ended := fun hm =>
  (List.nodup_append.mp (List.nodup_append.mp h.counted.nodup).2.1).2.2 i hi i hm rfl

theorem failure_ne_none (h : Consistent p s running ended) (hs : s.isStopping = true) :
    s.failure ≠ none := by
  have hsome : s.failure.isSome = true := (isStopping_iff.mp hs).elim h.aborted id
  exact Option.isSome_iff_ne_none.mp hsome

/-- A node with a record has ended. -/
theorem ended_of_record (hr : p.flow.Regular) (h : Consistent p s running ended) {r : Record}
    (hm : r ∈ s.trace) (hlt : i < p.size) (hid : r.nodeId = p.idOf i) : i ∈ ended := by
  have hid' : p.idOf i ∈ ended.map p.idOf := by
    rw [← h.trace, ← hid]
    exact List.mem_map_of_mem hm
  obtain ⟨j, hj, hji⟩ := List.mem_map.mp hid'
  exact idOf_inj hr (h.lt_of_ended hj) hlt hji ▸ hj

theorem isPending_of_not_ended (ht : p.Tabled) (hr : p.flow.Regular) (h : Consistent p s running ended)
    (hi : i ∉ ended) (he : e ∈ p.outOf i) : s.isPending e = true := by
  by_contra hp
  have hsource := (ht.mem_outOf i e).mp he
  have hlt : i < p.size := by
    obtain ⟨l, _, hl⟩ := Option.bind_eq_some_iff.mp hsource
    exact Plan.placeAt?_lt hl
  have hlen : e < s.links.length := by
    rw [h.counted.links_length]
    exact outOf_lt ht he
  obtain ⟨r, hm, hid, _⟩ := h.source e i hsource hlen (Bool.eq_false_iff.mpr hp)
  exact hi (h.ended_of_record hr hm hlt hid)

theorem start {x : Nat × Nat} {rest : List (Nat × Nat)} (h : Consistent p s running ended)
    (hr : s.ready = x :: rest) : Consistent p { s with ready := rest } (running ++ [x.2]) ended where
  counted := (h.counted.pop hr).perm (by
    rw [List.append_assoc, List.append_assoc]
    exact List.perm_append_comm.append_left running)
  trace := h.trace
  bound := h.bound
  source := h.source
  settled := h.settled
  status := h.status
  aborted := h.aborted
  ordered := h.ordered

theorem abort (h : Consistent p s running ended) (err : RunError) :
    Consistent p (s.abort err) running ended where
  counted := h.counted.congr rfl rfl rfl
  trace := h.trace
  bound := h.bound
  source := h.source
  settled := fun hf => absurd hf (fail_failure_ne_none err)
  status := fun hf => absurd hf (fail_failure_ne_none err)
  aborted := fun _ => Option.isSome_iff_ne_none.mpr (fail_failure_ne_none err)
  ordered := h.ordered

variable {running' : List Nat} {r : Record} {rs : List (Nat × Option Json)}

theorem settling (ht : p.Tabled) (hr : p.flow.Regular) (h : Consistent p s running ended)
    (hi : i ∈ running) (he : Ends p s i t r rs) : Settling p s (rs.map Prod.fst) [] t := by
  obtain ⟨outputs, f, rfl⟩ := he.shape
  have hnot := h.not_ended_of_running hi
  have hnoted : Settling p s [] [] { s with outputs := outputs, trace := s.trace ++ [r] } :=
    Settling.refl.note rfl rfl rfl
  have hnodup := (ht.outOf_nodup i).sublist he.links.sublist
  have hpending : ∀ e ∈ rs.map Prod.fst, s.isPending e = true := fun e hm =>
    h.isPending_of_not_ended ht hr hnot (he.links.subset hm)
  have hshared := hnoted.trans (settling_settleEach ht (h.counted.congr rfl rfl rfl) hnodup hpending)
  rw [List.nil_append] at hshared
  exact hshared.note rfl rfl rfl

theorem ends (ht : p.Tabled) (hr : p.flow.Regular) (h : Consistent p s running ended)
    (hp : running.Perm (i :: running')) (he : Ends p s i t r rs) :
    Consistent p t running' (ended ++ [i]) := by
  have hi : i ∈ running := hp.symm.subset List.mem_cons_self
  have hsettling := h.settling ht hr hi he
  have htrace := he.trace_eq
  have hrun : t.failure = none → s.failure = none ∧ r.status.Settles ∧ rs.map Prod.fst = p.outOf i := by
    intro hf
    have hs := he.failure hf
    have hnot : s.isStopping = false := Bool.eq_false_iff.mpr fun hst => h.failure_ne_none hst hs
    exact ⟨hs, he.whole hf hnot⟩
  have hgone : (running ++ ended).Perm (running' ++ (ended ++ [i])) := by
    refine (hp.append_right ended).trans ?_
    rw [← List.append_assoc]
    exact (List.perm_append_singleton i (running' ++ ended)).symm
  refine ⟨?_, ?_, fun e hm => hsettling.isPending_eq_false (h.bound e hm), fun e j hj hlen hpe => ?_,
    fun hf e j hj hm => ?_, fun hf q hq => ?_, fun ha => ?_, ?_⟩
  · exact ((hsettling.counted ht h.counted).perm (by rw [List.append_nil])).perm hgone
  · rw [htrace, List.map_append, h.trace, List.map_append, List.map_singleton, he.nodeId,
      List.map_singleton]
  · rw [htrace]
    by_cases hm : e ∈ rs.map Prod.fst
    · have hji : j = i := by
        have hsource := (ht.mem_outOf i e).mp (he.links.subset hm)
        exact Option.some.inj (hj.symm.trans hsource)
      have hne : rs ≠ [] := by
        rintro rfl
        cases hm
      exact ⟨r, by simp, hji ▸ he.nodeId, he.settles hne⟩
    · have hlinks : t.links[e]? = s.links[e]? := by
        obtain ⟨outputs, f, rfl⟩ := he.shape
        exact links_settleEach_of_not_mem hm
      have hlen' : e < s.links.length := by
        rw [h.counted.links_length, ← (hsettling.counted ht h.counted).links_length]
        exact hlen
      obtain ⟨q, hq, hid⟩ := h.source e j hj hlen' (by rw [← isPending_of_eq hlinks, hpe])
      exact ⟨q, List.mem_append_left _ hq, hid⟩
  · obtain ⟨hs, _, hall⟩ := hrun hf
    rcases List.mem_append.mp hm with hm | hm
    · exact hsettling.isPending_eq_false (h.settled hs e j hj hm)
    · rw [List.mem_singleton.mp hm] at hj
      refine hsettling.settled e ?_
      rw [hall]
      exact (ht.mem_outOf i e).mpr hj
  · obtain ⟨hs, hst, _⟩ := hrun hf
    rw [htrace] at hq
    rcases List.mem_append.mp hq with hq | hq
    · exact h.status hs q hq
    · rw [List.mem_singleton.mp hq]
      exact hst
  · rw [he.aborted_eq] at ha
    exact Option.isSome_iff_ne_none.mpr fun hf =>
      Option.isSome_iff_ne_none.mp (h.aborted ha) (he.failure hf)
  · rw [htrace]
    refine ordered_concat h.ordered fun e a b ha hb hid => ?_
    have hbi : b = i :=
      idOf_inj hr (targetOf?_lt hb) (h.lt_of_running hi) (hid.symm.trans he.nodeId)
    have hzero := ((h.counted.mem i).mp (List.mem_append_right _ (List.mem_append_left _ hi))).2
    refine h.source e a ha ?_ ((pendingInto_eq_zero_iff ht).mp hzero e (hbi ▸ hb))
    rw [h.counted.links_length]
    exact targetOf?_lt_links hb

end Consistent

theorem inputLinks_lt (ht : p.Tabled) (he : e ∈ p.inputLinks) : e < p.flow.links.length := by
  obtain ⟨l, hl, _⟩ := (ht.mem_inputLinks e).mp he
  exact (List.getElem?_eq_some_iff.mp hl).1

theorem sourceOf?_of_inputLink (ht : p.Tabled) (he : e ∈ p.inputLinks) : p.sourceOf? e = none := by
  obtain ⟨l, hl, hs⟩ := (ht.mem_inputLinks e).mp he
  rw [Plan.sourceOf?, hl, Option.bind_some, hs]
  rfl

/-- All links from the inputs of a run get results, and one for which there is none fails the run. -/
theorem bindInputs_eq (ht : p.Tabled) (ctx : Context) (inputs : Inputs) :
    ∃ rs f, rs.map Prod.fst = p.inputLinks ∧
      (Progress.start p).bindInputs p ctx inputs =
        { (Progress.start p).settleEach p rs with failure := f } ∧
      (f = none ∧ Resolved p (Progress.bound p ctx inputs) rs ∨
        f.isSome = true ∧ ∃ e ∈ p.inputLinks, ∃ l err, p.flow.links[e]? = some l ∧
          Progress.bound p ctx inputs l e = .error err) :=
  bindAll_eq fun _ => inputLinks_lt ht

theorem settling_bindInputs (ht : p.Tabled) (ctx : Context) (inputs : Inputs) :
    Settling p (Progress.start p) p.inputLinks [] ((Progress.start p).bindInputs p ctx inputs) := by
  obtain ⟨rs, f, hrs, heq, _⟩ := bindInputs_eq ht ctx inputs
  have h := settling_settleEach ht (counted_start ht) (hrs ▸ ht.inputLinks_nodup)
    fun e he => isPending_start.mpr (inputLinks_lt ht (hrs ▸ he))
  rw [heq, ← hrs]
  exact h.note rfl rfl rfl

theorem consistent_bindInputs (ht : p.Tabled) (ctx : Context) (inputs : Inputs) :
    Consistent p ((Progress.start p).bindInputs p ctx inputs) [] [] := by
  have hsettling := settling_bindInputs ht ctx inputs
  have hcounted := hsettling.counted ht (counted_start ht)
  obtain ⟨rs, f, hrs, heq, _⟩ := bindInputs_eq ht ctx inputs
  have htrace : ((Progress.start p).bindInputs p ctx inputs).trace = [] := by
    rw [heq]
    exact settleEach_trace
  refine ⟨hcounted, by rw [htrace]; rfl, hsettling.settled, fun e i hi hlen hp => ?_,
    fun _ e i _ hi => absurd hi List.not_mem_nil, fun _ r hr => ?_, fun ha => ?_, ?_⟩
  · have hnot : e ∉ rs.map Prod.fst := by
      intro hm
      rw [hrs] at hm
      rw [sourceOf?_of_inputLink ht hm] at hi
      cases hi
    have hlinks : ((Progress.start p).bindInputs p ctx inputs).links[e]? =
        (Progress.start p).links[e]? := by
      rw [heq]
      exact links_settleEach_of_not_mem hnot
    rw [hcounted.links_length] at hlen
    rw [isPending_of_eq hlinks, isPending_start.mpr hlen] at hp
    cases hp
  · rw [htrace] at hr
    cases hr
  · rw [heq] at ha
    dsimp only at ha
    rw [settleEach_aborted] at ha
    cases ha
  · rw [htrace]
    intro e a b _ _ k r hk
    cases hk

end Workflow.Progress
