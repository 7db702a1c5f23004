import Workflow.Proofs.Run.Feeding

namespace Workflow.Progress

variable {p : Plan} {s t : Progress} {ctx : Context} {c : Completion} {traceId : String}

theorem report_boundary : (s.report p traceId).boundary = s.delivered p p.outputLinks := rfl

/-- A flow has outputs of its own, and no value has reached any of them. -/
def Silent (p : Plan) (s : Progress) : Prop :=
  (∃ l ∈ p.flow.links, l.target.endpoint = .output) ∧ ∀ port e v, ¬ Arrived p s ⟨.output, port⟩ e v

theorem delivered_eq_nil_iff (ht : p.Tabled) :
    s.delivered p p.outputLinks = [] ↔ ∀ port e v, ¬ Arrived p s ⟨.output, port⟩ e v := by
  constructor
  · rintro h port e v ⟨l, hl, htarget, hv⟩
    have hmem : e ∈ p.outputLinks := (ht.mem_outputLinks e).mpr ⟨l, hl, by rw [htarget]⟩
    have hget := get?_delivered (p := p) (s := s) p.outputLinks port
    rw [h, Assoc.get?_nil] at hget
    have harrived : arrival? p s port e = some v :=
      arrival?_eq_some_iff.mpr ⟨l, hl, by rw [htarget], hv⟩
    rw [List.findSome?_eq_none_iff.mp hget.symm e hmem] at harrived
    cases harrived
  · intro h
    refine List.eq_nil_iff_forall_not_mem.mpr fun x hx => ?_
    obtain ⟨e, he, l, hl, hport, hv⟩ := mem_delivered hx
    obtain ⟨l', hl', hend⟩ := (ht.mem_outputLinks e).mp he
    cases hl.symm.trans hl'
    exact h x.1 e x.2 ⟨l, hl, congrArg₂ PortRef.mk hend hport, hv⟩

theorem outputLinks_ne_nil_iff (ht : p.Tabled) :
    p.outputLinks ≠ [] ↔ ∃ l ∈ p.flow.links, l.target.endpoint = .output := by
  constructor
  · intro h
    obtain ⟨e, he⟩ := List.exists_mem_of_ne_nil _ h
    obtain ⟨l, hl, hend⟩ := (ht.mem_outputLinks e).mp he
    exact ⟨l, List.mem_of_getElem? hl, hend⟩
  · rintro ⟨l, hl, hend⟩
    obtain ⟨e, he⟩ := List.mem_iff_getElem?.mp hl
    exact List.ne_nil_of_mem ((ht.mem_outputLinks e).mpr ⟨l, he, hend⟩)

theorem silent_iff (ht : p.Tabled) :
    ((!p.outputLinks.isEmpty) = true ∧ (s.delivered p p.outputLinks).isEmpty = true) ↔ Silent p s := by
  rw [Silent, ← delivered_eq_nil_iff ht, ← outputLinks_ne_nil_iff ht, List.isEmpty_iff,
    Bool.not_eq_true', Bool.eq_false_iff, ne_eq, List.isEmpty_iff]

/-- How a run ends, and with which error. -/
inductive Concluded (p : Plan) (s : Progress) : RunStatus → Option RunError → Prop
  | aborted (ha : s.aborted = true) : Concluded p s .aborted s.failure
  | failed (e : RunError) (ha : s.aborted = false) (hf : s.failure = some e) :
      Concluded p s .failed (some e)
  | silent (ha : s.aborted = false) (hf : s.failure = none) (hs : Silent p s) :
      Concluded p s .failed (some (.ofRun .noOutput "no value reached _output"))
  | succeeded (ha : s.aborted = false) (hf : s.failure = none) (hs : ¬ Silent p s) :
      Concluded p s .succeeded none

theorem concluded_report (ht : p.Tabled) (s : Progress) (traceId : String) :
    Concluded p s (s.report p traceId).status (s.report p traceId).error := by
  unfold report
  dsimp only
  split
  · next ha => exact .aborted ha
  · next ha =>
    have ha := Bool.eq_false_iff.mpr ha
    split
    · next e hf => exact .failed e ha hf
    · next hf =>
      split
      · next hs => exact .silent ha hf ((silent_iff ht).mp hs)
      · next hs => exact .succeeded ha hf fun hsilent => hs ((silent_iff ht).mpr hsilent)

namespace Concluded

variable {status : RunStatus} {error : Option RunError}

theorem aborted_iff (h : Concluded p s status error) : status = .aborted ↔ s.aborted = true := by
  cases h with
  | aborted ha => exact ⟨fun _ => ha, fun _ => rfl⟩
  | failed _ ha _ | silent ha _ _ | succeeded ha _ _ =>
    rw [ha]
    exact ⟨fun h => (by cases h), fun h => (by cases h)⟩

theorem succeeded_iff (h : Concluded p s status error) :
    status = .succeeded ↔ s.aborted = false ∧ s.failure = none ∧ ¬ Silent p s := by
  cases h with
  | aborted ha => simp [ha]
  | failed _ ha hf => simp [hf]
  | silent ha hf hs => simp [hs]
  | succeeded ha hf hs => simp [ha, hf, hs]

theorem failed_iff (h : Concluded p s status error) :
    status = .failed ↔ s.aborted = false ∧ (s.failure ≠ none ∨ Silent p s) := by
  cases h with
  | aborted ha => simp [ha]
  | failed _ ha hf => simp [ha, hf]
  | silent ha hf hs => simp [ha, hs]
  | succeeded ha hf hs => simp [hf, hs]

theorem error_of_failure (h : Concluded p s status error) (hf : s.failure ≠ none) : error = s.failure := by
  cases h with
  | aborted _ => rfl
  | failed _ _ he => exact he.symm
  | silent _ hn _ | succeeded _ hn _ => exact absurd hn hf

/-- The error of a run that fails without a failure is that no value reached its outputs. -/
theorem error_of_silent (h : Concluded p s status error) (ha : s.aborted = false) (hf : s.failure = none)
    (hs : Silent p s) : error = some (.ofRun .noOutput "no value reached _output") := by
  cases h with
  | aborted ha' => cases ha.symm.trans ha'
  | failed _ _ he => cases hf.symm.trans he
  | silent _ _ _ => rfl
  | succeeded _ _ hs' => exact absurd hs hs'

/-- A run that is aborted has an error, so exactly the runs that succeed have none. -/
theorem error_eq_none_iff (h : Concluded p s status error) (ha : s.aborted = true → s.failure.isSome = true) :
    error = none ↔ status = .succeeded := by
  cases h with
  | aborted hs =>
    have hne := Option.isSome_iff_ne_none.mp (ha hs)
    exact ⟨fun h => absurd h hne, fun h => (by cases h)⟩
  | failed _ _ _ | silent _ _ _ => exact ⟨fun h => (by cases h), fun h => (by cases h)⟩
  | succeeded _ _ _ => exact ⟨fun _ => rfl, fun _ => rfl⟩

end Concluded

theorem status_ne_succeeded (ht : p.Tabled) (h : s.failure ≠ none) (traceId : String) :
    (s.report p traceId).status ≠ .succeeded :=
  fun hs => h ((concluded_report ht s traceId).succeeded_iff.mp hs).2.1

theorem aborted_bindInputs (s : Progress) (ctx : Context) (inputs : Inputs) :
    (s.bindInputs p ctx inputs).aborted = s.aborted := by
  unfold bindInputs
  refine List.foldlRecOn (motive := fun t : Progress => t.aborted = s.aborted) p.inputLinks _ rfl
    fun t ht e _ => ?_
  unfold bindInput
  split
  · exact ht
  · split
    · rw [settle_aborted, ht]
    · rw [settle_aborted]
      exact ht

/-- The outputs of a run are those of the nodes that are recorded to have succeeded, and have passed the
checks of their nodes. -/
structure Recorded (p : Plan) (s : Progress) : Prop where
  recorded : ∀ id, (∃ v, s.outputs.get? id = some v) ↔
    ∃ q ∈ s.trace, q.nodeId = id ∧ q.status = .succeeded
  fits : ∀ id v, s.outputs.get? id = some v →
    ∃ i n, p.flow.nodes[i]? = some (id, n) ∧ p.validate i n v = .ok ()

namespace Recorded

theorem concat (h : s.Recorded p) {r : Record} (hr : r.status ≠ .succeeded) (ho : t.outputs = s.outputs)
    (htrace : t.trace = s.trace ++ [r]) : t.Recorded p := by
  refine ⟨fun id => ?_, fun id v => ho ▸ h.fits id v⟩
  rw [ho, htrace, h.recorded id]
  refine exists_congr fun q => ?_
  rw [List.mem_append, List.mem_singleton]
  constructor
  · exact fun hq => ⟨.inl hq.1, hq.2⟩
  · rintro ⟨hq | rfl, hid, hs⟩
    · exact ⟨hq, hid, hs⟩
    · exact absurd hs hr

theorem congr (h : s.Recorded p) (ho : t.outputs = s.outputs) (htrace : t.trace = s.trace) :
    t.Recorded p :=
  ⟨fun id => by rw [ho, htrace, h.recorded id], fun id v => ho ▸ h.fits id v⟩

theorem bindInputs (ctx : Context) (inputs : Inputs) :
    ((Progress.start p).bindInputs p ctx inputs).Recorded p := by
  have hstart : (Progress.start p).Recorded p :=
    ⟨fun id => ⟨fun ⟨_, h⟩ => (by cases h), fun ⟨_, h, _⟩ => absurd h List.not_mem_nil⟩, fun _ _ h => by cases h⟩
  unfold Progress.bindInputs
  refine List.foldlRecOn p.inputLinks _ hstart fun s hs e _ => ?_
  unfold bindInput
  split
  · exact hs
  · split
    · exact hs.congr settle_outputs settle_trace
    · exact hs.congr settle_outputs settle_trace

theorem dispatch (h : s.Recorded p) (n : Nat) : (s.dispatch p n).1.Recorded p := by
  induction n generalizing s with
  | zero => exact h
  | succ n ih =>
    unfold Progress.dispatch
    split
    · exact h
    · next x i rest _ =>
      have hrest : ({ s with ready := rest } : Progress).Recorded p := h.congr rfl rfl
      dsimp only
      split
      · refine ih (hrest.concat (r := ⟨p.idOf i, .skipped, 0, none, 0, none⟩) (fun h => (by cases h)) ?_ ?_)
        · rw [skip_eq, settleEach_outputs]
        · exact skip_trace i
      · exact ih hrest

theorem round (h : s.Recorded p) : (s.round p).1.Recorded p := by
  unfold Progress.round
  split
  · exact h
  · exact h.dispatch p.size

theorem insert (h : s.Recorded p) {id : String} {n : Node} {i : Nat} {output : Json} {r : Record}
    (hn : p.flow.nodes[i]? = some (id, n)) (hv : p.validate i n output = .ok ()) (hid : r.nodeId = id)
    (hr : r.status = .succeeded) (ho : t.outputs = s.outputs.insert id output)
    (htrace : t.trace = s.trace ++ [r]) : t.Recorded p := by
  refine ⟨fun id' => ?_, fun id' v hget => ?_⟩
  · rw [ho, htrace, Assoc.get?_insert]
    constructor
    · rintro ⟨v, hget⟩
      split at hget
      · next heq => exact ⟨r, List.mem_append_right _ (List.mem_singleton_self r), hid.trans heq, hr⟩
      · obtain ⟨q, hq, hs⟩ := (h.recorded id').mp ⟨v, hget⟩
        exact ⟨q, List.mem_append_left _ hq, hs⟩
    · rintro ⟨q, hq, hqid, hs⟩
      split
      · exact ⟨output, rfl⟩
      · next hne =>
        refine (h.recorded id').mpr ⟨q, (List.mem_append.mp hq).resolve_right fun hq => hne ?_, hqid, hs⟩
        rw [List.mem_singleton.mp hq] at hqid
        exact hid.symm.trans hqid
  · rw [ho, Assoc.get?_insert] at hget
    split at hget
    · next heq =>
      cases hget
      exact ⟨i, n, heq ▸ hn, hv⟩
    · exact h.fits id' v hget

/-- The end of an execution is recorded with its output, when that has passed the check of its node. -/
theorem complete (h : s.Recorded p) (hv : ∀ v, c.outcome = .succeeded v →
      ∃ id n, p.flow.nodes[c.place]? = some (id, n) ∧ p.validate c.place n v = .ok ()) :
    (s.complete p ctx c).Recorded p := by
  unfold Progress.complete
  split
  · exact h
  · next id n hn =>
    dsimp only
    split
    · next output ho =>
      obtain ⟨_, _, hn', hfits⟩ := hv output ho
      cases hn.symm.trans hn'
      split
      · exact h.insert (r := c.record id .succeeded none) hn hfits rfl rfl rfl rfl
      · refine h.insert (r := c.record id .succeeded none) hn hfits rfl rfl ?_ ?_
        · rw [settleAll_outputs]
        · rw [settleAll_trace]
          rfl
    · next err _ =>
      split
      · refine h.concat (r := c.record id .routed (some err)) (fun h => (by cases h)) ?_ ?_
        · rw [settleAll_outputs]
        · rw [settleAll_trace]
          rfl
      · exact h.concat (r := c.record id .failed (some err)) (fun h => (by cases h)) rfl rfl
    · exact h.concat (r := c.record id .cancelled _) (fun h => (by cases h)) rfl rfl

end Recorded

end Workflow.Progress
