import Workflow.Proofs.Run.Sharing

namespace Workflow

def NodeStatus.Settles (status : NodeStatus) : Prop :=
  status = .succeeded ∨ status = .routed ∨ status = .skipped

/-- A node that failed for good or was cancelled gives its links no results. -/
theorem NodeStatus.Settles.not_failed {status : NodeStatus} (h : status.Settles) :
    ¬ (status = .failed ∨ status = .cancelled) := by
  rcases h with rfl | rfl | rfl <;> simp

def Completion.record (c : Completion) (id : String) (status : NodeStatus) (e : Option RunError) :
    Record := ⟨id, status, c.attempts, c.startedAt, c.durationMs, e⟩

namespace Progress

variable {p : Plan} {s t : Progress} {ctx : Context} {c : Completion} {i : Nat} {id : String} {n : Node}

theorem idOf_of_node? (h : p.flow.nodes[i]? = some (id, n)) : p.idOf i = id := by
  rw [Plan.idOf, List.getD_eq_getElem?_getD, Flow.ids, List.getElem?_map, h]
  rfl

theorem isStopping_iff : s.isStopping = true ↔ s.aborted = true ∨ s.failure.isSome = true := by
  rw [isStopping, Bool.or_eq_true]

theorem isStopping_eq_false_iff : s.isStopping = false ↔ s.aborted = false ∧ s.failure = none := by
  rw [isStopping, Bool.or_eq_false_iff, Option.isSome_eq_false_iff, Option.isNone_iff_eq_none]

theorem complete_succeeded {output : Json} (hn : p.flow.nodes[c.place]? = some (id, n))
    (ho : c.outcome = .succeeded output) (hs : s.isStopping = false) :
    s.complete p ctx c = ({ s with
      outputs := s.outputs.insert id output
      trace := s.trace ++ [c.record id .succeeded none] } : Progress).settleAll p
        (outputOn p ctx n output) (p.outOf c.place) := by
  rw [complete, hn, ho]
  exact if_neg (by simp [isStopping_eq_false_iff.mp hs, isStopping])

theorem complete_late {output : Json} (hn : p.flow.nodes[c.place]? = some (id, n))
    (ho : c.outcome = .succeeded output) (hs : s.isStopping = true) :
    s.complete p ctx c = { s with
      outputs := s.outputs.insert id output
      trace := s.trace ++ [c.record id .succeeded none] } := by
  rw [complete, hn, ho]
  exact if_pos hs

theorem complete_routed {err : RunError} {port : Port} (hn : p.flow.nodes[c.place]? = some (id, n))
    (ho : c.outcome = .failed err) (hw : wiredErrorPort p c.place n = some port)
    (hs : s.isStopping = false) :
    s.complete p ctx c = ({ s with trace := s.trace ++ [c.record id .routed (some err)] } :
      Progress).settleAll p (errorOn p ctx n (err.portValue port.kind)) (p.outOf c.place) := by
  rw [complete, hn, ho]
  simp only [hw, hs]
  rfl

theorem complete_failed {err : RunError} (hn : p.flow.nodes[c.place]? = some (id, n))
    (ho : c.outcome = .failed err)
    (hw : wiredErrorPort p c.place n = none ∨ s.isStopping = true) :
    s.complete p ctx c =
      ({ s with trace := s.trace ++ [c.record id .failed (some err)] } : Progress).fail err := by
  rw [complete, hn, ho]
  rcases hw with hw | hs
  · simp only [hw]
    rfl
  · cases hw : wiredErrorPort p c.place n with
    | none =>
      simp only [hw]
      rfl
    | some port =>
      simp only [hw, hs]
      rfl

theorem complete_cancelled (hn : p.flow.nodes[c.place]? = some (id, n)) (ho : c.outcome = .cancelled) :
    s.complete p ctx c = { s with trace := s.trace ++
      [c.record id .cancelled (some ⟨some id, .cancelled, c.attempts, "cancelled by run"⟩)] } := by
  rw [complete, hn, ho]
  rfl

/-- Only from outside a run is aborted. -/
theorem complete_aborted : (s.complete p ctx c).aborted = s.aborted := by
  unfold complete
  split
  · rfl
  · dsimp only
    split
    · split
      · rfl
      · rw [settleAll_aborted]
    · split
      · rw [settleAll_aborted]
      · rfl
    · rfl

/-- What the end of a node does to a run: it adds a record, and links out of the node get results. All of
them do unless the run is stopping, or fails now. -/
structure Ends (p : Plan) (s : Progress) (i : Nat) (t : Progress) (r : Record)
    (rs : List (Nat × Option Json)) : Prop where
  nodeId : r.nodeId = p.idOf i
  shape : ∃ outputs f, t =
    { ({ s with outputs := outputs, trace := s.trace ++ [r] } : Progress).settleEach p rs with failure := f }
  links : rs.map Prod.fst <+: p.outOf i
  settles : rs ≠ [] → r.status.Settles
  failure : t.failure = none → s.failure = none
  whole : t.failure = none → s.isStopping = false → r.status.Settles ∧ rs.map Prod.fst = p.outOf i

namespace Ends

variable {r : Record} {rs : List (Nat × Option Json)} {e : Nat}

theorem trace_eq (h : Ends p s i t r rs) : t.trace = s.trace ++ [r] := by
  obtain ⟨outputs, f, rfl⟩ := h.shape
  exact settleEach_trace

theorem aborted_eq (h : Ends p s i t r rs) : t.aborted = s.aborted := by
  obtain ⟨outputs, f, rfl⟩ := h.shape
  simp

theorem links_eq (h : Ends p s i t r rs) (he : e ∉ rs.map Prod.fst) : t.links[e]? = s.links[e]? := by
  obtain ⟨outputs, f, rfl⟩ := h.shape
  exact links_settleEach_of_not_mem he

end Ends

theorem outOf_lt (ht : p.Tabled) {e : Nat} (he : e ∈ p.outOf i) : e < p.flow.links.length := by
  obtain ⟨l, hl, _⟩ := Option.bind_eq_some_iff.mp ((ht.mem_outOf i e).mp he)
  exact (List.getElem?_eq_some_iff.mp hl).1

theorem ends_skip (i : Nat) :
    Ends p s i (s.skip p i) ⟨p.idOf i, .skipped, 0, none, 0, none⟩
      ((p.outOf i).map (fun e => (e, none))) := by
  have hfst : ((p.outOf i).map (fun e => (e, (none : Option Json)))).map Prod.fst = p.outOf i := by
    simp [Function.comp_def]
  rw [skip_eq]
  refine ⟨rfl, ⟨s.outputs, s.failure, ?_⟩, ⟨[], by rw [hfst, List.append_nil]⟩, fun _ => .inr (.inr rfl),
    fun h => ?_, fun _ _ => ⟨.inr (.inr rfl), hfst⟩⟩
  · rw [← settleEach_withFailure]
  · rwa [settleEach_failure] at h

theorem fail_failure_ne_none (e : RunError) : (s.fail e).failure ≠ none := by
  rw [fail]
  cases s.failure <;> simp

/-- A node that shares its value with the links out of it ends so. -/
theorem ends_settleAll (ht : p.Tabled) {outputs : Assoc Json} {r : Record}
    (resolve : Link → Nat → Except RunError (Option Json)) (hid : r.nodeId = p.idOf i)
    (hr : r.status.Settles) :
    ∃ rs, Ends p s i (({ s with outputs := outputs, trace := s.trace ++ [r] } : Progress).settleAll p
      resolve (p.outOf i)) r rs := by
  rcases settleAll_cases { s with outputs := outputs, trace := s.trace ++ [r] } resolve
      (fun e => outOf_lt ht) with
    ⟨rs, hrs, _, heq⟩ | ⟨rs, e, rest, _, err, hes, _, _, _, heq⟩
  · refine ⟨rs, hid, ⟨outputs, s.failure, ?_⟩, hrs ▸ List.prefix_rfl, fun _ => hr, fun h => ?_,
      fun _ _ => ⟨hr, hrs⟩⟩
    · rw [heq, ← settleEach_withFailure]
    · rwa [heq, settleEach_failure] at h
  · have hne := fail_failure_ne_none (s := ({ s with outputs := outputs, trace := s.trace ++ [r] } :
      Progress).settleEach p rs) err
    rw [← heq] at hne
    refine ⟨rs, hid, ⟨outputs, s.failure.or (some err), ?_⟩, hes ▸ List.prefix_append _ _, fun _ => hr,
      fun h => absurd h hne, fun h => absurd h hne⟩
    rw [heq, fail, settleEach_failure]

/-- A node whose end gives nothing to links stops the run, or ends while the run is stopping. -/
theorem ends_without {outputs : Assoc Json} {f : Option RunError} {r : Record}
    (hid : r.nodeId = p.idOf i) (hf : f = none → s.failure = none ∧ s.isStopping = true) :
    Ends p s i { s with outputs := outputs, trace := s.trace ++ [r], failure := f } r [] := by
  refine ⟨hid, ⟨outputs, f, rfl⟩, List.nil_prefix, fun h => absurd rfl h, fun h => (hf h).1,
    fun h hs => ?_⟩
  cases hs.symm.trans (hf h).2

/-- The end of an execution is the end of its node. A node that was cancelled ends so only while the
run is stopping. -/
theorem ends_complete (ht : p.Tabled) (hn : p.flow.nodes[c.place]? = some (id, n))
    (hc : c.outcome = .cancelled → s.isStopping = true) :
    ∃ r rs, Ends p s c.place (s.complete p ctx c) r rs := by
  have hid := (idOf_of_node? hn).symm
  cases ho : c.outcome with
  | succeeded output =>
    cases hs : s.isStopping with
    | false =>
      rw [complete_succeeded hn ho hs]
      exact ⟨_, ends_settleAll ht _ hid (.inl rfl)⟩
    | true =>
      rw [complete_late hn ho hs]
      exact ⟨_, [], ends_without hid fun hf => ⟨hf, hs⟩⟩
  | failed err =>
    by_cases hw : ∃ port, wiredErrorPort p c.place n = some port ∧ s.isStopping = false
    · obtain ⟨port, hw, hs⟩ := hw
      rw [complete_routed hn ho hw hs]
      exact ⟨_, ends_settleAll ht _ hid (.inr (.inl rfl))⟩
    · have hw' : wiredErrorPort p c.place n = none ∨ s.isStopping = true := by
        cases hp : wiredErrorPort p c.place n with
        | none => exact .inl rfl
        | some port => exact .inr (by simpa [hp] using hw)
      rw [complete_failed hn ho hw']
      exact ⟨_, [], ends_without hid fun hf => absurd hf (fail_failure_ne_none err)⟩
  | cancelled =>
    rw [complete_cancelled hn ho]
    exact ⟨_, [], ends_without hid fun hf => ⟨hf, hc ho⟩⟩

end Progress

end Workflow
