import Workflow.Proofs.Run.Coordination

namespace Workflow

/-- What comes of the execution of a node with its inputs, and after how many attempts. -/
abbrev Answer := Nat → Inputs → Except RunError Json × Nat

def Outcome.ofExcept : Except RunError Json → Outcome
  | .ok v => .succeeded v
  | .error e => .failed e

theorem Outcome.ofExcept_ne_cancelled (result : Except RunError Json) :
    Outcome.ofExcept result ≠ .cancelled := by
  cases result <;> exact fun h => by cases h

def Completion.Answers (answer : Answer) (given : Inputs) (c : Completion) : Prop :=
  c.outcome = .ofExcept (answer c.place given).1 ∧ c.attempts = (answer c.place given).2

/-- Executions end as they have to, but for those that are cancelled; the run is not aborted. -/
def Move.Obeys (answer : Answer) : Move → Prop
  | start _ _ => True
  | pass _ => True
  | join given c => c.outcome = .cancelled ∨ c.Answers answer given
  | abort _ => False

/-- What a record tells, but for the time. -/
def Record.key (r : Record) : String × NodeStatus × Nat × Option RunError :=
  (r.nodeId, r.status, r.attempts, r.error)

/-- What a node comes to: what stands in its record, its output, and what it gives to the links out
of it. -/
structure Conclusion where
  status : NodeStatus
  attempts : Nat
  error : Option RunError
  output : Option Json
  share : Link → Nat → Except RunError (Option Json)

/-- The outputs of nodes with that of a node that has an id. -/
def Conclusion.note (v : Conclusion) (id : String) (outputs : Assoc Json) : Assoc Json :=
  match v.output with
  | some output => outputs.insert id output
  | none => outputs

namespace Progress

variable {p : Plan} {s t u : Progress} {ctx : Context} {answer : Answer} {i e : Nat}

/-- What a node comes to when its execution has a result, after some attempts. -/
def concluded (p : Plan) (ctx : Context) (i : Nat) (n : Node) : Except RunError Json × Nat → Conclusion
  | (.ok output, k) => ⟨.succeeded, k, none, some output, outputOn p ctx n output⟩
  | (.error err, k) =>
    match wiredErrorPort p i n with
    | some port => ⟨.routed, k, some err, none, errorOn p ctx n (err.portValue port.kind)⟩
    | none => ⟨.failed, k, some err, none, fun _ _ => .ok none⟩

/-- What a node comes to with its inputs, or without. -/
def conclusion (p : Plan) (ctx : Context) (answer : Answer) (i : Nat) (n : Node) :
    Option Inputs → Conclusion
  | none => ⟨.skipped, 0, none, none, fun _ _ => .ok none⟩
  | some given => concluded p ctx i n (answer i given)

/-- A node ends as a conclusion has it: its record and its output are added, and the links out of it get
what it gives. -/
def Concludes (p : Plan) (s : Progress) (i : Nat) (id : String) (v : Conclusion) (t : Progress) : Prop :=
  ∃ r : Record, r.key = (id, v.status, v.attempts, v.error) ∧
    t = ({ s with outputs := v.note id s.outputs, trace := s.trace ++ [r] } :
      Progress).settleAll p v.share (p.outOf i)

theorem settleAll_none {es : List Nat} (hes : ∀ e ∈ es, e < p.flow.links.length) :
    s.settleAll p (fun _ _ => .ok none) es = s.settleEach p (es.map (fun e => (e, none))) := by
  induction es generalizing s with
  | nil => rfl
  | cons e es ih =>
    have hl := List.getElem?_eq_getElem (hes e List.mem_cons_self)
    rw [settleAll, hl, List.map_cons, settleEach_cons]
    exact ih fun e he => hes e (List.mem_cons_of_mem _ he)

variable {id : String} {n : Node} {given : Inputs} {c : Completion}

theorem concludes_skip (ht : p.Tabled) (hn : p.flow.nodes[i]? = some (id, n)) :
    Concludes p s i id (conclusion p ctx answer i n none) (s.skip p i) := by
  refine ⟨⟨id, .skipped, 0, none, 0, none⟩, rfl, ?_⟩
  rw [skip_eq, idOf_of_node? hn]
  exact (settleAll_none fun e => outOf_lt ht).symm

theorem concluded_routed {port : Port} (hw : wiredErrorPort p i n = some port) (err : RunError)
    (k : Nat) : concluded p ctx i n (.error err, k) =
      ⟨.routed, k, some err, none, errorOn p ctx n (err.portValue port.kind)⟩ := by
  simp only [concluded, hw]

theorem concluded_failed (hw : wiredErrorPort p i n = none) (err : RunError) (k : Nat) :
    concluded p ctx i n (.error err, k) = ⟨.failed, k, some err, none, fun _ _ => .ok none⟩ := by
  simp only [concluded, hw]

theorem concludes_complete (hn : p.flow.nodes[c.place]? = some (id, n)) (hs : s.isStopping = false)
    (hc : c.Answers answer given)
    (hv : (conclusion p ctx answer c.place n (some given)).status ≠ .failed) :
    Concludes p s c.place id (conclusion p ctx answer c.place n (some given)) (s.complete p ctx c) := by
  obtain ⟨ho, hk⟩ := hc
  rw [conclusion] at hv ⊢
  generalize answer c.place given = a at ho hk hv ⊢
  rcases a with ⟨err | output, k⟩
  · cases hw : wiredErrorPort p c.place n with
    | none =>
      rw [concluded_failed hw] at hv
      exact absurd rfl hv
    | some port =>
      rw [concluded_routed hw, complete_routed hn ho hw hs]
      exact ⟨_, by rw [Record.key, Completion.record, hk], rfl⟩
  · rw [complete_succeeded hn ho hs]
    exact ⟨_, by rw [Record.key, Completion.record, hk]; rfl, rfl⟩

theorem complete_fails (hn : p.flow.nodes[c.place]? = some (id, n)) (hc : c.Answers answer given)
    (hv : (conclusion p ctx answer c.place n (some given)).status = .failed) :
    (s.complete p ctx c).failure ≠ none := by
  obtain ⟨ho, _⟩ := hc
  rw [conclusion] at hv
  generalize answer c.place given = a at ho hv
  rcases a with ⟨err | output, k⟩
  · cases hw : wiredErrorPort p c.place n with
    | none =>
      rw [complete_failed hn ho (.inl hw)]
      exact fail_failure_ne_none err
    | some port =>
      rw [concluded_routed hw] at hv
      cases hv
  · cases hv

/-- A link has the result that a rule gives it. -/
def Shares (p : Plan) (resolve : Link → Nat → Except RunError (Option Json)) (s : Progress)
    (e : Nat) : Prop :=
  ∃ l v, p.flow.links[e]? = some l ∧ resolve l e = .ok v ∧ s.links[e]? = some (stateOf v)

variable {v : Conclusion} {resolve : Link → Nat → Except RunError (Option Json)}

theorem Shares.isPending_eq_false (h : Shares p resolve s e) : s.isPending e = false := by
  obtain ⟨l, v, _, _, hv⟩ := h
  rw [Bool.eq_false_iff]
  intro hp
  rw [isPending_iff, hv] at hp
  exact stateOf_ne_pending v (Option.some.inj hp)

theorem Shares.congr (h : Shares p resolve s e) (he : t.links[e]? = s.links[e]?) :
    Shares p resolve t e := by
  obtain ⟨l, v, hl, hr, hv⟩ := h
  exact ⟨l, v, hl, hr, he.trans hv⟩

theorem shares_of_resolved {rs : List (Nat × Option Json)} (hr : Resolved p resolve rs)
    (hn : (rs.map Prod.fst).Nodup) (hlen : s.links.length = p.flow.links.length)
    (he : e ∈ rs.map Prod.fst) : Shares p resolve (s.settleEach p rs) e := by
  obtain ⟨r, hm, rfl⟩ := List.mem_map.mp he
  obtain ⟨l, hl, hv⟩ := hr r hm
  refine ⟨l, r.2, hl, hv, links_settleEach_of_mem hn hm ?_⟩
  rw [hlen]
  exact (List.getElem?_eq_some_iff.mp hl).1

/-- The results that two rules give a link are the same if the rules are. -/
theorem Shares.links_eq (h : Shares p resolve s e) (h' : Shares p resolve t e) :
    t.links[e]? = s.links[e]? := by
  obtain ⟨l, v, hl, hr, hv⟩ := h
  obtain ⟨l', v', hl', hr', hv'⟩ := h'
  cases hl.symm.trans hl'
  cases hr.symm.trans hr'
  exact hv'.trans hv.symm

namespace Concludes

theorem shares (ht : p.Tabled) (hlen : s.links.length = p.flow.links.length)
    (h : Concludes p s i id v t) (hf : t.failure = none) :
    ∀ e ∈ p.outOf i, Shares p v.share t e := by
  obtain ⟨r, _, rfl⟩ := h
  rcases settleAll_cases { s with outputs := v.note id s.outputs, trace := s.trace ++ [r] } v.share
      (fun e => outOf_lt ht (i := i)) with
    ⟨rs, hrs, hres, heq⟩ | ⟨rs, e, rest, l, err, _, _, _, _, heq⟩
  · rw [heq]
    intro e he
    exact shares_of_resolved hres (hrs ▸ ht.outOf_nodup i) hlen (hrs ▸ he)
  · rw [heq] at hf
    exact absurd hf (fail_failure_ne_none err)

theorem failure_eq (ht : p.Tabled) (h : Concludes p s i id v t)
    (hu : ∀ e ∈ p.outOf i, Shares p v.share u e) : t.failure = s.failure := by
  obtain ⟨r, _, rfl⟩ := h
  rcases settleAll_cases { s with outputs := v.note id s.outputs, trace := s.trace ++ [r] } v.share
      (fun e => outOf_lt ht (i := i)) with
    ⟨rs, _, _, heq⟩ | ⟨rs, e, rest, l, err, hes, _, hl, herr, _⟩
  · rw [heq, settleEach_failure]
  · obtain ⟨l', w, hl', hw, _⟩ := hu e (hes ▸ by simp)
    cases hl.symm.trans hl'
    cases herr.symm.trans hw

theorem outputs_eq (h : Concludes p s i id v t) : t.outputs = v.note id s.outputs := by
  obtain ⟨r, _, rfl⟩ := h
  rw [settleAll_outputs]

theorem keys_eq (h : Concludes p s i id v t) :
    t.trace.map Record.key = s.trace.map Record.key ++ [(id, v.status, v.attempts, v.error)] := by
  obtain ⟨r, hr, rfl⟩ := h
  rw [settleAll_trace, List.map_append, List.map_singleton, hr]

end Concludes

end Progress

end Workflow
