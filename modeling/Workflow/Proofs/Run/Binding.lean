import Workflow.Proofs.Run.Routing

namespace Workflow

namespace Plan

variable {p : Plan} {ctx : Context} {l : Link} {e : Nat} {v output : Json} {err : RunError}

/-- Why a value does not get along a link: its condition or its transform has no value, or what comes of it
does not convert, or does not fit the port. -/
inductive Stops (p : Plan) (ctx : Context) (l : Link) (e : Nat) (v output : Json) : RunError → Prop
  | condition {text : String} {reason : ExprError} (hc : l.condition = some text)
      (h : Expr.holds text (Expr.linkScope l.source.port v output ctx) = .error reason) :
      Stops p ctx l e v output (linkError l e .expression s!"condition '{text}': {reason.message}")
  | transform {text : String} {reason : ExprError}
      (hp : passes l e (Expr.linkScope l.source.port v output ctx) = .ok true) (ht : l.transform = some text)
      (h : Expr.evaluate text (Expr.linkScope l.source.port v output ctx) = .error reason) :
      Stops p ctx l e v output (linkError l e .expression s!"transform '{text}': {reason.message}")
  | coercion {w : Json} {reason : CoercionError}
      (hp : passes l e (Expr.linkScope l.source.port v output ctx) = .ok true)
      (hw : transformed l e (Expr.linkScope l.source.port v output ctx) v = .ok w) (hn : w.isNull = false)
      (h : l.coercion.apply w = .error reason) :
      Stops p ctx l e v output (linkError l e .invocation reason.message)
  | port {w u : Json} {i : Nat} {id : String} {n : Node} {q : Port} {reason : String}
      (hp : passes l e (Expr.linkScope l.source.port v output ctx) = .ok true)
      (hw : transformed l e (Expr.linkScope l.source.port v output ctx) v = .ok w) (hn : w.isNull = false)
      (hu : l.coercion.apply w = .ok u) (hi : p.flow.placeAt? l.target.endpoint = some i)
      (hnode : p.flow.nodes[i]? = some (id, n)) (hq : n.inputPort? l.target.port = some q)
      (h : q.check (p.schema? i q.name) u = .error reason) :
      Stops p ctx l e v output (linkError l e .invocation reason)

theorem kind_linkError (l : Link) (place : Nat) (kind : ErrorKind) (reason : String) :
    (linkError l place kind reason).kind = kind := by
  unfold linkError
  dsimp only
  split <;> rfl

theorem Stops.kind (h : Stops p ctx l e v output err) : err.kind = .expression ∨ err.kind = .invocation := by
  cases h with
  | condition | transform => exact .inl (kind_linkError ..)
  | coercion | port => exact .inr (kind_linkError ..)

theorem Stops.deliver (h : Stops p ctx l e v output err) : p.deliver ctx l e v output = .error err := by
  cases h with
  | condition hc h =>
    simp only [Plan.deliver, passes, hc, h]
    rfl
  | transform hp ht h =>
    simp only [Plan.deliver, hp, transformed, ht, h]
    rfl
  | coercion hp hw hn h =>
    simp only [Plan.deliver, hp, hw, bind, Except.bind, hn, h]
    rfl
  | port hp hw hn hu hi hnode hq h =>
    simp only [Plan.deliver, hp, hw, bind, Except.bind, hn, hu, Except.mapError, checkTarget, hi, hnode,
      Option.bind, hq, h]
    rfl

theorem stops_of_deliver (h : p.deliver ctx l e v output = .error err) : Stops p ctx l e v output err := by
  rcases error_of_bind_eq_error h with h | ⟨pass, hp, h⟩
  · unfold passes at h
    split at h
    · cases h
    · next text hc =>
      obtain ⟨reason, hr, rfl⟩ := Except.exists_of_mapError_eq_error h
      exact .condition hc hr
  cases pass with
  | false => cases h
  | true =>
    rcases error_of_bind_eq_error h with h | ⟨w, hw, h⟩
    · unfold transformed at h
      split at h
      · cases h
      · next text ht =>
        obtain ⟨reason, hr, rfl⟩ := Except.exists_of_mapError_eq_error h
        exact .transform hp ht hr
    split at h
    · cases h
    · next hn =>
      have hn : w.isNull = false := Bool.eq_false_iff.mpr hn
      rcases error_of_bind_eq_error h with h | ⟨u, hu, h⟩
      · obtain ⟨reason, hr, rfl⟩ := Except.exists_of_mapError_eq_error h
        exact .coercion hp hw hn hr
      have hu := Except.eq_ok_of_mapError hu
      rcases error_of_bind_eq_error h with h | ⟨_, _, h⟩
      · unfold checkTarget at h
        split at h
        · cases h
        · next i hi =>
          split at h
          · cases h
          · next q hq =>
            obtain ⟨⟨id, n⟩, hnode, hq⟩ := Option.bind_eq_some_iff.mp hq
            obtain ⟨reason, hr, rfl⟩ := Except.exists_of_mapError_eq_error h
            exact .port hp hw hn hu hi hnode hq hr
      · cases h

/-- A value stops where the port that its link leads to does not take it. -/
theorem Typed.stops_of_check (ht : p.Typed) {id : String} {n : Node} {q : Port} {w u : Json} {reason : String}
    (hn : (id, n) ∈ p.flow.nodes) (hq : q ∈ n.inputs) (hl : l.target = ⟨.node id, q.name⟩)
    (hp : passes l e (Expr.linkScope l.source.port v output ctx) = .ok true)
    (hw : transformed l e (Expr.linkScope l.source.port v output ctx) v = .ok w) (hnull : w.isNull = false)
    (hu : l.coercion.apply w = .ok u)
    (h : q.check (q.schema.bind CompiledSchema.compile?) u = .error reason) :
    p.Stops ctx l e v output (linkError l e .invocation reason) := by
  obtain ⟨i, hi, hni⟩ := ht.placeAt?_node hn
  have hport : n.inputPort? l.target.port = some q := by rw [hl, ht.inputPort?_eq hn hq]
  rw [← ht.schema?_eq i id n hni q (List.mem_append_left _ hq)] at h
  exact .port hp hw hnull hu (hl ▸ hi) hni hport h

end Plan

namespace Progress

variable {p : Plan} {s t : Progress} {ctx : Context} {inputs : Inputs} {c : Completion} {e : Nat}
variable {l : Link} {n : Node} {err : RunError} {resolve : Link → Nat → Except RunError (Option Json)}

/-- A link leads from the inputs of a run. -/
def Enters (p : Plan) (e : Nat) (l : Link) : Prop :=
  p.flow.links[e]? = some l ∧ l.source.endpoint = .input

theorem isRequired_iff : isRequired p l = true ↔ ∃ i id n q, p.flow.placeAt? l.target.endpoint = some i ∧
    p.flow.nodes[i]? = some (id, n) ∧ n.inputPort? l.target.port = some q ∧ q.optional = false := by
  unfold isRequired
  constructor
  · intro h
    split at h
    · next id n hnode =>
      obtain ⟨i, hi, hn⟩ := Option.bind_eq_some_iff.mp hnode
      obtain ⟨q, hq, ho⟩ := (Option.any_eq_true _ _).mp h
      exact ⟨i, id, n, q, hi, hn, hq, by simpa using ho⟩
    · cases h
  · rintro ⟨i, id, n, q, hi, hn, hq, ho⟩
    simp only [hi, Option.bind_some, hn, hq, Option.any_some, ho, Bool.not_false]

/-- Why there is no result for a link from the inputs of a run: there is no value for a port that has to have
one, or the value does not get along the link. -/
inductive Hinders (p : Plan) (ctx : Context) (inputs : Inputs) (e : Nat) (l : Link) : RunError → Prop
  | absent {i : Nat} {id : String} {n : Node} {q : Port} (hv : inputs.get? l.source.port = none)
      (hi : p.flow.placeAt? l.target.endpoint = some i) (hn : p.flow.nodes[i]? = some (id, n))
      (hq : n.inputPort? l.target.port = some q) (ho : q.optional = false) :
      Hinders p ctx inputs e l (.ofRun .missingInput s!"required input '{l.source.port}' was not provided")
  | stopped {v : Json} {err : RunError} (hv : inputs.get? l.source.port = some v)
      (h : p.Stops ctx l e v v err) : Hinders p ctx inputs e l err

theorem bound_eq_error_iff : bound p ctx inputs l e = .error err ↔ Hinders p ctx inputs e l err := by
  constructor
  · intro h
    unfold bound at h
    split at h
    · next v hv => exact .stopped hv (Plan.stops_of_deliver h)
    · next hv =>
      split at h
      · next hr =>
        cases h
        obtain ⟨i, id, n, q, hi, hn, hq, ho⟩ := isRequired_iff.mp hr
        exact .absent hv hi hn hq ho
      · cases h
  · intro h
    unfold bound
    cases h with
    | absent hv hi hn hq ho => simp only [hv, isRequired_iff.mpr ⟨_, _, _, _, hi, hn, hq, ho⟩, if_true]
    | stopped hv h =>
      simp only [hv]
      exact h.deliver

/-- Nothing hinders a link from the inputs of a run. -/
def Binds (p : Plan) (ctx : Context) (inputs : Inputs) : Prop :=
  ∀ (e : Nat) (l : Link) (err : RunError), Enters p e l → ¬ Hinders p ctx inputs e l err

/-- A link from the inputs of a run is hindered, for a reason, and none before it is. -/
def Bars (p : Plan) (ctx : Context) (inputs : Inputs) (err : RunError) : Prop :=
  ∃ (e : Nat) (l : Link), Enters p e l ∧ Hinders p ctx inputs e l err ∧
    ∀ (e' : Nat) (l' : Link) (err' : RunError), e' < e → Enters p e' l' → ¬ Hinders p ctx inputs e' l' err'

/-- What hinders a link, if something does. -/
def obstacle? (p : Plan) (ctx : Context) (inputs : Inputs) (e : Nat) : Option RunError :=
  (p.flow.links[e]?).bind fun l =>
    match bound p ctx inputs l e with
    | .ok _ => none
    | .error err => some err

theorem obstacle?_eq_some_iff (hl : p.flow.links[e]? = some l) :
    obstacle? p ctx inputs e = some err ↔ Hinders p ctx inputs e l err := by
  rw [obstacle?, hl, Option.bind_some, ← bound_eq_error_iff]
  cases bound p ctx inputs l e <;> simp

/-- Links go on to get results after one has failed, and the first that fails counts. -/
theorem failure_bindAll (es : List Nat) :
    (es.foldl (bindInput p ctx inputs) s).failure = s.failure.or (es.findSome? (obstacle? p ctx inputs)) := by
  induction es generalizing s with
  | nil => exact Option.or_none.symm
  | cons e es ih =>
    have hstep : (bindInput p ctx inputs s e).failure = s.failure.or (obstacle? p ctx inputs e) := by
      unfold bindInput obstacle?
      cases p.flow.links[e]? with
      | none => exact Option.or_none.symm
      | some l =>
        dsimp only [Option.bind_some]
        cases bound p ctx inputs l e with
        | ok v => exact settle_failure.trans Option.or_none.symm
        | error err => exact settle_failure
    rw [List.foldl_cons, ih, hstep, Option.or_assoc, List.findSome?_cons]
    cases obstacle? p ctx inputs e <;> rfl

theorem failure_bindInputs (p : Plan) (ctx : Context) (inputs : Inputs) :
    ((start p).bindInputs p ctx inputs).failure = p.inputLinks.findSome? (obstacle? p ctx inputs) :=
  (failure_bindAll p.inputLinks).trans Option.none_or

/-- A run that fails as its inputs are bound fails with what hinders the first of the links. -/
theorem bars_of_failure (ht : p.Tabled) (hsorted : p.inputLinks.Pairwise (· < ·))
    (h : ((start p).bindInputs p ctx inputs).failure = some err) : Bars p ctx inputs err := by
  rw [failure_bindInputs] at h
  obtain ⟨before, e, rest, hes, he, hbefore⟩ := List.findSome?_eq_some_iff.mp h
  have hmem : e ∈ p.inputLinks := hes ▸ List.mem_append_right _ List.mem_cons_self
  obtain ⟨l, hl⟩ := (ht.mem_inputLinks e).mp hmem
  refine ⟨e, l, hl, (obstacle?_eq_some_iff hl.1).mp he, fun e' l' err' hlt hl' hh => ?_⟩
  -- in document order, a link that comes before is one of those that were given results before
  have hmem' : e' ∈ before ++ e :: rest := hes ▸ (ht.mem_inputLinks e').mpr ⟨l', hl'⟩
  rcases List.mem_append.mp hmem' with hm | hm
  · cases (hbefore e' hm).symm.trans ((obstacle?_eq_some_iff hl'.1).mpr hh)
  rcases List.mem_cons.mp hm with rfl | hm
  · exact Nat.lt_irrefl _ hlt
  · have hpair : (before ++ e :: rest).Pairwise (· < ·) := hes ▸ hsorted
    exact Nat.lt_asymm hlt (List.rel_of_pairwise_cons (List.pairwise_append.mp hpair).2.1 hm)

theorem failure_bindInputs_ne_none (ht : p.Tabled) (hl : Enters p e l)
    (hh : Hinders p ctx inputs e l err) : ((start p).bindInputs p ctx inputs).failure ≠ none := by
  rw [failure_bindInputs]
  intro h
  have hnone := List.findSome?_eq_none_iff.mp h e ((ht.mem_inputLinks e).mpr ⟨l, hl⟩)
  cases hnone.symm.trans ((obstacle?_eq_some_iff hl.1).mpr hh)

theorem failure_bindInputs_eq_none (ht : p.Tabled) (h : Binds p ctx inputs) :
    ((start p).bindInputs p ctx inputs).failure = none := by
  rw [failure_bindInputs, List.findSome?_eq_none_iff]
  intro e he
  obtain ⟨l, hl⟩ := (ht.mem_inputLinks e).mp he
  refine Option.eq_none_iff_forall_ne_some.mpr fun err ho => ?_
  exact h e l err hl ((obstacle?_eq_some_iff hl.1).mp ho)

theorem outputs_bindInputs (ht : p.Tabled) (ctx : Context) (inputs : Inputs) :
    ((start p).bindInputs p ctx inputs).outputs = [] := by
  obtain ⟨rs, f, _, heq, _⟩ := bindInputs_eq ht ctx inputs
  rw [heq]
  exact settleEach_outputs

theorem trace_bindInputs (ht : p.Tabled) (ctx : Context) (inputs : Inputs) :
    ((start p).bindInputs p ctx inputs).trace = [] := by
  obtain ⟨rs, f, _, heq, _⟩ := bindInputs_eq ht ctx inputs
  rw [heq]
  exact settleEach_trace

theorem shares_bindInputs (ht : p.Tabled) (h : Binds p ctx inputs) (hl : Enters p e l) :
    Shares p (bound p ctx inputs) ((start p).bindInputs p ctx inputs) e := by
  obtain ⟨rs, f, hrs, heq, ⟨_, hres⟩ | ⟨_, e', he', l', err, hl', herr⟩⟩ := bindInputs_eq ht ctx inputs
  · rw [heq]
    have hlen : (start p).links.length = p.flow.links.length := List.length_replicate
    have hmem : e ∈ rs.map Prod.fst := hrs ▸ (ht.mem_inputLinks e).mpr ⟨l, hl⟩
    exact (shares_of_resolved hres (hrs ▸ ht.inputLinks_nodup) hlen hmem).congr rfl
  · obtain ⟨l'', hl'', hs⟩ := (ht.mem_inputLinks e').mp he'
    cases hl'.symm.trans hl''
    exact absurd (bound_eq_error_iff.mp herr) (h e' l' err ⟨hl', hs⟩)

/-- No error that has come up in a run is that an input was not provided. -/
structure Provided (s : Progress) : Prop where
  failure : ∀ err, s.failure = some err → err.kind ≠ .missingInput
  trace : ∀ q ∈ s.trace, ∀ err, q.error = some err → err.kind ≠ .missingInput

namespace Provided

theorem congr (h : s.Provided) (hf : t.failure = s.failure) (htrace : t.trace = s.trace) : t.Provided :=
  ⟨fun err he => h.failure err (hf ▸ he), fun q hq => h.trace q (htrace ▸ hq)⟩

theorem concat (h : s.Provided) {r : Record} (hr : ∀ err, r.error = some err → err.kind ≠ .missingInput)
    (hf : t.failure = s.failure) (htrace : t.trace = s.trace ++ [r]) : t.Provided := by
  refine ⟨fun err he => h.failure err (hf ▸ he), fun q hq => ?_⟩
  rw [htrace] at hq
  rcases List.mem_append.mp hq with hq | hq
  · exact h.trace q hq
  · rw [List.mem_singleton.mp hq]
    exact hr

theorem fail (h : s.Provided) (he : err.kind ≠ .missingInput) : (s.fail err).Provided := by
  refine ⟨fun err' he' => ?_, h.trace⟩
  rcases Option.or_eq_some_iff.mp he' with hf | ⟨_, heq⟩
  · exact h.failure err' hf
  · exact Option.some.inj heq ▸ he

theorem abort (h : s.Provided) (he : err.kind ≠ .missingInput) : (s.abort err).Provided :=
  (h.fail he).congr rfl rfl

theorem settleAll (h : s.Provided)
    (hr : ∀ l e err, resolve l e = .error err → err.kind ≠ .missingInput) (es : List Nat) :
    (s.settleAll p resolve es).Provided := by
  induction es generalizing s with
  | nil => exact h
  | cons e es ih =>
    unfold Progress.settleAll
    split
    · exact ih h
    · split
      · exact ih (h.congr settle_failure settle_trace)
      · next he => exact h.fail (hr _ _ _ he)

theorem dispatch (h : s.Provided) (n : Nat) : (s.dispatch p n).1.Provided := by
  induction n generalizing s with
  | zero => exact h
  | succ n ih =>
    unfold Progress.dispatch
    split
    · exact h
    · next x i rest _ =>
      have hrest : ({ s with ready := rest } : Progress).Provided := h.congr rfl rfl
      dsimp only
      split
      · refine ih (hrest.concat (r := ⟨p.idOf i, .skipped, 0, none, 0, none⟩) (fun _ h => (by cases h)) ?_ ?_)
        · rw [skip_eq, settleEach_failure]
        · exact skip_trace i
      · exact ih hrest

theorem round (h : s.Provided) : (s.round p).1.Provided := by
  unfold Progress.round
  split
  · exact h
  · exact h.dispatch _

/-- The end of an execution brings up its own error, or one of a link. -/
theorem complete (h : s.Provided) (hc : ∀ err, c.outcome = .failed err → err.kind ≠ .missingInput) :
    (s.complete p ctx c).Provided := by
  have hdeliver : ∀ {l e v output err},
      p.deliver ctx l e v output = .error err → err.kind ≠ .missingInput := by
    intro l e v output err herr
    rcases (Plan.stops_of_deliver herr).kind with hk | hk <;> rw [hk] <;> decide
  cases hn : p.flow.nodes[c.place]? with
  | none =>
    unfold Progress.complete
    rw [hn]
    exact h
  | some x =>
    obtain ⟨id, n⟩ := x
    have hnoted : ∀ status error outputs, (∀ err, error = some err → err.kind ≠ .missingInput) →
        ({ s with outputs := outputs, trace := s.trace ++ [c.record id status error] } : Progress).Provided :=
      fun status error outputs he => h.concat (r := c.record id status error) he rfl rfl
    have hnone : ∀ err : RunError, (none : Option RunError) = some err → err.kind ≠ .missingInput :=
      fun _ he => by cases he
    cases ho : c.outcome with
    | succeeded output =>
      cases hs : s.isStopping with
      | true =>
        rw [complete_late hn ho hs]
        exact hnoted _ _ _ hnone
      | false =>
        rw [complete_succeeded hn ho hs]
        refine (hnoted _ _ _ hnone).settleAll (fun l e err he => ?_) _
        unfold outputOn at he
        split at he
        · split at he
          · cases he
          · exact hdeliver he
        · cases he
    | failed err =>
      have herr : ∀ err', some err = some err' → err'.kind ≠ .missingInput := fun err' he =>
        Option.some.inj he ▸ hc err ho
      rcases wiredErrorPort_cases p c.place n s with ⟨port, hw, hs⟩ | hw
      · rw [complete_routed hn ho hw hs]
        refine (hnoted _ _ _ herr).settleAll (fun l e err he => ?_) _
        unfold errorOn at he
        split at he
        · exact hdeliver he
        · cases he
      · rw [complete_failed hn ho hw]
        exact (hnoted _ _ _ herr).fail (hc err ho)
    | cancelled =>
      rw [complete_cancelled hn ho]
      refine hnoted _ _ _ fun err he => ?_
      rw [← Option.some.inj he]
      exact fun h => by cases h

theorem error_report (h : s.Provided) (ht : p.Tabled) {traceId : String}
    (he : (s.report p traceId).error = some err) : err.kind ≠ .missingInput := by
  have hc := concluded_report ht s traceId
  generalize (s.report p traceId).status = status at hc
  rw [he] at hc
  generalize hsome : some err = error at hc
  cases hc with
  | aborted _ => exact h.failure err hsome.symm
  | failed _ _ hf => exact h.failure err (hf.trans hsome.symm)
  | silent _ _ _ =>
    cases hsome
    exact fun hk => by cases hk
  | succeeded _ _ _ => cases hsome

end Provided

end Progress

namespace Coordination

open Progress

variable {p : Plan} {ctx : Context} {inputs : Inputs} {ms : List Move} {m : Move} {c c' : Coordination}

/-- A run that is stopping with no node under way makes no move. -/
theorem not_step_of_idle (hs : c.progress.isStopping = true) (hr : c.running = []) : ¬ Step p ctx c m c' := by
  intro h
  cases h with
  | start h _ _ => cases hs.symm.trans h
  | pass h _ _ => cases hs.symm.trans h
  | join hm _ =>
    cases hr
    cases hm
  | abort hne _ => exact hne hr

/-- A run whose inputs do not bind goes nowhere. -/
theorem Reached.eq_opened (hs : (Coordination.opened p ctx inputs).progress.isStopping = true)
    (h : Reached p ctx inputs ms c) : c = Coordination.opened p ctx inputs := by
  induction h with
  | opened => rfl
  | step _ hstep ih =>
    subst ih
    exact absurd hstep (not_step_of_idle hs rfl)

/-- What the links from the inputs of a run deliver lasts. -/
theorem Reached.shares (ht : p.Tabled) (hf : p.flow.Regular) (hb : Binds p ctx inputs)
    (h : Reached p ctx inputs ms c) {e : Nat} {l : Link} (hl : Enters p e l) :
    Shares p (bound p ctx inputs) c.progress e := by
  induction h with
  | opened => exact shares_bindInputs ht hb hl
  | step h hstep ih =>
    obtain ⟨_, hsettling⟩ := (h.kept ht hf).settling ht hf hstep
    exact ih.congr (hsettling.links_eq ih.isPending_eq_false)

end Coordination

end Workflow
