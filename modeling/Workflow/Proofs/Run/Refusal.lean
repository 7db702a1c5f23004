import Workflow.Proofs.Run.Binding
import Workflow.Proofs.Run.Scheduling

namespace Workflow

namespace Progress

variable {p : Plan} {s : Progress} {ctx : Context} {inputs : Inputs} {es : List Nat} {e : Nat} {l : Link}
variable {err : RunError} {resolve : Link → Nat → Except RunError (Option Json)}

/-- Of links that are to have results by a rule, one has none, for a reason, and none before it is without. -/
def Breaks (p : Plan) (resolve : Link → Nat → Except RunError (Option Json)) (es : List Nat)
    (err : RunError) : Prop :=
  ∃ (e : Nat) (l : Link), e ∈ es ∧ p.flow.links[e]? = some l ∧ resolve l e = .error err ∧
    ∀ (e' : Nat) (l' : Link), e' ∈ es → e' < e → p.flow.links[e']? = some l' → ∃ v, resolve l' e' = .ok v

/-- The reason is that of a certain link if the ones before it have results. -/
theorem Breaks.eq_of_first {err' : RunError} (h : Breaks p resolve es err') (he : e ∈ es)
    (hl : p.flow.links[e]? = some l) (hr : resolve l e = .error err)
    (hfirst : ∀ (e' : Nat) (l' : Link), e' ∈ es → e' < e → p.flow.links[e']? = some l' →
      ∃ v, resolve l' e' = .ok v) : err' = err := by
  obtain ⟨e', l', he', hl', hr', hbefore⟩ := h
  rcases Nat.lt_trichotomy e' e with hlt | rfl | hlt
  · obtain ⟨v, hv⟩ := hfirst e' l' he' hlt hl'
    cases hv.symm.trans hr'
  · cases hl.symm.trans hl'
    cases hr.symm.trans hr'
    rfl
  · obtain ⟨v, hv⟩ := hbefore e l he hlt hl
    cases hv.symm.trans hr

theorem breaks_settleAll (hlt : ∀ e ∈ es, e < p.flow.links.length) (hsorted : es.Pairwise (· < ·))
    (hf : s.failure = none) (he : e ∈ es) (hl : p.flow.links[e]? = some l) (hr : resolve l e = .error err) :
    ∃ err', (s.settleAll p resolve es).failure = some err' ∧ Breaks p resolve es err' := by
  rcases settleAll_cases s resolve hlt with
    ⟨rs, rfl, hres, _⟩ | ⟨rs, e', rest, l', err', hes, hres, hl', hr', heq⟩
  · obtain ⟨r, hm, rfl⟩ := List.mem_map.mp he
    obtain ⟨l', hl', hv⟩ := hres r hm
    cases hl.symm.trans hl'
    cases hv.symm.trans hr
  · refine ⟨err', by rw [heq, fail, settleEach_failure, hf, Option.none_or], e', l',
      hes ▸ List.mem_append_right _ List.mem_cons_self, hl', hr', fun e'' l'' he'' hlt'' hl'' => ?_⟩
    -- the links after the broken one come later in the document
    have hpair : (rs.map Prod.fst ++ e' :: rest).Pairwise (· < ·) := hes ▸ hsorted
    rcases List.mem_append.mp (hes ▸ he'') with hm | hm
    · obtain ⟨r, hmr, rfl⟩ := List.mem_map.mp hm
      obtain ⟨k, hk, hv⟩ := hres r hmr
      cases hl''.symm.trans hk
      exact ⟨r.2, hv⟩
    rcases List.mem_cons.mp hm with rfl | hm
    · exact absurd hlt'' (Nat.lt_irrefl _)
    · exact absurd hlt'' (Nat.lt_asymm (List.rel_of_pairwise_cons (List.pairwise_append.mp hpair).2.1 hm))

theorem breaks_bindInputs (ht : p.Tabled) (hsorted : p.inputLinks.Pairwise (· < ·)) (he : e ∈ p.inputLinks)
    (hl : p.flow.links[e]? = some l) (hr : bound p ctx inputs l e = .error err) :
    ∃ err', ((start p).bindInputs p ctx inputs).failure = some err' ∧
      Breaks p (bound p ctx inputs) p.inputLinks err' := by
  have henters : ∀ {e l}, e ∈ p.inputLinks → p.flow.links[e]? = some l → Enters p e l := by
    intro e l he hl
    obtain ⟨l', hl', hs⟩ := (ht.mem_inputLinks e).mp he
    cases hl.symm.trans hl'
    exact ⟨hl, hs⟩
  have hne := failure_bindInputs_ne_none ht (henters he hl) (bound_eq_error_iff.mp hr)
  obtain ⟨err', hf⟩ := Option.ne_none_iff_exists'.mp hne
  obtain ⟨e', l', hl', hh, hbefore⟩ := bars_of_failure ht hsorted hf
  refine ⟨err', hf, e', l', (ht.mem_inputLinks e').mpr ⟨l', hl'⟩, hl'.1, bound_eq_error_iff.mpr hh,
    fun e'' l'' he'' hlt hl'' => ?_⟩
  cases hv : bound p ctx inputs l'' e'' with
  | ok v => exact ⟨v, rfl⟩
  | error err'' => exact absurd (bound_eq_error_iff.mp hv) (hbefore e'' l'' err'' hlt (henters he'' hl''))

end Progress

namespace Coordination

open Progress

variable {p : Plan} {ctx : Context} {inputs : Inputs} {ms : List Move} {m : Move} {c c' : Coordination}
variable {es : List Nat} {e i : Nat} {id : String} {n : Node} {l : Link} {err : RunError}
variable {resolve : Link → Nat → Except RunError (Option Json)}

/-- A node is neither under way nor has it ended. -/
def Outside (i : Nat) (ms : List Move) (c : Coordination) : Prop :=
  i ∉ c.running.map Prod.fst ∧ i ∉ ended ms

theorem Step.placed?_eq_none (h : Step p ctx c m c') (hs : c.progress.isStopping = true) :
    m.placed? = none := by
  cases h with
  | start hs' _ _ | pass hs' _ _ => cases hs'.symm.trans hs
  | join _ _ | abort _ _ => rfl

theorem Step.failure_eq (h : Step p ctx c m c') (hf : c.progress.failure ≠ none) :
    c'.progress.failure = c.progress.failure := by
  cases h with
  | start _ _ _ => rfl
  | pass _ _ _ => rw [skip_eq, settleEach_failure]
  | join _ _ => exact complete_failure_of_ne hf
  | abort _ _ => exact fail_failure_of_ne hf _

/-- No node comes under way by a move that takes none of those that are ready. -/
theorem Outside.step (h : Outside i ms c) (hs : Step p ctx c m c') (hm : m.placed? = none) :
    Outside i (ms ++ [m]) c' := by
  obtain ⟨hrunning, hended⟩ := h
  cases hs with
  | start _ _ _ | pass _ _ _ => cases hm
  | @join s running given comp hmem _ =>
    refine ⟨fun hi => hrunning ?_, ?_⟩
    · exact List.map_subset Prod.fst (List.filter_subset_self running) hi
    · rw [ended_concat, List.mem_append, not_or]
      refine ⟨hended, fun hi => hrunning ?_⟩
      rw [List.mem_singleton.mp hi]
      exact List.mem_map_of_mem hmem
  | abort _ _ =>
    rw [Outside, ended_concat]
    exact ⟨hrunning, by simpa [Move.ended?] using hended⟩

/-- A run keeps its failure. -/
theorem failure_of_later (hl : Later p ctx c c') (hf : c.progress.failure ≠ none) :
    c'.progress.failure = c.progress.failure := by
  induction hl with
  | refl => rfl
  | tail _ hs ih =>
    obtain ⟨m, hs⟩ := hs
    exact (hs.failure_eq (ih.symm ▸ hf)).trans ih

/-- A node that is not under way when a run fails never ends in it. -/
theorem Outside.later (h : Outside i ms c) (hr : Reached p ctx inputs ms c) (hf : c.progress.failure ≠ none)
    (hl : Later p ctx c c') : ∃ ms', Reached p ctx inputs ms' c' ∧ Outside i ms' c' := by
  induction hl with
  | refl => exact ⟨ms, hr, h⟩
  | tail hl hs ih =>
    obtain ⟨ms', hr', h'⟩ := ih
    obtain ⟨m, hs⟩ := hs
    have hne := (failure_of_later hl hf).symm ▸ hf
    have hstop := isStopping_iff.mpr (.inr (Option.isSome_iff_ne_none.mpr hne))
    exact ⟨_, hr'.step hs, h'.step hs (hs.placed?_eq_none hstop)⟩

/-- A node that waits for a link is outside. -/
theorem Kept.outside (ht : p.Tabled) (h : Kept p ms c) (he : p.targetOf? e = some i)
    (hp : c.progress.isPending e = true) : Outside i ms c := by
  have hnot : i ∉ c.running.map Prod.fst ++ ended ms := fun hi =>
    Nat.ne_of_gt (pendingInto_pos ht hp he)
      ((h.consistent.counted.mem i).mp (List.mem_append_right _ hi)).2
  exact ⟨fun hi => hnot (List.mem_append_left _ hi), fun hi => hnot (List.mem_append_right _ hi)⟩

/-- The links that are to have results on the way to a state of a run, and the rule for them: those from the
inputs of the run when it opens, and those out of a node when it ends, by its output, or by its error when
its error port is wired. -/
inductive Resolving (p : Plan) (ctx : Context) (inputs : Inputs) : List Move → Coordination → List Nat →
    (Link → Nat → Except RunError (Option Json)) → Prop where
  | opened : Resolving p ctx inputs [] (opened p ctx inputs) p.inputLinks (bound p ctx inputs)
  | succeeded {ms : List Move} {c c' : Coordination} {given : Inputs} {comp : Completion} {id : String}
      {n : Node} {output : Json} (h : Reached p ctx inputs ms c) (hs : Step p ctx c (.join given comp) c')
      (hrun : c.progress.isStopping = false) (hn : p.flow.nodes[comp.place]? = some (id, n))
      (ho : comp.outcome = .succeeded output) :
      Resolving p ctx inputs (ms ++ [.join given comp]) c' (p.outOf comp.place) (outputOn p ctx n output)
  | routed {ms : List Move} {c c' : Coordination} {given : Inputs} {comp : Completion} {id : String}
      {n : Node} {err : RunError} {port : Port} (h : Reached p ctx inputs ms c)
      (hs : Step p ctx c (.join given comp) c') (hrun : c.progress.isStopping = false)
      (hn : p.flow.nodes[comp.place]? = some (id, n)) (ho : comp.outcome = .failed err)
      (hport : n.errorPort = some port) (hwired : Wired p id port.name) :
      Resolving p ctx inputs (ms ++ [.join given comp]) c' (p.outOf comp.place)
        (errorOn p ctx n (err.portValue port.kind))

namespace Resolving

theorem reached (h : Resolving p ctx inputs ms c es resolve) : Reached p ctx inputs ms c := by
  cases h with
  | opened => exact .opened
  | succeeded h hs _ _ _ | routed h hs _ _ _ _ _ => exact h.step hs

/-- A link without a result fails the run. -/
theorem breaks {d : Document} {f : Flow} (hv : Flow.validate d = .ok f) (hp : Plan.ofFlow f = .ok p)
    (h : Resolving p ctx inputs ms c es resolve) (he : e ∈ es) (hl : p.flow.links[e]? = some l)
    (hr : resolve l e = .error err) :
    ∃ err', c.progress.failure = some err' ∧ Breaks p resolve es err' := by
  have ht := Plan.tabled_of_ofFlow hp
  have hty := Plan.typed_of_ofFlow hv hp
  cases h with
  | opened => exact breaks_bindInputs ht (Plan.inputLinks_pairwise hp) he hl hr
  | succeeded h hs hrun hn ho =>
    cases hs with
    | join _ _ =>
      rw [complete_succeeded hn ho hrun]
      exact breaks_settleAll (fun e => outOf_lt ht) (Plan.outOf_pairwise hp _)
        (isStopping_eq_false_iff.mp hrun).2 he hl hr
  | routed h hs hrun hn ho hport hwired =>
    cases hs with
    | join _ _ =>
      rw [complete_routed hn ho ((wiredErrorPort_eq_some_iff ht hty hn).mpr ⟨hport, hwired⟩) hrun]
      exact breaks_settleAll (fun e => outOf_lt ht) (Plan.outOf_pairwise hp _)
        (isStopping_eq_false_iff.mp hrun).2 he hl hr

/-- A node that one of the links leads to is not under way. -/
theorem outside (ht : p.Tabled) (hf : p.flow.Regular) (h : Resolving p ctx inputs ms c es resolve)
    (he : e ∈ es) (hi : p.targetOf? e = some i) : Outside i ms c := by
  cases h with
  | opened => exact ⟨List.not_mem_nil, List.not_mem_nil⟩
  | @succeeded ms c c' given comp _ _ _ h hs _ _ _ | @routed ms c c' given comp _ _ _ _ h hs _ _ _ _ _ =>
    have hk := h.kept ht hf
    have hpending : c.progress.isPending e = true := by
      cases hs with
      | join hm _ =>
        have hnot := hk.consistent.not_ended_of_running (List.mem_map_of_mem hm)
        exact hk.consistent.isPending_of_not_ended ht hf hnot he
    exact (hk.outside ht hi hpending).step hs rfl

end Resolving

/-- The value that comes along a link to port `q` of a node is refused there: it is not of the kind of the
port, or breaks its schema. -/
structure Refused (p : Plan) (ctx : Context) (resolve : Link → Nat → Except RunError (Option Json)) (e : Nat)
    (l : Link) (id : String) (n : Node) (q : Port) (reason : String) : Prop where
  link : p.flow.links[e]? = some l
  node : (id, n) ∈ p.flow.nodes
  port : q ∈ n.inputs
  target : l.target = ⟨.node id, q.name⟩
  value : ∃ v output w u, resolve l e = p.deliver ctx l e v output ∧
    Plan.passes l e (Expr.linkScope l.source.port v output ctx) = .ok true ∧
    Plan.transformed l e (Expr.linkScope l.source.port v output ctx) v = .ok w ∧ w.isNull = false ∧
    l.coercion.apply w = .ok u ∧ q.check (q.schema.bind CompiledSchema.compile?) u = .error reason

theorem Refused.resolve_eq {q : Port} {reason : String} (h : Refused p ctx resolve e l id n q reason)
    (ht : p.Typed) :
    resolve l e = .error ⟨some id, .invocation, 0, s!"{l.describe e}: {reason}"⟩ := by
  obtain ⟨v, output, w, u, hr, hpass, hw, hnull, hu, hcheck⟩ := h.value
  have hstops := ht.stops_of_check h.node h.port h.target hpass hw hnull hu hcheck
  rw [hr, hstops.deliver, Plan.linkError, h.target]
  rfl

/-- What comes of a run in which a value is refused at a port of a node. It fails, for the reason that the
first link without a result has. The node is never recorded, and no link out of it ever has a result. -/
structure Dropped (p : Plan) (ctx : Context) (es : List Nat)
    (resolve : Link → Nat → Except RunError (Option Json)) (e : Nat) (l : Link) (id reason : String)
    (c : Coordination) : Prop where
  failure : ∃ err, c.progress.failure = some err ∧ Breaks p resolve es err
  first : (∀ (e' : Nat) (l' : Link), e' ∈ es → e' < e → p.flow.links[e']? = some l' →
    ∃ v, resolve l' e' = .ok v) →
      c.progress.failure = some ⟨some id, .invocation, 0, s!"{l.describe e}: {reason}"⟩
  unrecorded : ∀ c', Later p ctx c c' → ∀ r ∈ c'.progress.trace, r.nodeId ≠ id
  untold : ∀ c', Later p ctx c c' → ∀ (e' : Nat) (l' : Link), p.flow.links[e']? = some l' →
    l'.source.endpoint = .node id → c'.progress.links[e']? = some .pending
  reported : ∀ c' traceId, Later p ctx c c' →
    (c'.progress.report p traceId).error = c.progress.failure ∧
      (c'.progress.report p traceId).status ≠ .succeeded

/-- In every run of a valid workflow, a value that a port of a node refuses is no error of the node that could
be routed, whether or not its error port is wired: the run fails. -/
theorem dropped_of_refused {d : Document} {f : Flow} (hv : Flow.validate d = .ok f) (hp : Plan.ofFlow f = .ok p)
    (h : Resolving p ctx inputs ms c es resolve) (he : e ∈ es) {q : Port} {reason : String}
    (hr : Refused p ctx resolve e l id n q reason) : Dropped p ctx es resolve e l id reason c := by
  have ht := Plan.tabled_of_ofFlow hp
  have hty := Plan.typed_of_ofFlow hv hp
  have hbreaks := h.breaks hv hp he hr.link (hr.resolve_eq hty)
  have hf := Flow.regular_of_validate hv
  obtain ⟨rfl, _⟩ := Plan.eq_of_ofFlow hp
  obtain ⟨i, hi, hn⟩ := hty.placeAt?_node hr.node
  have htarget : p.targetOf? e = some i := by rw [Plan.targetOf?, hr.link, Option.bind_some, hr.target, hi]
  have hne : c.progress.failure ≠ none := by
    obtain ⟨err, hfail, _⟩ := hbreaks
    simp [hfail]
  have hlater : ∀ c', Later p ctx c c' → ∃ ms', Kept p ms' c' ∧ i ∉ ended ms' := by
    intro c' hl
    obtain ⟨ms', hr', _, hended⟩ := (h.outside ht hf he htarget).later h.reached hne hl
    exact ⟨ms', hr'.kept ht hf, hended⟩
  refine ⟨hbreaks, fun hfirst => ?_, fun c' hl r hr' hid => ?_, fun c' hl e' l' hl' hs => ?_,
    fun c' traceId hl => ?_⟩
  · obtain ⟨err, hfail, hb⟩ := hbreaks
    rw [hfail, hb.eq_of_first he hr.link (hr.resolve_eq hty) hfirst]
  · obtain ⟨ms', hk, hended⟩ := hlater c' hl
    have hlt : i < p.size := (List.getElem?_eq_some_iff.mp hn).1
    exact hended (hk.consistent.ended_of_record hf hr' hlt (by rw [hid, idOf_of_node? hn]))
  · obtain ⟨ms', hk, hended⟩ := hlater c' hl
    exact isPending_iff.mp (hk.consistent.isPending_of_not_ended ht hf hended
      ((mem_outOf_iff ht hty hn).mpr ⟨l', hl', hs⟩))
  · have hfail := failure_of_later hl hne
    have hne' : c'.progress.failure ≠ none := hfail.symm ▸ hne
    rw [← hfail]
    exact ⟨(concluded_report ht c'.progress traceId).error_of_failure hne',
      status_ne_succeeded ht hne' traceId⟩

def sayer : Node where
  inputs := []
  outputs := [⟨"text", .string, false, none⟩]
  errorPort := none
  transform := .code ""
  policy := {}
  state := none

/-- A port for texts of at least five characters. -/
def longText : Port := ⟨"text", .string, false, some (.obj [("minLength", .int 5)])⟩

def reader : Node where
  inputs := [longText]
  outputs := []
  errorPort := some ⟨"error", .object, false, none⟩
  transform := .code ""
  policy := {}
  state := none

/-- What is said is read, and an error of the reader is an output of the run. -/
def reading : Document where
  version := "1.0"
  metadata := []
  requires := []
  nodes := [("say", sayer), ("read", reader)]
  links := [⟨"say.text", "read.text", none, none⟩, ⟨"read.error", "_output.problem", none, none⟩]
  deployment := none

def textLink : Link := ⟨⟨.node "say", "text"⟩, ⟨.node "read", "text"⟩, none, none, .identity⟩

def problemLink : Link := ⟨⟨.node "read", "error"⟩, ⟨.output, "problem"⟩, none, none, .identity⟩

def readingFlow : Flow where
  version := "1.0"
  metadata := []
  requires := []
  nodes := reading.nodes
  links := [textLink, problemLink]
  deployment := none

def readingPlan : Plan where
  flow := readingFlow
  layerOf := [0, 1]
  incoming := [[], [0]]
  outgoing := [[0], [1]]
  inputLinks := []
  outputLinks := [1]
  schemas := [((1, "text"), ⟨.obj [("minLength", .int 5)], .rules [.atLeast .characters 5]⟩)]

set_option maxRecDepth 10000 in
theorem validate_reading : Flow.validate reading = .ok readingFlow := by with_unfolding_all rfl

theorem ofFlow_reading : Plan.ofFlow readingFlow = .ok readingPlan := by with_unfolding_all rfl

def spoken (s : String) : Completion := ⟨0, .succeeded (.str s), 1, none, 0⟩

/-- The run once `hi` has been said. -/
def readingAfter : Coordination :=
  ⟨({ Progress.start readingPlan with ready := [] } : Progress).complete readingPlan listingContext
    (spoken "hi"), []⟩

theorem resolving_reading : ∃ ms, Resolving readingPlan listingContext [] ms readingAfter [0]
    (outputOn readingPlan listingContext sayer (.str "hi")) := by
  have hstarted : Reached readingPlan listingContext [] [.start 0 []]
      ⟨{ Progress.start readingPlan with ready := [] }, [(0, [])]⟩ :=
    Reached.opened.step (@Step.start _ _ _ _ (0, 0) [] [] rfl rfl (by rfl))
  have hended : Step readingPlan listingContext ⟨{ Progress.start readingPlan with ready := [] }, [(0, [])]⟩
      (.join [] (spoken "hi")) readingAfter :=
    Step.join List.mem_cons_self fun h => by cases h
  exact ⟨_, .succeeded hstarted hended rfl rfl rfl⟩

set_option maxRecDepth 10000 in
theorem refused_reading : Refused readingPlan listingContext
    (outputOn readingPlan listingContext sayer (.str "hi")) 0 textLink "read" reader longText
    "port 'text': \"hi\" is shorter than 5 characters" where
  link := rfl
  node := List.mem_cons_of_mem _ List.mem_cons_self
  port := List.mem_cons_self
  target := rfl
  value := ⟨.str "hi", .str "hi", .str "hi", .str "hi", rfl, rfl, rfl, rfl, rfl, by with_unfolding_all rfl⟩

/-- What is too short to be read fails the run. -/
theorem dropped_reading : readingAfter.progress.failure = some ⟨some "read", .invocation, 0,
    "edge 0 (say.text -> read.text): port 'text': \"hi\" is shorter than 5 characters"⟩ ∧
    ∀ c, Later readingPlan listingContext readingAfter c → ∀ r ∈ c.progress.trace, r.nodeId ≠ "read" := by
  obtain ⟨ms, h⟩ := resolving_reading
  have hdropped := dropped_of_refused validate_reading ofFlow_reading h List.mem_cons_self refused_reading
  refine ⟨?_, hdropped.unrecorded⟩
  rw [hdropped.first fun e l _ hlt _ => absurd hlt (Nat.not_lt_zero e)]
  rfl

/-- A value that a port of a node with a wired error port refuses is an error of the node, which is routed, and
does not fail the run. -/
def RoutesRefused (p : Plan) (ctx : Context) (inputs : Inputs) : Prop :=
  ∀ ms c es resolve e l id n q reason port, Resolving p ctx inputs ms c es resolve → e ∈ es →
    Refused p ctx resolve e l id n q reason → n.errorPort = some port → Wired p id port.name →
    ∃ c', Later p ctx c c' ∧ c'.progress.failure = none ∧
      (∃ r ∈ c'.progress.trace, r.nodeId = id ∧ r.status = .routed) ∧
      ∃ (e' : Nat) (l' : Link) (v : Json), p.flow.links[e']? = some l' ∧
        l'.source = ⟨.node id, port.name⟩ ∧ c'.progress.links[e']? = some (.delivered v)

/-- The reader is not told of what is too short, although its error port is wired. -/
theorem exists_not_routesRefused : Flow.validate reading = .ok readingFlow ∧
    Plan.ofFlow readingFlow = .ok readingPlan ∧ ¬ RoutesRefused readingPlan listingContext [] := by
  refine ⟨validate_reading, ofFlow_reading, fun hroutes => ?_⟩
  obtain ⟨ms, h⟩ := resolving_reading
  have hwired : Wired readingPlan "read" "error" := ⟨1, problemLink, rfl, rfl⟩
  obtain ⟨c, hl, hf, _⟩ := hroutes _ _ _ _ _ _ _ _ _ _ _ h List.mem_cons_self refused_reading rfl hwired
  have hne : readingAfter.progress.failure ≠ none := fun hnone => by cases hnone
  exact hne ((failure_of_later hl hne).symm.trans hf)

end Coordination

end Workflow
