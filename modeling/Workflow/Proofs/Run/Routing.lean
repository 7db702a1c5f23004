import Mathlib.Logic.Relation
import Workflow.Proofs.Run.Conclusion
import Workflow.Proofs.Run.Reporting

namespace Workflow

namespace Progress

variable {p : Plan} {s t u : Progress} {ctx : Context} {c : Completion} {e i : Nat} {id id' : String}
variable {n : Node} {l : Link}

/-- Some link starts at a port of a node. -/
def Wired (p : Plan) (id port : String) : Prop :=
  ∃ (e : Nat) (l : Link), p.flow.links[e]? = some l ∧ l.source = ⟨.node id, port⟩

/-- A link has the result that it has to have when a value stands at a port: what comes of the value on its
way, or nothing when the link starts at another port. -/
def Tells (p : Plan) (ctx : Context) (port : String) (value : Json) (s : Progress) (e : Nat) (l : Link) :
    Prop :=
  if l.source.port = port then
    ∃ v, p.deliver ctx l e value value = .ok v ∧ s.links[e]? = some (stateOf v)
  else s.links[e]? = some .empty

/-- The links out of a node have the results that they have to have when a value stands at its error port.
Only for a link of that port there may be no result; the first such link fails the run, and from it on the
links out of the node have none. -/
structure Spread (p : Plan) (ctx : Context) (id port : String) (value : Json) (t : Progress) : Prop where
  whole : t.failure = none → ∀ (e : Nat) (l : Link), p.flow.links[e]? = some l →
    l.source.endpoint = .node id → Tells p ctx port value t e l
  broken : ∀ reason, t.failure = some reason → ∃ (e₀ : Nat) (l₀ : Link), p.flow.links[e₀]? = some l₀ ∧
    l₀.source = ⟨.node id, port⟩ ∧ p.deliver ctx l₀ e₀ value value = .error reason ∧
    ∀ (e : Nat) (l : Link), p.flow.links[e]? = some l → l.source.endpoint = .node id →
      if e < e₀ then Tells p ctx port value t e l else t.links[e]? = some .pending

/-- The error of a node goes along the links of its error port, and the links of its output ports deliver
nothing. -/
structure Routed (p : Plan) (ctx : Context) (id : String) (n : Node) (port : Port) (err : RunError)
    (c : Completion) (s t : Progress) : Prop where
  recorded : t.trace = s.trace ++ [c.record id .routed (some err)]
  absent : t.outputs.get? id = none
  apart : ∀ q ∈ n.outputs, q.name ≠ port.name
  spread : Spread p ctx id port.name (err.portValue port.kind) t

/-- The error of a node is that of the run. -/
structure Failed (id : String) (err : RunError) (c : Completion) (s t : Progress) : Prop where
  recorded : t.trace = s.trace ++ [c.record id .failed (some err)]
  absent : t.outputs.get? id = none
  failure : t.failure = some err

/-- What a run has of a node that has ended stays as it is. -/
structure Holds (p : Plan) (id : String) (s t : Progress) : Prop where
  trace : s.trace <+: t.trace
  outputs : t.outputs.get? id = s.outputs.get? id
  links : ∀ (e : Nat) (l : Link), p.flow.links[e]? = some l → l.source.endpoint = .node id →
    t.links[e]? = s.links[e]?
  failure : s.failure ≠ none → t.failure = s.failure

namespace Holds

theorem refl (p : Plan) (id : String) (s : Progress) : Holds p id s s :=
  ⟨List.prefix_rfl, rfl, fun _ _ _ _ => rfl, fun _ => rfl⟩

theorem trans (h : Holds p id s t) (h' : Holds p id t u) : Holds p id s u where
  trace := h.trace.trans h'.trace
  outputs := h'.outputs.trans h.outputs
  links := fun e l hl hs => (h'.links e l hl hs).trans (h.links e l hl hs)
  failure := fun hf => (h'.failure (by rwa [h.failure hf])).trans (h.failure hf)

/-- The end of a node leaves what there is of another. -/
theorem of_ends {r : Record} {rs : List (Nat × Option Json)} (he : Ends p s i t r rs)
    (hout : t.outputs.get? id = s.outputs.get? id) (hf : s.failure ≠ none → t.failure = s.failure)
    (hne : ∀ (e : Nat) (l : Link), p.flow.links[e]? = some l → l.source.endpoint = .node id →
      e ∉ p.outOf i) : Holds p id s t where
  trace := by
    rw [he.trace_eq]
    exact List.prefix_append _ _
  outputs := hout
  links := fun e l hl hs => he.links_eq fun hm => hne e l hl hs (he.links.subset hm)
  failure := hf

end Holds

theorem fail_failure_of_ne (h : s.failure ≠ none) (err : RunError) : (s.fail err).failure = s.failure := by
  obtain ⟨e, he⟩ := Option.ne_none_iff_exists'.mp h
  rw [fail, he]
  rfl

/-- The first failure of a run is the one that counts. -/
theorem complete_failure_of_ne (h : s.failure ≠ none) : (s.complete p ctx c).failure = s.failure := by
  have hs : s.isStopping = true := isStopping_iff.mpr (.inr (Option.isSome_iff_ne_none.mpr h))
  cases hn : p.flow.nodes[c.place]? with
  | none =>
    unfold complete
    rw [hn]
  | some x =>
    obtain ⟨id, n⟩ := x
    cases ho : c.outcome with
    | succeeded output => rw [complete_late hn ho hs]
    | failed err =>
      rw [complete_failed hn ho (.inr hs)]
      exact fail_failure_of_ne h err
    | cancelled => rw [complete_cancelled hn ho]

theorem wiredErrorPort_cases (p : Plan) (i : Nat) (n : Node) (s : Progress) :
    (∃ port, wiredErrorPort p i n = some port ∧ s.isStopping = false) ∨
      wiredErrorPort p i n = none ∨ s.isStopping = true := by
  cases hw : wiredErrorPort p i n with
  | none => exact .inr (.inl rfl)
  | some port =>
    cases hs : s.isStopping with
    | false => exact .inl ⟨port, rfl, rfl⟩
    | true => exact .inr (.inr rfl)

/-- The end of a node sets no output but its own. -/
theorem get?_complete_outputs (hn : p.flow.nodes[c.place]? = some (id', n)) (hne : id' ≠ id) :
    (s.complete p ctx c).outputs.get? id = s.outputs.get? id := by
  cases ho : c.outcome with
  | succeeded output =>
    cases hs : s.isStopping with
    | false => rw [complete_succeeded hn ho hs, settleAll_outputs, Assoc.get?_insert, if_neg hne]
    | true => rw [complete_late hn ho hs, Assoc.get?_insert, if_neg hne]
  | failed err =>
    rcases wiredErrorPort_cases p c.place n s with ⟨port, hw, hs⟩ | hw
    · rw [complete_routed hn ho hw hs, settleAll_outputs]
    · rw [complete_failed hn ho hw]
      rfl
  | cancelled => rw [complete_cancelled hn ho]

theorem wiredErrorPort_eq_some_iff (ht : p.Tabled) (hp : p.Typed)
    (hn : p.flow.nodes[i]? = some (id, n)) {port : Port} :
    wiredErrorPort p i n = some port ↔ n.errorPort = some port ∧ Wired p id port.name := by
  rw [wiredErrorPort, Option.filter_eq_some_iff, List.any_eq_true]
  refine and_congr_right fun _ => ?_
  constructor
  · rintro ⟨e, he, hl⟩
    obtain ⟨l, hl', hs⟩ := (mem_outOf_iff ht hp hn).mp he
    rw [hl', Option.any_some, decide_eq_true_iff] at hl
    exact ⟨e, l, hl', congrArg₂ PortRef.mk hs hl⟩
  · rintro ⟨e, l, hl, hs⟩
    refine ⟨e, (mem_outOf_iff ht hp hn).mpr ⟨l, hl, by rw [hs]⟩, ?_⟩
    rw [hl, Option.any_some, hs]
    exact decide_eq_true rfl

theorem errorOn_eq {port : Port} (h : n.errorPort = some port) (value : Json) (l : Link) (e : Nat) :
    errorOn p ctx n value l e =
      if l.source.port = port.name then p.deliver ctx l e value value else .ok none := by
  by_cases hport : l.source.port = port.name
  · rw [if_pos hport, errorOn, Node.isErrorPort, h, Option.any_some, hport]
    simp
  · rw [if_neg hport, errorOn, Node.isErrorPort, h, Option.any_some, if_neg]
    simpa using Ne.symm hport

theorem tells_of_resolved {port : Port} (h : n.errorPort = some port) {value : Json}
    {rs : List (Nat × Option Json)} (hr : Resolved p (errorOn p ctx n value) rs)
    (hd : (rs.map Prod.fst).Nodup) (hlen : s.links.length = p.flow.links.length)
    (hl : p.flow.links[e]? = some l) (he : e ∈ rs.map Prod.fst) :
    Tells p ctx port.name value (s.settleEach p rs) e l := by
  obtain ⟨l', v, hl', hv, hlinks⟩ := shares_of_resolved hr hd hlen he
  cases hl.symm.trans hl'
  rw [errorOn_eq h] at hv
  unfold Tells
  split at hv
  · next hport =>
    rw [if_pos hport]
    exact ⟨v, hv, hlinks⟩
  · next hport =>
    rw [if_neg hport]
    cases hv
    exact hlinks

/-- An error at a port gives the links out of the node their results in document order, up to the first
for which there is none. -/
theorem spread_settleAll (ht : p.Tabled) (hty : p.Typed) (hsorted : (p.outOf i).Pairwise (· < ·))
    (hn : p.flow.nodes[i]? = some (id, n)) {port : Port} (herr : n.errorPort = some port)
    (hlen : s.links.length = p.flow.links.length) (hf : s.failure = none)
    (hpending : ∀ e ∈ p.outOf i, s.links[e]? = some .pending) (value : Json) :
    Spread p ctx id port.name value (s.settleAll p (errorOn p ctx n value) (p.outOf i)) := by
  have hmem : ∀ {e : Nat} {l : Link}, p.flow.links[e]? = some l → l.source.endpoint = .node id →
      e ∈ p.outOf i := fun hl he => (mem_outOf_iff ht hty hn).mpr ⟨_, hl, he⟩
  rcases settleAll_cases s (errorOn p ctx n value) (fun e => outOf_lt ht (i := i)) with
    ⟨rs, hrs, hres, heq⟩ | ⟨rs, e₀, rest, l₀, err, hes, hres, hl₀, hfail, heq⟩
  · have hd : (rs.map Prod.fst).Nodup := hrs ▸ ht.outOf_nodup i
    rw [heq]
    refine ⟨fun _ e l hl he => ?_, fun reason hr => ?_⟩
    · exact tells_of_resolved herr hres hd hlen hl (hrs ▸ hmem hl he)
    · rw [settleEach_failure, hf] at hr
      cases hr
  · have hall : (rs.map Prod.fst ++ e₀ :: rest).Pairwise (· < ·) := hes ▸ hsorted
    obtain ⟨hfirst, hlast, hbetween⟩ := List.pairwise_append.mp hall
    rw [heq]
    refine ⟨fun hr => absurd hr (fail_failure_ne_none err), fun reason hr => ?_⟩
    rw [fail, settleEach_failure, hf] at hr
    cases hr
    obtain ⟨l, hl, hs₀⟩ := (mem_outOf_iff ht hty hn).mp (hes ▸ List.mem_append_right _ List.mem_cons_self)
    cases hl₀.symm.trans hl
    rw [errorOn_eq herr] at hfail
    split at hfail
    · next hport =>
      refine ⟨e₀, l₀, hl₀, congrArg₂ PortRef.mk hs₀ hport, hfail, fun e l hl he => ?_⟩
      have hme : e ∈ rs.map Prod.fst ++ e₀ :: rest := hes ▸ hmem hl he
      split
      · next hlt =>
        -- before the link that has no result
        refine tells_of_resolved herr hres (hfirst.imp Nat.ne_of_lt) hlen hl ?_
        refine (List.mem_append.mp hme).resolve_right fun hm => ?_
        rcases List.mem_cons.mp hm with rfl | hm
        · exact Nat.lt_irrefl _ hlt
        · exact Nat.lt_asymm hlt (List.rel_of_pairwise_cons hlast hm)
      · next hge =>
        have hnot : e ∉ rs.map Prod.fst := fun hm => hge (hbetween e hm e₀ List.mem_cons_self)
        exact (links_settleEach_of_not_mem hnot).trans (hpending e (hmem hl he))
    · cases hfail

theorem routed_complete (ht : p.Tabled) (hty : p.Typed)
    (hsorted : (p.outOf c.place).Pairwise (· < ·)) (hn : p.flow.nodes[c.place]? = some (id, n))
    (hlen : s.links.length = p.flow.links.length) (hs : s.isStopping = false)
    (hpending : ∀ e ∈ p.outOf c.place, s.links[e]? = some .pending) (hout : s.outputs.get? id = none)
    {err : RunError} (ho : c.outcome = .failed err) {port : Port} (herr : n.errorPort = some port)
    (hw : Wired p id port.name) : Routed p ctx id n port err c s (s.complete p ctx c) := by
  rw [complete_routed hn ho ((wiredErrorPort_eq_some_iff ht hty hn).mpr ⟨herr, hw⟩) hs]
  refine ⟨settleAll_trace, ?_, fun q hq he => ?_, ?_⟩
  · rw [settleAll_outputs]
    exact hout
  · have hnot := isErrorPort_of_output (hty.ports_nodup _ (List.mem_of_getElem? hn)) hq
    rw [Node.isErrorPort, herr, Option.any_some, decide_eq_false_iff_not] at hnot
    exact hnot he.symm
  · refine spread_settleAll ht hty hsorted hn herr ?_ ?_ ?_ _
    · exact hlen
    · exact (isStopping_eq_false_iff.mp hs).2
    · exact hpending

theorem failed_complete (ht : p.Tabled) (hty : p.Typed) (hn : p.flow.nodes[c.place]? = some (id, n))
    (hs : s.isStopping = false) (hout : s.outputs.get? id = none) {err : RunError}
    (ho : c.outcome = .failed err) (hw : ∀ port, n.errorPort = some port → ¬ Wired p id port.name) :
    Failed id err c s (s.complete p ctx c) := by
  have hnone : wiredErrorPort p c.place n = none := by
    refine Option.eq_none_iff_forall_ne_some.mpr fun port hport => ?_
    obtain ⟨herr, hwired⟩ := (wiredErrorPort_eq_some_iff ht hty hn).mp hport
    exact hw port herr hwired
  rw [complete_failed hn ho (.inl hnone)]
  refine ⟨rfl, hout, ?_⟩
  rw [fail, (isStopping_eq_false_iff.mp hs).2]
  rfl

/-- A node that succeeds tells nothing at its error port, whatever its output. -/
theorem outputOn_error {port : Port} (herr : n.errorPort = some port) (output : Json) (l : Link) (e : Nat)
    (hl : l.source.port = port.name) : outputOn p ctx n output l e = .ok none := by
  unfold outputOn
  split
  · rw [Node.isErrorPort, herr, Option.any_some, hl, decide_eq_true rfl, if_pos rfl]
  · rfl

/-- No link of a port delivers a value; each delivers nothing unless the run is stopping. -/
def Muted (p : Plan) (id port : String) (t : Progress) : Prop :=
  ∀ (e : Nat) (l : Link), p.flow.links[e]? = some l → l.source = ⟨.node id, port⟩ →
    t.links[e]? = some .empty ∨ t.isStopping = true ∧ t.links[e]? = some .pending

theorem muted_complete (ht : p.Tabled) (hty : p.Typed) (hn : p.flow.nodes[c.place]? = some (id, n))
    (hlen : s.links.length = p.flow.links.length)
    (hpending : ∀ e ∈ p.outOf c.place, s.links[e]? = some .pending) {output : Json}
    (ho : c.outcome = .succeeded output) {port : Port} (herr : n.errorPort = some port) :
    Muted p id port.name (s.complete p ctx c) := by
  intro e l hl hsource
  have hmem : e ∈ p.outOf c.place := (mem_outOf_iff ht hty hn).mpr ⟨l, hl, by rw [hsource]⟩
  have hport : l.source.port = port.name := by rw [hsource]
  cases hs : s.isStopping with
  | true =>
    rw [complete_late hn ho hs]
    exact .inr ⟨hs, hpending e hmem⟩
  | false =>
    rw [complete_succeeded hn ho hs]
    generalize hu : ({ s with
      outputs := s.outputs.insert id output
      trace := s.trace ++ [c.record id .succeeded none] } : Progress) = u
    have hulen : u.links.length = p.flow.links.length := by rw [← hu, ← hlen]
    have hupending : u.links[e]? = some .pending := by
      rw [← hu]
      exact hpending e hmem
    have empty : ∀ rs, Resolved p (outputOn p ctx n output) rs → (rs.map Prod.fst).Nodup →
        e ∈ rs.map Prod.fst → (u.settleEach p rs).links[e]? = some .empty := by
      intro rs hres hd he
      obtain ⟨l', v, hl', hv, hlinks⟩ := shares_of_resolved hres hd hulen he
      cases hl.symm.trans hl'
      rw [outputOn_error herr output l e hport] at hv
      cases hv
      exact hlinks
    rcases settleAll_cases u (outputOn p ctx n output) (fun e => outOf_lt ht (i := c.place)) with
      ⟨rs, hrs, hres, heq⟩ | ⟨rs, e₀, rest, l₀, err, hes, hres, _, _, heq⟩
    · rw [heq]
      exact .inl (empty rs hres (hrs ▸ ht.outOf_nodup c.place) (hrs ▸ hmem))
    · rw [heq]
      by_cases hm : e ∈ rs.map Prod.fst
      · have hd : (rs.map Prod.fst).Nodup :=
          (hes ▸ ht.outOf_nodup c.place : (rs.map Prod.fst ++ e₀ :: rest).Nodup).of_append_left
        exact .inl (empty rs hres hd hm)
      · refine .inr ⟨?_, (links_settleEach_of_not_mem hm).trans hupending⟩
        exact isStopping_iff.mpr (.inr (Option.isSome_iff_ne_none.mpr (fail_failure_ne_none err)))

end Progress

namespace Coordination

open Progress

variable {p : Plan} {ctx : Context} {inputs given : Inputs} {ms : List Move} {m : Move}
variable {c c' c'' : Coordination} {i : Nat} {id : String} {n : Node}

/-- One state of a run comes after another. -/
abbrev Later (p : Plan) (ctx : Context) : Coordination → Coordination → Prop :=
  Relation.ReflTransGen fun c c' => ∃ m, Step p ctx c m c'

/-- One move leaves what there is of a node that has ended. -/
theorem holds_step (ht : p.Tabled) (hty : p.Typed) (hf : p.flow.Regular) (h : Kept p ms c)
    (hs : Step p ctx c m c') (hn : p.flow.nodes[i]? = some (id, n)) (hi : i ∈ ended ms) :
    Holds p id c.progress c'.progress := by
  have hother : ∀ {j : Nat}, j ≠ i → ∀ (e : Nat) (l : Link), p.flow.links[e]? = some l →
      l.source.endpoint = .node id → e ∉ p.outOf j := by
    intro j hj e l hl he hm
    have hout := (ht.mem_outOf i e).mp ((mem_outOf_iff ht hty hn).mpr ⟨l, hl, he⟩)
    exact hj (Option.some.inj (((ht.mem_outOf j e).mp hm).symm.trans hout))
  cases hs with
  | start _ _ _ => exact ⟨List.prefix_rfl, rfl, fun _ _ _ _ => rfl, fun _ => rfl⟩
  | @pass s running x rest _ hr _ =>
    obtain ⟨hstart, r, rs, hends⟩ := h.ends_pass hr
    have hne : x.2 ≠ i := by
      rintro rfl
      exact hstart.not_ended_of_running (List.mem_append_right _ List.mem_cons_self) hi
    have hpop : Holds p id s { s with ready := rest } :=
      ⟨List.prefix_rfl, rfl, fun _ _ _ _ => rfl, fun _ => rfl⟩
    refine hpop.trans (Holds.of_ends hends ?_ (fun _ => ?_) (hother hne))
    · rw [skip_eq, settleEach_outputs]
    · rw [skip_eq, settleEach_failure]
  | @join s running given c hm hc =>
    obtain ⟨r, rs, hends⟩ := h.ends_join ht ctx hm hc
    have hmr : c.place ∈ running.map Prod.fst := List.mem_map_of_mem hm
    have hne : c.place ≠ i := by
      rintro rfl
      exact h.consistent.not_ended_of_running hmr hi
    obtain ⟨id', n', hn'⟩ := node?_of_lt (h.consistent.lt_of_running hmr)
    have hid : id' ≠ id := by
      rintro rfl
      refine hne (idOf_inj hf (h.consistent.lt_of_running hmr) (h.consistent.lt_of_ended hi) ?_)
      rw [idOf_of_node? hn', idOf_of_node? hn]
    exact Holds.of_ends hends (get?_complete_outputs hn' hid) complete_failure_of_ne (hother hne)
  | abort _ _ => exact ⟨List.prefix_rfl, rfl, fun _ _ _ _ => rfl, fun hne => fail_failure_of_ne hne _⟩

theorem holds_later (ht : p.Tabled) (hty : p.Typed) (hf : p.flow.Regular) (h : Reached p ctx inputs ms c)
    (hn : p.flow.nodes[i]? = some (id, n)) (hi : i ∈ ended ms) (hl : Later p ctx c c') :
    Holds p id c.progress c'.progress := by
  have hreached : ∃ ms', Reached p ctx inputs ms' c' ∧ i ∈ ended ms' ∧ Holds p id c.progress c'.progress := by
    induction hl with
    | refl => exact ⟨ms, h, hi, Holds.refl p id _⟩
    | tail _ hs ih =>
      obtain ⟨ms', hr, hi', hholds⟩ := ih
      obtain ⟨m, hs⟩ := hs
      refine ⟨_, hr.step hs, ?_, hholds.trans (holds_step ht hty hf (hr.kept ht hf) hs hn hi')⟩
      rw [ended_concat]
      exact List.mem_append_left _ hi'
  obtain ⟨_, _, _, hholds⟩ := hreached
  exact hholds

/-- Only nodes that have ended have outputs. -/
theorem Reached.get?_outputs (ht : p.Tabled) (hf : p.flow.Regular) (h : Reached p ctx inputs ms c)
    (hn : p.flow.nodes[i]? = some (id, n)) (hi : i ∉ ended ms) : c.progress.outputs.get? id = none := by
  induction h with
  | opened =>
    obtain ⟨rs, f, _, heq, _⟩ := bindInputs_eq ht ctx inputs
    rw [Coordination.opened, heq]
    dsimp only
    rw [settleEach_outputs]
    rfl
  | @step ms m c c' h hs ih =>
    rw [ended_concat, List.mem_append, not_or] at hi
    have ih := ih hi.1
    cases hs with
    | start _ _ _ => exact ih
    | pass _ _ _ =>
      rw [skip_eq, settleEach_outputs]
      exact ih
    | @join s running given c hm hc =>
      have hk := h.kept ht hf
      have hmr := hk.consistent.lt_of_running (List.mem_map_of_mem hm)
      obtain ⟨id', n', hn'⟩ := node?_of_lt hmr
      have hid : id' ≠ id := by
        rintro rfl
        refine hi.2 (List.mem_singleton.mpr (idOf_inj hf ?_ hmr ?_))
        · exact (List.getElem?_eq_some_iff.mp hn).1
        · rw [idOf_of_node? hn', idOf_of_node? hn]
      exact (get?_complete_outputs hn' hid).trans ih
    | abort _ _ => exact ih

/-- What the end of an execution does to a run that is not stopping, and what stays of it. -/
structure Routing (p : Plan) (ctx : Context) (id : String) (n : Node) (comp : Completion)
    (c c' : Coordination) : Prop where
  pending : ∀ (e : Nat) (l : Link), p.flow.links[e]? = some l → l.source.endpoint = .node id →
    c.progress.links[e]? = some .pending
  routed : ∀ err port, comp.outcome = .failed err → c.progress.isStopping = false →
    n.errorPort = some port → Wired p id port.name →
    Routed p ctx id n port err comp c.progress c'.progress
  failed : ∀ err, comp.outcome = .failed err → c.progress.isStopping = false →
    (∀ port, n.errorPort = some port → ¬ Wired p id port.name) →
    Failed id err comp c.progress c'.progress ∧
      ∀ c'' traceId, Later p ctx c' c'' → (c''.progress.report p traceId).error = some err
  muted : ∀ output port, comp.outcome = .succeeded output → n.errorPort = some port →
    Muted p id port.name c'.progress
  holds : ∀ c'', Later p ctx c' c'' → Holds p id c'.progress c''.progress

/-- In every run of a valid workflow, a node that fails tells its error along the links of its error port,
and only when there are none its error is that of the run; a node that succeeds delivers nothing along
them. All this lasts. -/
theorem routing_of_join {d : Document} {f : Flow} (hv : Flow.validate d = .ok f)
    (hp : Plan.ofFlow f = .ok p) (h : Reached p ctx inputs ms c) {comp : Completion}
    (hs : Step p ctx c (.join given comp) c') :
    ∃ id n, f.nodes[comp.place]? = some (id, n) ∧ Routing p ctx id n comp c c' := by
  have ht := Plan.tabled_of_ofFlow hp
  have hty := Plan.typed_of_ofFlow hv hp
  have hsorted := Plan.outOf_pairwise hp comp.place
  have hf := Flow.regular_of_validate hv
  obtain ⟨rfl, _⟩ := Plan.eq_of_ofFlow hp
  have hk := h.kept ht hf
  have hr' := h.step hs
  cases hs with
  | @join s running _ _ hm hc =>
    have hmr : comp.place ∈ running.map Prod.fst := List.mem_map_of_mem hm
    obtain ⟨id, n, hn⟩ := node?_of_lt (hk.consistent.lt_of_running hmr)
    have hnot : comp.place ∉ ended ms := fun hi =>
      (List.nodup_append.mp (List.nodup_append.mp hk.consistent.counted.nodup).2.1).2.2 _ hmr _ hi rfl
    have hlen := hk.consistent.counted.links_length
    have hpending : ∀ e ∈ p.outOf comp.place, s.links[e]? = some .pending := fun e he =>
      isPending_iff.mp (hk.consistent.isPending_of_not_ended ht hf hnot he)
    have hout := h.get?_outputs ht hf hn hnot
    have hi : comp.place ∈ ended (ms ++ [.join given comp]) := by
      rw [ended_concat]
      exact List.mem_append_right _ List.mem_cons_self
    refine ⟨id, n, hn, ?_, ?_, ?_, ?_, fun c'' hl => holds_later ht hty hf hr' hn hi hl⟩
    · exact fun e l hl he => hpending e ((mem_outOf_iff ht hty hn).mpr ⟨l, hl, he⟩)
    · exact fun err port ho hst herr hw =>
        routed_complete ht hty hsorted hn hlen hst hpending hout ho herr hw
    · intro err ho hst hw
      have hfailed : Failed id err comp s (s.complete p ctx comp) := failed_complete ht hty hn hst hout ho hw
      refine ⟨hfailed, fun c'' traceId hl => ?_⟩
      have hkeeps : c''.progress.failure = some err := by
        rw [(holds_later ht hty hf hr' hn hi hl).failure (by rw [hfailed.failure]; simp), hfailed.failure]
      rw [(concluded_report ht c''.progress traceId).error_of_failure (by rw [hkeeps]; simp), hkeeps]
    · exact fun output port ho herr => muted_complete ht hty hn hlen hpending ho herr

/-- The reason why there is no list goes to who takes its rows. -/
theorem routing_unlisted : ∃ (c : Completion) (s : Progress),
    Step listingPlan listingContext ⟨s, [(0, [])]⟩ (.join [] c) ⟨unlisted, []⟩ ∧
    Routed listingPlan listingContext "list" lister ⟨"failure", .string, false, none⟩ lost c s unlisted ∧
    unlisted.failure = none ∧ unlisted.links.head? = some .empty := by
  have hstarted : Reached listingPlan listingContext [] [.start 0 []]
      ⟨{ Progress.start listingPlan with ready := [] }, [(0, [])]⟩ :=
    Reached.opened.step (@Step.start _ _ _ _ (0, 0) [] [] rfl rfl (by rfl))
  have hended : Step listingPlan listingContext ⟨{ Progress.start listingPlan with ready := [] }, [(0, [])]⟩
      (.join [] ⟨0, .failed lost, 2, none, 0⟩) ⟨unlisted, []⟩ :=
    Step.join List.mem_cons_self fun h => by cases h
  obtain ⟨id, n, hn, hrouting⟩ := routing_of_join validate_listing ofFlow_listing hstarted hended
  cases hn
  exact ⟨_, _, hended, hrouting.routed lost _ rfl rfl rfl ⟨1, reasonLink, rfl, rfl⟩, rfl, rfl⟩

end Coordination

end Workflow
