import Workflow.Proofs.Run.Delivery

namespace Workflow

/-- A link without a condition and a transform, to a port without a schema. -/
structure Link.Plain (f : Flow) (l : Link) : Prop where
  condition : l.condition = none
  transform : l.transform = none
  schema : ∀ id n q, (id, n) ∈ f.nodes → q ∈ n.inputs → l.target = ⟨.node id, q.name⟩ → q.schema = none

/-- What a link makes of what there is at the port where it starts: nothing of no value, which only a port
that may be without has, and of a value one of the kind of the port where it ends, if it ends at one. Only
of a table without rows no object can be made. -/
inductive Carried (source : Port) (target : Option PortKind) (l : Link) (e : Nat) :
    Option Json → Except RunError (Option Json) → Prop where
  | absent (h : source.optional = true) : Carried source target l e none (.ok none)
  | null (h : source.optional = true) : Carried source target l e (some .null) (.ok none)
  | value {v w : Json} (hv : source.kind.accepts v = true) (hc : l.coercion.apply v = .ok w)
      (hw : ∀ k, target = some k → k.accepts w = true) : Carried source target l e (some v) (.ok (some w))
  | noRows (hs : source.kind = .table) (ht : target = some .object) :
      Carried source target l e (some (.arr []))
        (.error (Plan.linkError l e .invocation CoercionError.noRows.message))

namespace RunError

/-- An error can be told at an error port of either kind. -/
theorem accepts_portValue {k : PortKind} (h : k = .object ∨ k = .string) (err : RunError) :
    k.accepts (err.portValue k) = true := by
  rcases h with rfl | rfl <;> rfl

theorem portValue_ne_arr (err : RunError) (k : PortKind) (items : List Json) :
    err.portValue k ≠ .arr items := by
  cases k <;> exact fun h => by cases h

end RunError

namespace Plan.Typed

variable {p : Plan} {ctx : Context} {i e : Nat} {id : String} {n : Node} {q : Port} {l : Link}
variable {v output : Json} {target : Option PortKind}

theorem exists_converts (h : p.Typed) (hl : l ∈ p.flow.links) (hn : (id, n) ∈ p.flow.nodes)
    (hq : q ∈ n.sources) (hs : l.source = ⟨.node id, q.name⟩) :
    ∃ target, EndsAt p.flow.nodes l.target target ∧ Converts (some q.kind) target l.coercion := by
  obtain ⟨k, target, hstart, hend, hc⟩ := h.ends l hl
  refine ⟨target, hend, ?_⟩
  generalize l.source = r at hs hstart
  cases hstart with
  | input port => cases hs
  | @node id' n' q' hn' hq' =>
    simp only [PortRef.mk.injEq, Endpoint.node.injEq] at hs
    obtain ⟨rfl, hname⟩ := hs
    cases List.inj_on_of_nodup_map h.ids_nodup hn' hn rfl
    have hd := h.ports_nodup _ hn
    rw [Node.ports, List.map_append] at hd
    cases List.inj_on_of_nodup_map hd.of_append_right hq' hq hname
    exact hc

theorem checkTarget_eq_ok (h : p.Typed) (hl : l.Plain p.flow) (ht : EndsAt p.flow.nodes l.target target)
    (hv : ∀ k, target = some k → k.accepts v = true) : p.checkTarget l e v = .ok () := by
  generalize hr : l.target = r at ht
  cases ht with
  | output port => exact checkTarget_output (by rw [hr])
  | node hn hq =>
    refine (h.checkTarget_iff hn hq hr).mpr ⟨hv _ rfl, fun schema hs => ?_⟩
    rw [hl.schema _ _ _ hn hq hr] at hs
    cases hs

/-- A value of the kind of the port where a link starts arrives as one of the kind where it ends. -/
theorem carried_of_accepts (h : p.Typed) (hl : l.Plain p.flow) (ht : EndsAt p.flow.nodes l.target target)
    (hc : Converts (some q.kind) target l.coercion) (hv : q.kind.accepts v = true) :
    Carried q target l e (some v) (p.deliver ctx l e v output) := by
  have hnull := PortKind.isNull_of_accepts hv
  have delivers : ∀ w, l.coercion.apply v = .ok w → (∀ k, target = some k → k.accepts w = true) →
      Carried q target l e (some v) (p.deliver ctx l e v output) := by
    intro w ha hw
    rw [deliver_of_apply hl.condition hl.transform hnull ha (h.checkTarget_eq_ok hl ht hw)]
    exact .value hv ha hw
  generalize hcoercion : l.coercion = c at hc delivers
  cases hc with
  | toOutput => exact delivers v rfl fun k hk => by cases hk
  | kinds hk =>
    rcases PortKind.apply_of_accepts hk hv with ⟨w, ha, hw⟩ | ⟨hs, ho, rfl, ha⟩
    · exact delivers w ha fun k hk => Option.some.inj hk ▸ hw
    · rw [deliver_of_error hl.condition hl.transform hnull (hcoercion ▸ ha)]
      exact .noRows hs (congrArg some ho)

end Plan.Typed

namespace Progress

variable {p : Plan} {ctx : Context} {i e : Nat} {id : String} {n : Node} {q : Port} {l : Link}

theorem isErrorPort_of_output (hd : (n.ports.map Port.name).Nodup) (hq : q ∈ n.outputs) :
    n.isErrorPort q.name = false := by
  rw [Node.ports, Node.sources, List.map_append, List.map_append] at hd
  have hdisj := (List.nodup_append.mp hd.of_append_right).2.2
  cases herr : n.errorPort with
  | none => rw [Node.isErrorPort, herr, Option.any_none]
  | some port =>
    have hne : port.name ≠ q.name := fun he =>
      hdisj q.name (List.mem_map_of_mem hq) port.name (by simp [herr]) he.symm
    rw [Node.isErrorPort, herr, Option.any_some, decide_eq_false hne]

/-- In a valid workflow a plain link never fails with an output that fits the ports of its node, nor with
an error at its error port, but for a table without rows on its way to an object. -/
theorem carried_of_validate {d : Document} {f : Flow} (hv : Flow.validate d = .ok f)
    (hp : Plan.ofFlow f = .ok p) (hn : f.nodes[i]? = some (id, n)) (hl : f.links[e]? = some l)
    (hq : q ∈ n.sources) (hs : l.source = ⟨.node id, q.name⟩) (hplain : l.Plain f) :
    ∃ target, EndsAt f.nodes l.target target ∧
      (q ∈ n.outputs → ∀ output, p.validate i n output = .ok () →
        Carried q target l e (n.valueAt? output q.name) (outputOn p ctx n output l e)) ∧
      (n.errorPort = some q → ∀ err : RunError, ∃ w,
        errorOn p ctx n (err.portValue q.kind) l e = .ok (some w) ∧
        Carried q target l e (some (err.portValue q.kind)) (.ok (some w))) := by
  have ht := Plan.typed_of_ofFlow hv hp
  obtain ⟨rfl, _⟩ := Plan.eq_of_ofFlow hp
  have hmem := List.mem_of_getElem? hn
  obtain ⟨target, hend, hc⟩ := ht.exists_converts (List.mem_of_getElem? hl) hmem hq hs
  refine ⟨target, hend, fun hout output hok => ?_, fun herr err => ?_⟩
  · have hnot := isErrorPort_of_output (ht.ports_nodup _ hmem) hout
    rw [outputOn, hs]
    dsimp only
    rcases Plan.valueAt?_of_validate hok hout with ⟨hnone, hopt⟩ | ⟨v, hval, hcheck⟩
    · rw [hnone]
      exact .absent hopt
    · rw [hval]
      simp only [hnot, Bool.false_eq_true, if_false]
      rcases Plan.checkOutput_eq_ok hcheck with ⟨rfl, hopt⟩ | hcheck
      · rw [Plan.deliver_null hplain.condition hplain.transform]
        exact .null hopt
      · exact ht.carried_of_accepts hplain hend hc (Port.check_eq_ok_iff.mp hcheck).1
  · have hvalue := RunError.accepts_portValue (ht.error_kind _ hmem q herr) err
    have hcarried : Carried q target l e (some (err.portValue q.kind))
        (p.deliver ctx l e (err.portValue q.kind) (err.portValue q.kind)) :=
      ht.carried_of_accepts hplain hend hc hvalue
    have herror : errorOn p ctx n (err.portValue q.kind) l e =
        p.deliver ctx l e (err.portValue q.kind) (err.portValue q.kind) := by
      rw [errorOn, hs, Node.isErrorPort, herr, Option.any_some, decide_eq_true rfl, if_pos rfl]
    rw [herror]
    have hne := RunError.portValue_ne_arr err q.kind []
    have hnull := PortKind.isNull_of_accepts hvalue
    generalize err.portValue q.kind = v at hcarried hne hnull
    generalize p.deliver ctx l e v v = r at hcarried
    cases hcarried with
    | null => cases hnull
    | value hv hc hw => exact ⟨_, rfl, .value hv hc hw⟩
    | noRows => exact absurd rfl hne

/-- A node with a table and a note, and an error port. -/
def lister : Node where
  inputs := []
  outputs := [⟨"rows", .table, false, none⟩, ⟨"note", .string, true, none⟩]
  errorPort := some ⟨"failure", .string, false, none⟩
  transform := .code ""
  policy := {}
  state := none

def taker : Node where
  inputs := [⟨"row", .object, false, none⟩, ⟨"reason", .document, true, none⟩]
  outputs := []
  errorPort := none
  transform := .code ""
  policy := {}
  state := none

/-- A row of a table is taken, or else the reason why there is no table. -/
def listing : Document where
  version := "1.0"
  metadata := []
  requires := []
  nodes := [("list", lister), ("take", taker)]
  links := [⟨"list.rows", "take.row", none, none⟩, ⟨"list.failure", "take.reason", none, none⟩]
  deployment := none

def rowsLink : Link := ⟨⟨.node "list", "rows"⟩, ⟨.node "take", "row"⟩, none, none, .firstRow⟩

def reasonLink : Link := ⟨⟨.node "list", "failure"⟩, ⟨.node "take", "reason"⟩, none, none, .wrapDocument⟩

def listingFlow : Flow where
  version := "1.0"
  metadata := []
  requires := []
  nodes := listing.nodes
  links := [rowsLink, reasonLink]
  deployment := none

def listingPlan : Plan where
  flow := listingFlow
  layerOf := [0, 1]
  incoming := [[], [0, 1]]
  outgoing := [[0, 1], []]
  inputLinks := []
  outputLinks := []
  schemas := []

set_option maxRecDepth 10000 in
theorem validate_listing : Flow.validate listing = .ok listingFlow := by with_unfolding_all rfl

theorem ofFlow_listing : Plan.ofFlow listingFlow = .ok listingPlan := by rfl

def listingContext : Context := ⟨none, none, "trace", "2024-01-01T00:00:00Z", none, []⟩

def lost : RunError := ⟨some "list", .timeout, 2, "too late"⟩

theorem plain_listing : ∀ l ∈ listingFlow.links, l.Plain listingFlow := by
  have hnone : ∀ e ∈ listingFlow.nodes, ∀ q ∈ e.2.inputs, q.schema = none := by decide +kernel
  have hplain : ∀ l ∈ listingFlow.links, l.condition = none ∧ l.transform = none := by decide +kernel
  exact fun l hl => ⟨(hplain l hl).1, (hplain l hl).2, fun id n q hn hq _ => hnone (id, n) hn q hq⟩

/-- A table without rows has no row to take; the reason why there is no table can always be taken. -/
theorem carried_listing :
    (∃ target, EndsAt listingFlow.nodes rowsLink.target target ∧
      Carried ⟨"rows", .table, false, none⟩ target rowsLink 0 (some (.arr []))
        (outputOn listingPlan listingContext lister (.obj [("rows", .arr [])]) rowsLink 0)) ∧
    ∃ w, errorOn listingPlan listingContext lister (.str lost.render) reasonLink 1 = .ok (some w) := by
  have hrows := @carried_of_validate listingPlan listingContext 0 0 "list" lister
    ⟨"rows", .table, false, none⟩ rowsLink listing listingFlow validate_listing ofFlow_listing rfl rfl
    List.mem_cons_self rfl (plain_listing rowsLink List.mem_cons_self)
  have hreason := @carried_of_validate listingPlan listingContext 0 1 "list" lister
    ⟨"failure", .string, false, none⟩ reasonLink listing listingFlow validate_listing ofFlow_listing rfl rfl
    (List.mem_append_right _ List.mem_cons_self) rfl
    (plain_listing reasonLink (List.mem_cons_of_mem _ List.mem_cons_self))
  constructor
  · obtain ⟨target, hend, hout, _⟩ := hrows
    exact ⟨target, hend, hout List.mem_cons_self (.obj [("rows", .arr [])]) rfl⟩
  · obtain ⟨_, _, _, herr⟩ := hreason
    obtain ⟨w, hw, _⟩ := herr rfl lost
    exact ⟨w, hw⟩

end Progress

end Workflow
