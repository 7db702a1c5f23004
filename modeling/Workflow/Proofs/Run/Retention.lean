import Workflow.Proofs.Run.Binding

namespace Workflow

namespace Port

variable {q : Port} {v : Json}

/-- A port that does not admit a value of its kind has a schema with a reason against it. -/
theorem admits_or_breaks (hs : ∀ schema, q.schema = some schema → IsSchema schema)
    (hk : q.kind.accepts v = true) : q.Admits v ∨ ∃ schema t reason, q.schema = some schema ∧
      CompiledSchema.compile? schema = some t ∧ t.check v = .error reason := by
  cases hq : q.schema with
  | none => exact .inl ⟨hk, fun schema hschema => by cases hq.symm.trans hschema⟩
  | some schema =>
    obtain ⟨t, ht⟩ := hs schema hq
    cases hv : t.check v with
    | error reason => exact .inr ⟨schema, t, reason, rfl, ht, hv⟩
    | ok _ =>
      refine .inl ⟨hk, fun schema' hschema => ?_⟩
      cases hq.symm.trans hschema
      exact ⟨t, ht, hv⟩

theorem check_of_breaks {schema : Json} {t : CompiledSchema} {reason : String} (hk : q.kind.accepts v = true)
    (hq : q.schema = some schema) (ht : CompiledSchema.compile? schema = some t)
    (hv : t.check v = .error reason) :
    q.check (q.schema.bind CompiledSchema.compile?) v = .error s!"port '{q.name}': {reason}" := by
  rw [hq, Option.bind_some, ht]
  simp only [check, hk, Bool.not_true, Bool.false_eq_true, if_false, hv, Except.mapError]

end Port

namespace Plan

open PortKind

theorem Typed.kind_of_endsAt {p : Plan} (h : p.Typed) {id : String} {n : Node} {q : Port} {k : Option PortKind}
    (hn : (id, n) ∈ p.flow.nodes) (hq : q ∈ n.inputs) (hk : EndsAt p.flow.nodes ⟨.node id, q.name⟩ k) :
    k = some q.kind := by
  generalize hr : (⟨.node id, q.name⟩ : PortRef) = r at hk
  cases hk with
  | output port => cases hr
  | @node id' n' q' hn' hq' =>
    simp only [PortRef.mk.injEq, Endpoint.node.injEq] at hr
    obtain ⟨rfl, hname⟩ := hr
    cases List.inj_on_of_nodup_map h.ids_nodup hn' hn rfl
    have hd := h.ports_nodup _ hn
    rw [Node.ports, List.map_append] at hd
    cases List.inj_on_of_nodup_map hd.of_append_left hq' hq hname.symm
    rfl

/-- What arrives of a value `w` that a transform made, and that port `q` where the link ends already admits.
It is delivered as it is. Only a text becomes a document, which the schema of the port need not allow, and an
object is refused where the link starts at a table. -/
inductive Arrives (r q : Port) (l : Link) (e : Nat) (w : Json) : Except RunError (Option Json) → Prop
  | same (hrow : r.kind = .table → q.kind ≠ .object)
      (htext : r.kind = .string → q.kind = .document → w.isString = false) : Arrives r q l e w (.ok (some w))
  | wrapped {s : String} (hr : r.kind = .string) (hq : q.kind = .document) (hw : w = .str s)
      (ha : q.Admits (documentOf s)) : Arrives r q l e w (.ok (some (documentOf s)))
  | unfit {s : String} {schema : Json} {t : CompiledSchema} {reason : String} (hr : r.kind = .string)
      (hq : q.kind = .document) (hw : w = .str s) (hs : q.schema = some schema)
      (ht : CompiledSchema.compile? schema = some t) (hc : t.check (documentOf s) = .error reason) :
      Arrives r q l e w (.error (linkError l e .invocation s!"port '{q.name}': {reason}"))
  | notTable (hr : r.kind = .table) (hq : q.kind = .object) :
      Arrives r q l e w (.error (linkError l e .invocation (CoercionError.notTable w).message))

theorem Arrives.accepts {r q : Port} {l : Link} {e : Nat} {u w : Json} (h : Arrives r q l e w (.ok (some u)))
    (hw : q.Admits w) : q.kind.accepts u = true := by
  cases h with
  | same => exact hw.1
  | wrapped _ _ _ ha => exact ha.1

/-- The transform of a link from port `r` of a node to port `q` of a node makes `w` of the value `v`, and `q`
already admits what it makes. -/
structure Makes (p : Plan) (ctx : Context) (e : Nat) (l : Link) (r q : Port) (v output w : Json) : Prop where
  link : p.flow.links[e]? = some l
  source : ∃ id n, (id, n) ∈ p.flow.nodes ∧ r ∈ n.sources ∧ l.source = ⟨.node id, r.name⟩
  target : ∃ id n, (id, n) ∈ p.flow.nodes ∧ q ∈ n.inputs ∧ l.target = ⟨.node id, q.name⟩
  passes : passes l e (Expr.linkScope l.source.port v output ctx) = .ok true
  transform : ∃ text, l.transform = some text ∧
    Expr.evaluate text (Expr.linkScope l.source.port v output ctx) = .ok w
  isNull : w.isNull = false
  admits : q.Admits w

namespace Makes

variable {p : Plan} {ctx : Context} {e : Nat} {l : Link} {r q : Port} {v w output : Json}

theorem transformed (h : Makes p ctx e l r q v output w) :
    Plan.transformed l e (Expr.linkScope l.source.port v output ctx) v = .ok w := by
  obtain ⟨text, htext, hw⟩ := h.transform
  simp only [Plan.transformed, htext, hw, Except.mapError]

theorem coercionTo_eq (h : Makes p ctx e l r q v output w) (ht : p.Typed) :
    r.kind.coercionTo q.kind = some l.coercion := by
  obtain ⟨a, m, hm, hr, hsource⟩ := h.source
  obtain ⟨b, n, hn, hq, htarget⟩ := h.target
  obtain ⟨k, hend, hc⟩ := ht.exists_converts (List.mem_of_getElem? h.link) hm hr hsource
  rw [htarget] at hend
  rw [ht.kind_of_endsAt hn hq hend] at hc
  cases hc with
  | kinds hk => exact hk

theorem deliver_of_admits {u : Json} (h : Makes p ctx e l r q v output w) (ht : p.Typed)
    (hu : l.coercion.apply w = .ok u) (ha : q.Admits u) : p.deliver ctx l e v output = .ok (some u) := by
  obtain ⟨b, n, hn, hq, htarget⟩ := h.target
  exact deliver_of_passes h.passes h.transformed h.isNull hu ((ht.checkTarget_iff hn hq htarget).mpr ha)

theorem deliver_of_breaks {u schema : Json} {t : CompiledSchema} {reason : String}
    (h : Makes p ctx e l r q v output w) (ht : p.Typed) (hu : l.coercion.apply w = .ok u)
    (hk : q.kind.accepts u = true) (hs : q.schema = some schema)
    (hc : CompiledSchema.compile? schema = some t) (hr : t.check u = .error reason) :
    p.deliver ctx l e v output =
      .error (linkError l e .invocation s!"port '{q.name}': {reason}") := by
  obtain ⟨b, n, hn, hq, htarget⟩ := h.target
  exact (ht.stops_of_check hn hq htarget h.passes h.transformed h.isNull hu
    (Port.check_of_breaks hk hs hc hr)).deliver

theorem arrives (h : Makes p ctx e l r q v output w) (ht : p.Typed) :
    Arrives r q l e w (p.deliver ctx l e v output) := by
  have hretains := retains_of_accepts (h.coercionTo_eq ht) h.admits.1
  generalize hmade : l.coercion.apply w = made at hretains
  cases hretains with
  | same hrow htext =>
    rw [h.deliver_of_admits ht hmade h.admits]
    exact .same hrow htext
  | @wrapped s hr hq hs =>
    have hdoc : q.kind.accepts (documentOf s) = true := by
      rw [hq]
      rfl
    obtain ⟨b, n, hn, hmem, _⟩ := h.target
    rcases Port.admits_or_breaks (ht.schemas _ hn q (List.mem_append_left _ hmem)) hdoc with
      ha | ⟨schema, t, reason, hschema, hcompile, hreason⟩
    · rw [h.deliver_of_admits ht hmade ha]
      exact .wrapped hr hq hs ha
    · rw [h.deliver_of_breaks ht hmade hdoc hschema hcompile hreason]
      exact .unfit hr hq hs hschema hcompile hreason
  | notTable hr hq =>
    rw [(Stops.coercion h.passes h.transformed h.isNull hmade).deliver]
    exact .notTable hr hq

end Makes

/-- In a valid workflow a value that the transform of a link makes, and that the port where the link ends
already admits, arrives there, of the kind of that port, unless the schema of the port is against the document
that a text is wrapped into, or the link leads from a table to an object. No other coercion refuses a value
that already is of the kind where it ends. -/
theorem arrives_of_validate {d : Document} {f : Flow} {p : Plan} (hv : Flow.validate d = .ok f)
    (hp : ofFlow f = .ok p) {ctx : Context} {e : Nat} {l : Link} {r q : Port} {v w output : Json}
    (h : Makes p ctx e l r q v output w) :
    Arrives r q l e w (p.deliver ctx l e v output) ∧
      (∀ u, p.deliver ctx l e v output = .ok (some u) → q.kind.accepts u = true) ∧
      ∀ k k' c, PortKind.coercionTo k k' = some c →
        ((∀ x, k'.accepts x = true → ∃ u, c.apply x = .ok u ∧ k'.accepts u = true) ↔
          ¬ (k = .table ∧ k' = .object)) := by
  have ha := h.arrives (typed_of_ofFlow hv hp)
  exact ⟨ha, fun u hu => (hu ▸ ha).accepts h.admits, fun k k' c hc => forall_retained_iff hc⟩

/-- The rows of a table are replaced by the whole output of their node, and the reason why there is no table
stays as it is. -/
def handover : Document where
  version := "1.0"
  metadata := []
  requires := []
  nodes := Progress.listing.nodes
  links := [⟨"list.rows", "take.row", none, some "output"⟩,
    ⟨"list.failure", "take.reason", none, some "value"⟩]
  deployment := none

def outputLink : Link := ⟨⟨.node "list", "rows"⟩, ⟨.node "take", "row"⟩, none, some "output", .firstRow⟩

def valueLink : Link :=
  ⟨⟨.node "list", "failure"⟩, ⟨.node "take", "reason"⟩, none, some "value", .wrapDocument⟩

def handoverFlow : Flow where
  version := "1.0"
  metadata := []
  requires := []
  nodes := handover.nodes
  links := [outputLink, valueLink]
  deployment := none

def handoverPlan : Plan where
  flow := handoverFlow
  layerOf := [0, 1]
  incoming := [[], [0, 1]]
  outgoing := [[0, 1], []]
  inputLinks := []
  outputLinks := []
  schemas := []

set_option maxRecDepth 10000 in
theorem validate_handover : Flow.validate handover = .ok handoverFlow := by with_unfolding_all rfl

theorem ofFlow_handover : ofFlow handoverFlow = .ok handoverPlan := by rfl

set_option maxRecDepth 10000 in
theorem makes_value : Makes handoverPlan Progress.listingContext 1 valueLink
    ⟨"failure", .string, false, none⟩ ⟨"reason", .document, true, none⟩ (.str "lost") (.str "lost")
    (.str "lost") where
  link := rfl
  source := ⟨"list", Progress.lister, List.mem_cons_self, List.mem_append_right _ List.mem_cons_self, rfl⟩
  target := ⟨"take", Progress.taker, List.mem_cons_of_mem _ List.mem_cons_self,
    List.mem_cons_of_mem _ List.mem_cons_self, rfl⟩
  passes := rfl
  transform := ⟨"value", rfl, by with_unfolding_all rfl⟩
  isNull := rfl
  admits := ⟨rfl, fun schema hs => by cases hs⟩

/-- A text that a transform leaves a text is wrapped all the same. -/
theorem arrives_reason : handoverPlan.deliver Progress.listingContext valueLink 1 (.str "lost") (.str "lost") =
    .ok (some (documentOf "lost")) := by
  have h := (arrives_of_validate validate_handover ofFlow_handover makes_value).1
  generalize handoverPlan.deliver Progress.listingContext valueLink 1 (.str "lost") (.str "lost") = made at h
  cases h with
  | same _ htext => cases htext rfl rfl
  | wrapped _ _ hw =>
    cases hw
    rfl
  | unfit _ _ _ hs => cases hs
  | notTable hr => cases hr

/-- What the transform of a link makes always arrives when the port where the link ends already admits it. -/
def Retaining (p : Plan) : Prop :=
  ∀ ctx e l r q v output w, Makes p ctx e l r q v output w →
    ∃ u, p.deliver ctx l e v output = .ok (some u) ∧ q.kind.accepts u = true

def listed : Json := .obj [("rows", .arr [.obj []])]

set_option maxRecDepth 10000 in
theorem makes_output : Makes handoverPlan Progress.listingContext 0 outputLink ⟨"rows", .table, false, none⟩
    ⟨"row", .object, false, none⟩ (.arr [.obj []]) listed listed where
  link := rfl
  source := ⟨"list", Progress.lister, List.mem_cons_self, List.mem_cons_self, rfl⟩
  target := ⟨"take", Progress.taker, List.mem_cons_of_mem _ List.mem_cons_self, List.mem_cons_self, rfl⟩
  passes := rfl
  transform := ⟨"output", rfl, by with_unfolding_all rfl⟩
  isNull := rfl
  admits := ⟨rfl, fun schema hs => by cases hs⟩

/-- The whole output of a node is an object, but it is not taken where a table is made an object. -/
theorem exists_not_retaining : Flow.validate handover = .ok handoverFlow ∧
    ofFlow handoverFlow = .ok handoverPlan ∧ ¬ handoverPlan.Retaining := by
  refine ⟨validate_handover, ofFlow_handover, fun hretaining => ?_⟩
  obtain ⟨u, hu, _⟩ := hretaining _ _ _ _ _ _ _ _ makes_output
  have h := makes_output.arrives (typed_of_ofFlow validate_handover ofFlow_handover)
  rw [hu] at h
  cases h with
  | same hrow => exact hrow rfl rfl
  | wrapped hr => cases hr

end Plan

end Workflow
