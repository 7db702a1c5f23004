import Workflow.Proofs.Flow.Regular
import Workflow.Proofs.Plan.Schemas

namespace Workflow

namespace Port

variable {q : Port} {v : Json}

theorem check_eq_ok_iff {s : Option CompiledSchema} :
    q.check s v = .ok () ↔ q.kind.accepts v = true ∧ ∀ t, s = some t → t.check v = .ok () := by
  unfold check
  cases hk : q.kind.accepts v with
  | false => simp
  | true =>
    cases s with
    | none => simp
    | some t => cases ht : t.check v <;> simp [Except.mapError, ht]

theorem check_iff_admits (hs : ∀ schema, q.schema = some schema → IsSchema schema) :
    q.check (q.schema.bind CompiledSchema.compile?) v = .ok () ↔ q.Admits v := by
  rw [check_eq_ok_iff, Admits]
  refine and_congr_right fun _ => ⟨fun h schema hq => ?_, fun h t ht => ?_⟩
  · obtain ⟨t, ht⟩ := hs schema hq
    exact ⟨t, ht, h t (by rw [hq, Option.bind_some, ht])⟩
  · obtain ⟨schema, hq, hc⟩ := Option.bind_eq_some_iff.mp ht
    obtain ⟨t', ht', hv⟩ := h schema hq
    cases hc.symm.trans ht'
    exact hv

end Port

namespace Plan

/-- What a plan keeps of the checks of its flow: ports of a node have different names and their own schemas,
which can be read, and links join ports whose kinds fit together. -/
structure Typed (p : Plan) : Prop where
  ids_nodup : p.flow.ids.Nodup
  ports_nodup : ∀ e ∈ p.flow.nodes, (e.2.ports.map Port.name).Nodup
  schemas : ∀ e ∈ p.flow.nodes, ∀ q ∈ e.2.ports, ∀ schema, q.schema = some schema → IsSchema schema
  schema?_eq : ∀ i id n, p.flow.nodes[i]? = some (id, n) → ∀ q ∈ n.ports,
    p.schema? i q.name = q.schema.bind CompiledSchema.compile?
  error_kind : ∀ e ∈ p.flow.nodes, ∀ q, e.2.errorPort = some q → q.kind = .object ∨ q.kind = .string
  ends : ∀ l ∈ p.flow.links, ∃ k k', StartsAt p.flow.nodes l.source k ∧
    EndsAt p.flow.nodes l.target k' ∧ Converts k k' l.coercion

theorem typed_of_ofFlow {d : Document} {f : Flow} {p : Plan} (hv : Flow.validate d = .ok f)
    (hp : ofFlow f = .ok p) : p.Typed := by
  have hd := Flow.denotes_of_validate hv
  obtain ⟨rfl, _⟩ := eq_of_ofFlow hp
  have hnodes : ∀ e ∈ p.flow.nodes, e.2.Sound d.requires := fun e he => Flow.sound_of_validate hv he
  refine ⟨(Flow.regular_of_validate hv).ids_nodup, fun e he => (hnodes e he).ports_nodup,
    fun e he => (hnodes e he).schemas, fun i id n hn q hq => ?_, fun e he => (hnodes e he).error_kind,
    fun l hl => ?_⟩
  · exact schema?_of_mem hp hn (hnodes _ (List.mem_of_getElem? hn)).ports_nodup hq
  · obtain ⟨spec, _, hs⟩ := Flow.exists_denotes hd hl
    rw [hd.nodes]
    exact hs.converts

namespace Typed

variable {p : Plan} {i e : Nat} {id : String} {n : Node} {q : Port} {v w : Json} {l : Link}

theorem placeAt?_node (h : p.Typed) (hn : (id, n) ∈ p.flow.nodes) :
    ∃ i, p.flow.placeAt? (.node id) = some i ∧ p.flow.nodes[i]? = some (id, n) := by
  obtain ⟨i, hi⟩ := Flow.placeOf?_of_mem (f := p.flow) (List.mem_map.mpr ⟨(id, n), hn, rfl⟩)
  refine ⟨i, hi, ?_⟩
  have hid := Flow.placeOf?_eq_some hi
  rw [Flow.ids, List.getElem?_map, Option.map_eq_some_iff] at hid
  obtain ⟨x, hx, hxid⟩ := hid
  rw [hx, List.inj_on_of_nodup_map h.ids_nodup (List.mem_of_getElem? hx) hn hxid]

theorem placeAt?_eq_some_iff (h : p.Typed) (hn : p.flow.nodes[i]? = some (id, n)) {r : Endpoint} :
    p.flow.placeAt? r = some i ↔ r = .node id := by
  have hid : p.flow.ids[i]? = some id := by rw [Flow.ids, List.getElem?_map, hn, Option.map_some]
  exact Flow.placeAt?_eq_some_iff h.ids_nodup hid

theorem inputPort?_eq (h : p.Typed) (hn : (id, n) ∈ p.flow.nodes) (hq : q ∈ n.inputs) :
    n.inputPort? q.name = some q := by
  have hd := h.ports_nodup _ hn
  rw [Node.ports, List.map_append] at hd
  exact (Flow.find?_name_eq_some_iff hd.of_append_left).mpr ⟨hq, rfl⟩

theorem check_iff (h : p.Typed) (hn : p.flow.nodes[i]? = some (id, n)) (hq : q ∈ n.ports) :
    q.check (p.schema? i q.name) v = .ok () ↔ q.Admits v := by
  rw [h.schema?_eq i id n hn q hq]
  exact Port.check_iff_admits (h.schemas _ (List.mem_of_getElem? hn) q hq)

/-- A value is checked at the input port that a link leads to. -/
theorem checkTarget_iff (h : p.Typed) (hn : (id, n) ∈ p.flow.nodes) (hq : q ∈ n.inputs)
    (hl : l.target = ⟨.node id, q.name⟩) : p.checkTarget l e v = .ok () ↔ q.Admits v := by
  obtain ⟨i, hi, hni⟩ := h.placeAt?_node hn
  have hports : q ∈ n.ports := List.mem_append_left _ hq
  rw [← h.check_iff hni hports]
  simp only [checkTarget, hl, hi, hni, Option.bind_some, h.inputPort?_eq hn hq]
  cases q.check (p.schema? i q.name) v <;> simp [Except.mapError]

theorem checkTarget_output (hl : l.target.endpoint = .output) : p.checkTarget l e v = .ok () := by
  rw [checkTarget, hl]
  rfl

end Typed

end Plan

end Workflow
