import Mathlib.Data.List.Nodup
import Workflow.Proofs.Flow.Wellformed

namespace Workflow.Flow

theorem find?_name_eq_some_iff {α : Type} {name : α → String} {xs : List α}
    (hd : (xs.map name).Nodup) {x : α} {k : String} :
    xs.find? (fun y => name y = k) = some x ↔ x ∈ xs ∧ name x = k := by
  constructor
  · intro h
    exact ⟨List.mem_of_find?_eq_some h, by simpa using List.find?_some h⟩
  · rintro ⟨hx, rfl⟩
    obtain ⟨y, hy⟩ : ∃ y, xs.find? (fun y => name y = name x) = some y :=
      Option.isSome_iff_exists.mp (List.find?_isSome.mpr ⟨x, hx, by simp⟩)
    have hn : name y = name x := by simpa using List.find?_some hy
    rw [hy, List.inj_on_of_nodup_map hd (List.mem_of_find?_eq_some hy) hx hn]

variable {nodes : List (String × Node)}

/-- The names of nodes, and of the ports of each, are different. -/
structure Named (nodes : List (String × Node)) : Prop where
  ids : (nodes.map Prod.fst).Nodup
  ports : ∀ e ∈ nodes, (e.2.ports.map Port.name).Nodup

theorem Named.inputs (h : Named nodes) {e : String × Node} (he : e ∈ nodes) :
    (e.2.inputs.map Port.name).Nodup := by
  have hp := h.ports e he
  rw [Node.ports, List.map_append] at hp
  exact hp.of_append_left

theorem Named.sources (h : Named nodes) {e : String × Node} (he : e ∈ nodes) :
    (e.2.sources.map Port.name).Nodup := by
  have hp := h.ports e he
  rw [Node.ports, List.map_append] at hp
  exact hp.of_append_right

/-- The ports of a node where links start, or those where they end. -/
def portsAt (asSource : Bool) (n : Node) : List Port := if asSource then n.sources else n.inputs

theorem Named.portsAt (h : Named nodes) (asSource : Bool) {e : String × Node} (he : e ∈ nodes) :
    ((portsAt asSource e.2).map Port.name).Nodup := by
  cases asSource with
  | false => exact h.inputs he
  | true => exact h.sources he

theorem kindAt_eq_ok_iff {place : Nat} {asSource : Bool} {r : PortRef} {k : Option PortKind} :
    kindAt nodes place asSource r = .ok k ↔
      (r.nodeId? = none ∧ k = none) ∨
      ∃ id e p, r.nodeId? = some id ∧ nodes.find? (fun e => e.1 = id) = some e ∧
        (portsAt asSource e.2).find? (fun p => p.name = r.port) = some p ∧ k = some p.kind := by
  have hport : ∀ n : Node, (if asSource then n.outputPort? r.port else n.inputPort? r.port) =
      (portsAt asSource n).find? (fun p => p.name = r.port) := by
    intro n
    cases asSource <;> rfl
  simp only [kindAt, hport]
  cases hid : r.nodeId? with
  | none => simp [eq_comm]
  | some id =>
    cases hn : nodes.find? (fun e => e.1 = id) with
    | none => simp [hn]
    | some e =>
      obtain ⟨id', n⟩ := e
      cases hp : (portsAt asSource n).find? (fun p => p.name = r.port) with
      | none => simp [hn, hp]
      | some p => simp [hn, hp, @eq_comm _ k]

theorem kindAt_node_iff (h : Named nodes) {place : Nat} {asSource : Bool} {id port : String}
    {k : Option PortKind} :
    kindAt nodes place asSource ⟨.node id, port⟩ = .ok k ↔
      ∃ n p, (id, n) ∈ nodes ∧ p ∈ portsAt asSource n ∧ p.name = port ∧ k = some p.kind := by
  rw [kindAt_eq_ok_iff]
  constructor
  · rintro (⟨hn, _⟩ | ⟨_, e, p, ⟨⟩, he, hp, hk⟩)
    · cases hn
    · obtain ⟨hm, rfl⟩ := (find?_name_eq_some_iff h.ids).mp he
      obtain ⟨hpm, hpn⟩ := (find?_name_eq_some_iff (h.portsAt asSource hm)).mp hp
      exact ⟨e.2, p, hm, hpm, hpn, hk⟩
  · rintro ⟨n, p, hn, hp, rfl, hk⟩
    exact .inr ⟨id, (id, n), p, rfl, (find?_name_eq_some_iff h.ids).mpr ⟨hn, rfl⟩,
      (find?_name_eq_some_iff (h.portsAt asSource hn)).mpr ⟨hp, rfl⟩, hk⟩

theorem kindAt_source_iff (h : Named nodes) {place : Nat} {r : PortRef} {k : Option PortKind}
    (hr : r.endpoint ≠ .output) : kindAt nodes place true r = .ok k ↔ StartsAt nodes r k := by
  obtain ⟨endpoint, port⟩ := r
  cases endpoint with
  | output => exact absurd rfl hr
  | input =>
    constructor
    · rintro ⟨⟩
      exact .input port
    · rintro ⟨⟩
      rfl
  | node id =>
    rw [kindAt_node_iff h]
    constructor
    · rintro ⟨n, p, hn, hp, rfl, rfl⟩
      exact .node hn hp
    · intro hs
      cases hs with
      | node hn hp => exact ⟨_, _, hn, hp, rfl, rfl⟩

theorem kindAt_target_iff (h : Named nodes) {place : Nat} {r : PortRef} {k : Option PortKind}
    (hr : r.endpoint ≠ .input) : kindAt nodes place false r = .ok k ↔ EndsAt nodes r k := by
  obtain ⟨endpoint, port⟩ := r
  cases endpoint with
  | input => exact absurd rfl hr
  | output =>
    constructor
    · rintro ⟨⟩
      exact .output port
    · rintro ⟨⟩
      rfl
  | node id =>
    rw [kindAt_node_iff h]
    constructor
    · rintro ⟨n, p, hn, hp, rfl, rfl⟩
      exact .node hn hp
    · intro hs
      cases hs with
      | node hn hp => exact ⟨_, _, hn, hp, rfl, rfl⟩

theorem coercionOf_eq_ok_iff {place : Nat} {s t : PortRef} {c : Coercion} :
    coercionOf nodes place s t = .ok c ↔
      ∃ k l, kindAt nodes place true s = .ok k ∧ kindAt nodes place false t = .ok l ∧
        Converts k l c := by
  unfold coercionOf
  constructor
  · intro h
    split at h
    · next k l hk hl =>
      split at h
      · next c' hc =>
        cases h
        exact ⟨some k, some l, hk, hl, .kinds hc⟩
      · cases h
    · next k l hne hk hl =>
      cases h
      refine ⟨k, l, hk, hl, ?_⟩
      cases k with
      | none => exact .fromInput l
      | some k =>
        cases l with
        | none => exact .toOutput _
        | some l => exact (hne k l rfl rfl).elim
    all_goals cases h
  · rintro ⟨k, l, hk, hl, hc⟩
    rw [hk, hl]
    cases hc with
    | kinds h => simp only [h]
    | fromInput l => rfl
    | toOutput k => cases k <;> rfl

/-- Where a link stands matters for what is said of it only. -/
theorem coercionOf_eq_ok_place {s t : PortRef} {c : Coercion} (i j : Nat) :
    coercionOf nodes i s t = .ok c ↔ coercionOf nodes j s t = .ok c := by
  simp only [coercionOf_eq_ok_iff, kindAt_eq_ok_iff]

theorem ne_nil_of_coercionOf_eq_error {place : Nat} {s t : PortRef} {found : List Issue}
    (h : coercionOf nodes place s t = .error found) : found ≠ [] := by
  unfold coercionOf at h
  split at h
  · split at h <;> cases h
    simp
  all_goals cases h
  all_goals simp

theorem sourceOf_eq_ok_iff {text : String} {r : PortRef} :
    sourceOf text = .ok r ↔ PortRef.parse? text = some r ∧ r.endpoint ≠ .output := by
  unfold sourceOf
  cases PortRef.parse? text with
  | none => simp
  | some r' =>
    by_cases h : r'.endpoint = .output
    · simp only [h, if_true, reduceCtorEq, Option.some.injEq, false_iff, not_and, not_not]
      rintro rfl
      exact h
    · simp only [h, if_false, Except.ok.injEq, Option.some.injEq, iff_self_and]
      rintro rfl
      exact h

theorem targetOf_eq_ok_iff {text : String} {r : PortRef} :
    targetOf text = .ok r ↔ PortRef.parse? text = some r ∧ r.endpoint ≠ .input := by
  unfold targetOf
  cases PortRef.parse? text with
  | none => simp
  | some r' =>
    by_cases h : r'.endpoint = .input
    · simp only [h, if_true, reduceCtorEq, Option.some.injEq, false_iff, not_and, not_not]
      rintro rfl
      exact h
    · simp only [h, if_false, Except.ok.injEq, Option.some.injEq, iff_self_and]
      rintro rfl
      exact h

/-- A link is kept exactly when it denotes one; no coercion is worked out for any other. -/
theorem linkOf?_eq_some_iff (h : Named nodes) {spec : LinkSpec} {l : Link} :
    linkOf? nodes spec = some l ↔ spec.Denotes nodes l := by
  unfold linkOf?
  constructor
  · intro hl
    split at hl
    · next s t hs ht =>
      obtain ⟨hps, hso⟩ := sourceOf_eq_ok_iff.mp hs
      obtain ⟨hpt, hti⟩ := targetOf_eq_ok_iff.mp ht
      split at hl
      · next c hc =>
        cases hl
        obtain ⟨k, k', hk, hk', hcv⟩ := coercionOf_eq_ok_iff.mp hc
        exact ⟨hps, hpt, rfl, rfl, k, k', (kindAt_source_iff h hso).mp hk,
          (kindAt_target_iff h hti).mp hk', hcv⟩
      · cases hl
    · cases hl
  · rintro ⟨hs, ht, hc, hx, k, k', hk, hk', hcv⟩
    have hso := hk.endpoint_ne
    have hti := hk'.endpoint_ne
    have hco : coercionOf nodes 0 l.source l.target = .ok l.coercion :=
      coercionOf_eq_ok_iff.mpr ⟨k, k', (kindAt_source_iff h hso).mpr hk,
        (kindAt_target_iff h hti).mpr hk', hcv⟩
    rw [sourceOf_eq_ok_iff.mpr ⟨hs, hso⟩, targetOf_eq_ok_iff.mpr ⟨ht, hti⟩]
    simp only [hco, ← hc, ← hx]

theorem duplicateIssues_eq_nil_iff {before : List LinkSpec} {spec : LinkSpec} :
    duplicateIssues before spec = [] ↔ spec ∉ before := by
  unfold duplicateIssues
  cases h : before.findIdx? (· = spec) with
  | none =>
    have hn := List.findIdx?_eq_none_iff.mp h
    simp only [true_iff]
    exact fun hm => by simpa using hn spec hm
  | some i =>
    obtain ⟨hi, hp, _⟩ := List.findIdx?_eq_some_iff_getElem.mp h
    have he : before[i] = spec := by simpa using hp
    simp [← he]

theorem faultIssues_eq_nil_iff {place : Nat} {x : Except LinkFault PortRef} :
    faultIssues place x = [] ↔ ∃ r, x = .ok r := by
  cases x <;> simp [faultIssues]

/-- There is nothing to say of a link exactly when it is kept and was not written before. -/
theorem linkIssues_eq_nil_iff {before : List LinkSpec} {spec : LinkSpec} :
    linkIssues nodes before spec = [] ↔ spec ∉ before ∧ ∃ l, linkOf? nodes spec = some l := by
  simp only [linkIssues, List.append_eq_nil_iff, duplicateIssues_eq_nil_iff,
    faultIssues_eq_nil_iff, and_assoc, linkOf?]
  refine and_congr_right fun _ => ?_
  rcases sourceOf spec.source with e | s
  · simp
  · rcases targetOf spec.target with e | t
    · simp
    · cases hc : coercionOf nodes before.length s t with
      | ok c => simp [hc, (coercionOf_eq_ok_place _ 0).mp hc]
      | error e =>
        cases hc' : coercionOf nodes 0 s t with
        | ok c => cases hc.symm.trans ((coercionOf_eq_ok_place 0 _).mp hc')
        | error e' => simp [hc, hc', ne_nil_of_coercionOf_eq_error hc]

theorem linksIssues_eq_nil_iff {before specs : List LinkSpec} :
    linksIssues nodes before specs = [] ↔
      (∀ spec ∈ specs, spec ∉ before) ∧ specs.Nodup ∧ ∀ spec ∈ specs, ∃ l, linkOf? nodes spec = some l := by
  induction specs generalizing before with
  | nil => simp [linksIssues]
  | cons spec rest ih =>
    simp only [linksIssues, List.append_eq_nil_iff, linkIssues_eq_nil_iff, ih,
      List.forall_mem_cons, List.nodup_cons, List.mem_append, List.mem_singleton, not_or]
    constructor
    · rintro ⟨⟨hb, hl⟩, hr, hd, hls⟩
      exact ⟨⟨hb, fun s hs => (hr s hs).1⟩, ⟨fun hm => (hr spec hm).2 rfl, hd⟩, hl, hls⟩
    · rintro ⟨⟨hb, hr⟩, ⟨hne, hd⟩, hl, hls⟩
      exact ⟨⟨hb, hl⟩, fun s hs => ⟨hr s hs, fun he => hne (he ▸ hs)⟩, hd, hls⟩

/-- When every link is kept, they stand for the written ones one by one. -/
theorem forall₂_links (h : Named nodes) {specs : List LinkSpec}
    (hl : ∀ spec ∈ specs, ∃ l, linkOf? nodes spec = some l) :
    List.Forall₂ (LinkSpec.Denotes nodes) specs (specs.filterMap (linkOf? nodes)) := by
  induction specs with
  | nil => exact .nil
  | cons spec rest ih =>
    simp only [List.forall_mem_cons] at hl
    obtain ⟨⟨l, hs⟩, hr⟩ := hl
    rw [List.filterMap_cons_some hs]
    exact .cons ((linkOf?_eq_some_iff h).mp hs) (ih hr)

theorem links_eq_of_forall₂ (h : Named nodes) {specs : List LinkSpec} {links : List Link}
    (hl : List.Forall₂ (LinkSpec.Denotes nodes) specs links) :
    links = specs.filterMap (linkOf? nodes) := by
  induction hl with
  | nil => rfl
  | cons hs _ ih => rw [List.filterMap_cons_some ((linkOf?_eq_some_iff h).mpr hs), ih]

theorem isWired_iff {specs : List LinkSpec} {id port : String} :
    isWired specs id port = true ↔
      ∃ spec ∈ specs, PortRef.parse? spec.target = some ⟨.node id, port⟩ := by
  simp only [isWired, List.any_eq_true]
  refine exists_congr fun spec => and_congr_right fun _ => ?_
  constructor
  · intro hw
    split at hw
    · next t ht =>
      simp only [Bool.and_eq_true, decide_eq_true_eq] at hw
      rw [(targetOf_eq_ok_iff.mp ht).1, ← hw.1, ← hw.2]
    · cases hw
  · intro hp
    rw [targetOf_eq_ok_iff.mpr ⟨hp, by simp⟩]
    simp

theorem unwiredIssues_eq_nil_iff {specs : List LinkSpec} :
    unwiredIssues nodes specs = [] ↔ ∀ e ∈ nodes, ∀ p ∈ e.2.inputs, p.optional = false →
      ∃ spec ∈ specs, PortRef.parse? spec.target = some ⟨.node e.1, p.name⟩ := by
  simp [unwiredIssues, List.filter_eq_nil_iff, ← isWired_iff]

theorem nodeId?_eq_some_iff {r : PortRef} {id : String} :
    r.nodeId? = some id ↔ ∃ port, r = ⟨.node id, port⟩ := by
  obtain ⟨endpoint, port⟩ := r
  cases endpoint <;> simp [PortRef.nodeId?, Endpoint.nodeId?]

theorem arcOf?_eq_some_iff {spec : LinkSpec} {i j : Nat} :
    arcOf? nodes spec = some (i, j) ↔
      ∃ a p b q, PortRef.parse? spec.source = some ⟨.node a, p⟩ ∧
        PortRef.parse? spec.target = some ⟨.node b, q⟩ ∧
        nodes.findIdx? (fun e => e.1 = a) = some i ∧ nodes.findIdx? (fun e => e.1 = b) = some j := by
  unfold arcOf?
  constructor
  · intro h
    split at h
    · next s t hs ht =>
      simp only [Option.bind_eq_bind, Option.bind_eq_some_iff, Option.some.injEq,
        Prod.mk.injEq] at h
      obtain ⟨a, ha, _, hi, b, hb, _, hj, rfl, rfl⟩ := h
      obtain ⟨p, rfl⟩ := nodeId?_eq_some_iff.mp ha
      obtain ⟨q, rfl⟩ := nodeId?_eq_some_iff.mp hb
      exact ⟨a, p, b, q, (sourceOf_eq_ok_iff.mp hs).1, (targetOf_eq_ok_iff.mp ht).1, hi, hj⟩
    · cases h
  · rintro ⟨a, p, b, q, hs, ht, hi, hj⟩
    rw [sourceOf_eq_ok_iff.mpr ⟨hs, by simp⟩, targetOf_eq_ok_iff.mpr ⟨ht, by simp⟩]
    simp [PortRef.nodeId?, Endpoint.nodeId?, hi, hj]

end Workflow.Flow
