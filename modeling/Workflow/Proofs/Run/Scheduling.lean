import Workflow.Proofs.Run.Drive

namespace Workflow.Coordination

variable {p : Plan} {ctx : Context} {inputs : Inputs} {ms : List Move} {c : Coordination}

/-- The number of links of a flow that lead to a node and have no result yet. -/
def pendingLinks (p : Plan) (s : Progress) (i : Nat) : Nat :=
  (List.range p.flow.links.length).countP (fun e => p.targetOf? e = some i && s.isPending e)

/-- What scheduling ensures in every state of a run. Links get results one by one: each was pending
before, and its node was waiting. A node waits for exactly the links that are pending; when there are
none, it is ready, was started or was passed over, each node only once. The record of a node stands
behind those of all nodes that feed it. -/
structure Scheduled (p : Plan) (ms : List Move) (c : Coordination) : Prop where
  settled_once : ∃ log, Progress.Settling p (Progress.start p) log (placed ms) c.progress ∧ log.Nodup
  waiting : ∀ i < p.size, c.progress.waiting[i]? = some (pendingLinks p c.progress i)
  due : ∀ i < p.size, c.progress.waiting[i]? = some 0 ↔
    i ∈ c.progress.ready.map Prod.snd ∨ i ∈ started ms ∨ i ∈ passed ms
  exclusive : (c.progress.ready.map Prod.snd ++ (started ms ++ passed ms)).Nodup
  recorded_once : (c.progress.trace.map Record.nodeId).Nodup
  behind : ∀ l ∈ p.flow.links, ∀ a b, l.source.endpoint = .node a → l.target.endpoint = .node b →
    ∀ (k : Nat) (r : Record), c.progress.trace[k]? = some r → r.nodeId = b →
      ∃ (j : Nat) (q : Record), j < k ∧ c.progress.trace[j]? = some q ∧ q.nodeId = a ∧
        q.status.Settles

theorem pendingLinks_eq (ht : p.Tabled) (s : Progress) (i : Nat) :
    pendingLinks p s i = Progress.pendingInto p s i := by
  have hperm : (p.into i).Perm
      ((List.range p.flow.links.length).filter (fun e => p.targetOf? e = some i)) := by
    refine (List.perm_ext_iff_of_nodup (ht.into_nodup i) (List.nodup_range.filter _)).mpr fun e => ?_
    rw [ht.mem_into, List.mem_filter, List.mem_range, decide_eq_true_iff]
    exact ⟨fun h => ⟨Progress.targetOf?_lt_links h, h⟩, And.right⟩
  rw [Progress.pendingInto, hperm.countP_eq, List.countP_filter, pendingLinks]
  exact List.countP_congr fun e _ => by simp [and_comm]

theorem Kept.gone_perm (h : Kept p ms c) :
    (c.running.map Prod.fst ++ ended ms).Perm (started ms ++ passed ms) :=
  h.placed_perm.symm.trans (Coordination.placed_perm ms)

theorem Kept.recorded_nodup (hf : p.flow.Regular) (h : Kept p ms c) :
    (c.progress.trace.map Record.nodeId).Nodup := by
  rw [h.consistent.trace]
  refine h.ended_nodup.map_on fun i hi j hj hij => ?_
  exact Progress.idOf_inj hf (h.consistent.lt_of_ended hi) (h.consistent.lt_of_ended hj) hij

theorem exists_places (hf : p.flow.Regular) {l : Link} (hl : l ∈ p.flow.links) {a b : String}
    (ha : l.source.endpoint = .node a) (hb : l.target.endpoint = .node b) :
    ∃ e i j, p.sourceOf? e = some i ∧ p.targetOf? e = some j ∧ p.idOf i = a ∧ p.idOf j = b := by
  obtain ⟨e, he⟩ := List.mem_iff_getElem?.mp hl
  obtain ⟨i, hi⟩ := (hf.source l hl).resolve_left (by simp [ha])
  obtain ⟨j, hj⟩ := (hf.target l hl).resolve_left (by simp [hb])
  have hid : ∀ {r : Endpoint} {id : String} {k : Nat}, r = .node id → p.flow.placeAt? r = some k →
      p.idOf k = id := by
    intro r id k hr hk
    obtain ⟨id', hr', hid⟩ := Flow.placeAt?_eq_some hk
    rw [Plan.idOf, List.getD_eq_getElem?_getD, hid, Option.getD_some]
    exact (Endpoint.node.inj (hr.symm.trans hr')).symm
  refine ⟨e, i, j, ?_, ?_, hid ha hi, hid hb hj⟩
  · rw [Plan.sourceOf?, he, Option.bind_some, hi]
  · rw [Plan.targetOf?, he, Option.bind_some, hj]

/-- Every run of a valid workflow is scheduled rightly at all times, in whatever order its executions
end, also when it fails or is aborted. -/
theorem scheduled_of_reached {d : Document} {f : Flow} (hv : Flow.validate d = .ok f)
    (hp : Plan.ofFlow f = .ok p) (h : Reached p ctx inputs ms c) : Scheduled p ms c := by
  have hflow := (Plan.eq_of_ofFlow hp).1
  have hf : p.flow.Regular := hflow ▸ Flow.regular_of_validate hv
  have ht := Plan.tabled_of_ofFlow hp
  have hk := h.kept ht hf
  have hcounted := hk.consistent.counted.perm hk.gone_perm
  refine ⟨?_, fun i hi => ?_, fun i hi => ?_, hcounted.nodup, hk.recorded_nodup hf, ?_⟩
  · obtain ⟨log, hlog⟩ := h.settling ht hf
    exact ⟨log, hlog, hlog.log_nodup⟩
  · rw [hcounted.waiting i hi, pendingLinks_eq ht]
  · rw [hcounted.waiting i hi, Option.some.injEq, ← List.mem_append, ← List.mem_append, hcounted.mem]
    exact (and_iff_right hi).symm
  · intro l hl a b ha hb k r hk' hr
    obtain ⟨e, i, j, hi, hj, rfl, rfl⟩ := exists_places hf hl ha hb
    exact hk.consistent.ordered e i j hi hj k r hk' hr

def stage (inputs : List String) : Node where
  inputs := inputs.map (fun name => ⟨name, .string, false, none⟩)
  outputs := [⟨"out", .string, false, none⟩]
  errorPort := none
  transform := .code ""
  policy := {}
  state := none

/-- Two nodes side by side, and a third one that takes what both give. -/
def diamond : Document where
  version := "1.0"
  metadata := []
  requires := []
  nodes := [("left", stage ["in"]), ("right", stage ["in"]), ("both", stage ["a", "b"])]
  links := [⟨"_input.x", "left.in", none, none⟩, ⟨"_input.x", "right.in", none, none⟩,
    ⟨"left.out", "both.a", none, none⟩, ⟨"right.out", "both.b", none, none⟩,
    ⟨"both.out", "_output.y", none, none⟩]
  deployment := none

def diamondFlow : Flow where
  version := "1.0"
  metadata := []
  requires := []
  nodes := diamond.nodes
  links := [⟨⟨.input, "x"⟩, ⟨.node "left", "in"⟩, none, none, .identity⟩,
    ⟨⟨.input, "x"⟩, ⟨.node "right", "in"⟩, none, none, .identity⟩,
    ⟨⟨.node "left", "out"⟩, ⟨.node "both", "a"⟩, none, none, .identity⟩,
    ⟨⟨.node "right", "out"⟩, ⟨.node "both", "b"⟩, none, none, .identity⟩,
    ⟨⟨.node "both", "out"⟩, ⟨.output, "y"⟩, none, none, .identity⟩]
  deployment := none

def diamondPlan : Plan where
  flow := diamondFlow
  layerOf := [0, 0, 1]
  incoming := [[0], [1], [2, 3]]
  outgoing := [[2], [3], [4]]
  inputLinks := [0, 1]
  outputLinks := [4]
  schemas := []

def diamondContext : Context := ⟨none, none, "trace", "2024-01-01T00:00:00Z", none, []⟩

def diamondInputs : Inputs := [("x", .str "v")]

/-- A node of the diamond has succeeded at its first attempt. -/
def said (i : Nat) : Completion := ⟨i, .succeeded (.str "w"), 1, none, 0⟩

/-- The diamond after executions have ended in an order. -/
def diamondAfter (places : List Nat) : Coordination :=
  drive diamondPlan diamondContext (places.map said) (opened diamondPlan diamondContext diamondInputs)

set_option maxRecDepth 10000 in
theorem validate_diamond : Flow.validate diamond = .ok diamondFlow := by with_unfolding_all rfl

theorem ofFlow_diamond : Plan.ofFlow diamondFlow = .ok diamondPlan := by rfl

theorem diamond_reached (places : List Nat) (ha : Admits diamondPlan diamondContext (places.map said)
      (opened diamondPlan diamondContext diamondInputs)) :
    ∃ ms, Reached diamondPlan diamondContext diamondInputs ms (diamondAfter places) ∧
      ∀ m ∈ ms, m.placed?.isSome = true ∨ ∃ i given, m = .join given (said i) := by
  have hf : diamondPlan.flow.Regular := Flow.regular_of_validate validate_diamond
  obtain ⟨ms, hr, hms, _⟩ := drive_reached (Plan.tabled_of_ofFlow ofFlow_diamond) hf .opened ha
  refine ⟨ms, hr, fun m hm => (hms m hm).imp_right ?_⟩
  rintro ⟨e, he, given, rfl⟩
  obtain ⟨i, _, rfl⟩ := List.mem_map.mp he
  exact ⟨i, given, rfl⟩

/-- The diamond while its third node is under way. -/
theorem scheduled_diamond : ∃ ms, Scheduled diamondPlan ms (diamondAfter [1, 0]) ∧
    (diamondAfter [1, 0]).running.map Prod.fst = [2] := by
  obtain ⟨ms, hr, _⟩ := diamond_reached [1, 0]
    ⟨by decide +kernel, fun h => by injection h, by decide +kernel, fun h => by injection h, trivial⟩
  exact ⟨ms, scheduled_of_reached validate_diamond ofFlow_diamond hr, by decide +kernel⟩

/-- The third node ends last; the first two may end in either order. -/
theorem admits_diamond {i j : Nat} (h : i = 0 ∧ j = 1 ∨ i = 1 ∧ j = 0) :
    Admits diamondPlan diamondContext ([i, j, 2].map said)
      (opened diamondPlan diamondContext diamondInputs) := by
  obtain ⟨rfl, rfl⟩ | ⟨rfl, rfl⟩ := h
  · exact ⟨by decide +kernel, fun h => by injection h, by decide +kernel, fun h => by injection h,
      by decide +kernel, fun h => by injection h, trivial⟩
  · exact ⟨by decide +kernel, fun h => by injection h, by decide +kernel, fun h => by injection h,
      by decide +kernel, fun h => by injection h, trivial⟩

end Workflow.Coordination
