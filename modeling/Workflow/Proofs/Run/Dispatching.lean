import Workflow.Proofs.Plan.Layers
import Workflow.Proofs.Run.Drive

namespace Workflow

namespace Progress

variable {p : Plan} {s t : Progress} {e i n : Nat} {v : LinkState} {x y : Nat × Nat}
variable {rs : List (Nat × Option Json)} {xs ys : List (Nat × Nat)} {started : List (Nat × Inputs)}

theorem not_before_self (x : Nat × Nat) : ¬ Before x x := by
  simp [Before]

/-- What is taken in turn from the nodes that are ready, which of it starts, and what then has come of the
run: a node without all its inputs is passed over, and this may make others ready. -/
inductive Takes (p : Plan) : Progress → List (Nat × Nat) → List (Nat × Inputs) → Progress → Prop where
  | nothing {s : Progress} : Takes p s [] [] s
  | start {s t : Progress} {x : Nat × Nat} {rest xs : List (Nat × Nat)} {given : Inputs}
      {started : List (Nat × Inputs)} (hr : s.ready = x :: rest)
      (hg : ({ s with ready := rest } : Progress).gather p x.2 = some given)
      (h : Takes p { s with ready := rest } xs started t) :
      Takes p s (x :: xs) ((x.2, given) :: started) t
  | pass {s t : Progress} {x : Nat × Nat} {rest xs : List (Nat × Nat)} {started : List (Nat × Inputs)}
      (hr : s.ready = x :: rest)
      (hg : ({ s with ready := rest } : Progress).gather p x.2 = none)
      (h : Takes p (({ s with ready := rest } : Progress).skip p x.2) xs started t) :
      Takes p s (x :: xs) started t

theorem exists_takes_dispatch (p : Plan) (n : Nat) (s : Progress) :
    ∃ xs, Takes p s xs (s.dispatch p n).2 (s.dispatch p n).1 := by
  induction n generalizing s with
  | zero => exact ⟨[], .nothing⟩
  | succ n ih =>
    cases hr : s.ready with
    | nil =>
      rw [dispatch, hr]
      exact ⟨[], .nothing⟩
    | cons x rest =>
      cases hg : ({ s with ready := rest } : Progress).gather p x.2 with
      | none =>
        obtain ⟨xs, h⟩ := ih (({ s with ready := rest } : Progress).skip p x.2)
        rw [dispatch, hr]
        simp only [hg]
        exact ⟨x :: xs, .pass hr hg h⟩
      | some given =>
        obtain ⟨xs, h⟩ := ih { s with ready := rest }
        rw [dispatch, hr]
        simp only [hg]
        exact ⟨x :: xs, .start hr hg h⟩

theorem ready_subset_settle : s.ready ⊆ (s.settle p e v).ready := by
  cases h : p.targetOf? e with
  | none =>
    rw [settle_of_none h]
    exact List.Subset.refl _
  | some i =>
    rw [settle_of_some h]
    intro x hx
    dsimp only
    split
    · exact mem_insertPair.mpr (.inr hx)
    · exact hx

/-- A result for a link makes no node ready but the one that the link leads to. -/
theorem mem_ready_settle (h : x ∈ (s.settle p e v).ready) :
    x ∈ s.ready ∨ p.targetOf? e = some x.2 ∧ x.1 = p.layer x.2 := by
  cases ht : p.targetOf? e with
  | none =>
    rw [settle_of_none ht] at h
    exact .inl h
  | some i =>
    rw [settle_of_some ht] at h
    dsimp only at h
    split at h
    · rcases mem_insertPair.mp h with rfl | h
      · exact .inr ⟨rfl, rfl⟩
      · exact .inl h
    · exact .inl h

theorem ready_subset_settleEach : s.ready ⊆ (s.settleEach p rs).ready := by
  induction rs generalizing s with
  | nil => exact List.Subset.refl _
  | cons r rs ih => exact List.Subset.trans ready_subset_settle ih

theorem mem_ready_settleEach (h : x ∈ (s.settleEach p rs).ready) :
    x ∈ s.ready ∨ ∃ e ∈ rs.map Prod.fst, p.targetOf? e = some x.2 ∧ x.1 = p.layer x.2 := by
  induction rs generalizing s with
  | nil => exact .inl h
  | cons r rs ih =>
    rcases ih h with h | ⟨e, he, h⟩
    · exact (mem_ready_settle h).imp_right fun h => ⟨r.1, List.mem_cons_self, h⟩
    · exact .inr ⟨e, List.mem_cons_of_mem _ he, h⟩

theorem ready_subset_skip : s.ready ⊆ (s.skip p i).ready := by
  rw [skip_eq]
  intro x hx
  exact ready_subset_settleEach hx

theorem mem_ready_skip (h : x ∈ (s.skip p i).ready) :
    x ∈ s.ready ∨ ∃ e ∈ p.outOf i, p.targetOf? e = some x.2 ∧ x.1 = p.layer x.2 := by
  rw [skip_eq] at h
  simpa only [List.map_map, Function.comp_def, List.map_id'] using mem_ready_settleEach h

namespace Takes

/-- What is ready stays so until it is taken. -/
theorem mem_or_mem (h : Takes p s xs started t) (hx : x ∈ s.ready) : x ∈ xs ∨ x ∈ t.ready := by
  induction h with
  | nothing => exact .inr hx
  | start hr _ _ ih =>
    rcases List.mem_cons.mp (hr ▸ hx) with rfl | hx
    · exact .inl List.mem_cons_self
    · exact (ih hx).imp_left (List.mem_cons_of_mem _)
  | pass hr _ _ ih =>
    rcases List.mem_cons.mp (hr ▸ hx) with rfl | hx
    · exact .inl List.mem_cons_self
    · exact (ih (ready_subset_skip hx)).imp_left (List.mem_cons_of_mem _)

theorem split (h : Takes p s (xs ++ ys) started t) :
    ∃ first rest u, Takes p s xs first u ∧ Takes p u ys rest t := by
  induction xs generalizing s started with
  | nil => exact ⟨[], started, s, .nothing, h⟩
  | cons x xs ih =>
    cases h with
    | start hr hg h =>
      obtain ⟨first, rest, u, h₁, h₂⟩ := ih h
      exact ⟨_, rest, u, .start hr hg h₁, h₂⟩
    | pass hr hg h =>
      obtain ⟨first, rest, u, h₁, h₂⟩ := ih h
      exact ⟨first, rest, u, .pass hr hg h₁, h₂⟩

theorem ready_eq_cons (h : Takes p s (x :: xs) started t) : ∃ rest, s.ready = x :: rest := by
  cases h with
  | start hr _ _ => exact ⟨_, hr⟩
  | pass hr _ _ => exact ⟨_, hr⟩

end Takes

end Progress

namespace Coordination

open Progress

variable {f : Flow} {p : Plan} {ctx : Context} {inputs : Inputs} {ms : List Move} {s t : Progress}
variable {running started : List (Nat × Inputs)} {x : Nat × Nat} {rest xs : List (Nat × Nat)} {gone : List Nat}

/-- What is taken from the nodes that are ready: by increasing layer and place, each with the layer that it
has, no more than there are nodes, and none before another one that was ready and comes first. -/
structure Dispatched (p : Plan) (s : Progress) (xs : List (Nat × Nat)) : Prop where
  increasing : xs.Pairwise Before
  placed : ∀ x ∈ xs, x.2 < p.size ∧ x.1 = p.layer x.2
  bounded : xs.length ≤ p.size
  after : ∀ before y later, xs = before ++ y :: later → ∀ x ∈ s.ready, Before x y → x ∈ before

/-- With the first node gone, also when it was passed over, only nodes behind it are ready: links lead to
higher layers. -/
theorem before_of_mem_skip (hp : Plan.ofFlow f = .ok p) (hf : f.Regular) (hc : Counted p s gone)
    (hr : s.ready = x :: rest) {y : Nat × Nat}
    (hy : y ∈ (({ s with ready := rest } : Progress).skip p x.2).ready) : Before x y := by
  rcases mem_ready_skip hy with hy | ⟨e, he, ht, hl⟩
  · exact List.rel_of_pairwise_cons (hr ▸ hc.ready_sorted) hy
  · have hs := ((Plan.tabled_of_ofFlow hp).mem_outOf _ e).mp he
    have harc := Plan.arc_iff.mpr ⟨e, hs, ht⟩
    rw [(Plan.eq_of_ofFlow hp).1] at harc
    have hlt := Plan.layer_lt_of_arc hp hf harc
    have hx : x.1 = p.layer x.2 := hc.ready_layer x (hr ▸ List.mem_cons_self)
    exact .inl (by rw [hx, hl]; exact hlt)

/-- To take nodes is a sequence of moves. -/
theorem takes_reached (h : Reached p ctx inputs ms ⟨s, running⟩) (hs : s.isStopping = false)
    (ht : Takes p s xs started t) : ∃ ms', Reached p ctx inputs ms' ⟨t, running ++ started⟩ := by
  induction ht generalizing ms running with
  | nothing => exact ⟨ms, by rwa [List.append_nil]⟩
  | start hr hg _ ih =>
    rw [List.append_cons running]
    exact ih (h.step (Step.start hs hr hg)) hs
  | pass hr hg _ ih => exact ih (h.step (Step.pass hs hr hg)) (by rw [isStopping_skip]; exact hs)

theorem pairwise_cons_of_mem {ready : List (Nat × Nat)} (hr : x ∈ ready) (hx : ∀ y ∈ xs, Before x y)
    (hxs : xs.Pairwise Before) :
    (x :: xs).Pairwise Before ∧ ∀ b, (∀ y ∈ ready, Before b y) → ∀ y ∈ x :: xs, Before b y := by
  refine ⟨List.pairwise_cons.mpr ⟨hx, hxs⟩, fun b hb => ?_⟩
  have hbx := hb x hr
  exact List.forall_mem_cons.mpr ⟨hbx, fun y hy => hbx.trans (hx y hy)⟩

/-- Nodes are taken in order, and none before what stands before all that is ready. The latter carries the
induction: what is ready after a node was taken stands behind that node. -/
theorem takes_sorted (hp : Plan.ofFlow f = .ok p) (hf : f.Regular)
    (h : Reached p ctx inputs ms ⟨s, running⟩) (hs : s.isStopping = false)
    (ht : Takes p s xs started t) :
    xs.Pairwise Before ∧ ∀ b, (∀ y ∈ s.ready, Before b y) → ∀ x ∈ xs, Before b x := by
  have htab := Plan.tabled_of_ofFlow hp
  have hreg : p.flow.Regular := (Plan.eq_of_ofFlow hp).1 ▸ hf
  induction ht generalizing ms running with
  | nothing => exact ⟨.nil, fun _ _ _ hx => nomatch hx⟩
  | @start s t x rest xs given started hr hg _ ih =>
    have hc := (h.kept htab hreg).consistent.counted
    obtain ⟨hsorted, hbehind⟩ := ih (h.step (Step.start hs hr hg)) hs
    refine pairwise_cons_of_mem (hr ▸ List.mem_cons_self) (hbehind x fun y hy => ?_) hsorted
    exact List.rel_of_pairwise_cons (hr ▸ hc.ready_sorted) hy
  | @pass s t x rest xs started hr hg _ ih =>
    have hc := (h.kept htab hreg).consistent.counted
    obtain ⟨hsorted, hbehind⟩ := ih (h.step (Step.pass hs hr hg)) (by rw [isStopping_skip]; exact hs)
    refine pairwise_cons_of_mem (hr ▸ List.mem_cons_self) (hbehind x fun y hy => ?_) hsorted
    exact before_of_mem_skip hp hf hc hr hy

/-- When a node is taken it is the first of those that are ready then. -/
theorem counted_of_takes (ht : p.Tabled) (hf : p.flow.Regular) (h : Reached p ctx inputs ms ⟨s, running⟩)
    (hs : s.isStopping = false) {before later : List (Nat × Nat)} {y : Nat × Nat}
    (hy : Takes p s (before ++ y :: later) started t) :
    ∃ first u rest gone, Takes p s before first u ∧ u.ready = y :: rest ∧ Counted p u gone := by
  obtain ⟨first, _, u, hfirst, hthen⟩ := hy.split
  obtain ⟨rest, hr⟩ := hthen.ready_eq_cons
  obtain ⟨ms', h'⟩ := takes_reached h hs hfirst
  exact ⟨first, u, rest, _, hfirst, hr, (h'.kept ht hf).consistent.counted⟩

theorem dispatched_of_takes (hp : Plan.ofFlow f = .ok p) (hf : f.Regular)
    (h : Reached p ctx inputs ms ⟨s, running⟩) (hs : s.isStopping = false)
    (ht : Takes p s xs started t) : Dispatched p s xs := by
  have htab := Plan.tabled_of_ofFlow hp
  have hreg : p.flow.Regular := (Plan.eq_of_ofFlow hp).1 ▸ hf
  have hsorted := (takes_sorted hp hf h hs ht).1
  have hplaced : ∀ x ∈ xs, x.2 < p.size ∧ x.1 = p.layer x.2 := by
    intro x hx
    obtain ⟨before, later, rfl⟩ := List.append_of_mem hx
    obtain ⟨_, u, rest, gone, _, hr, hc⟩ := counted_of_takes htab hreg h hs ht
    have hready : x ∈ u.ready := hr ▸ List.mem_cons_self
    exact ⟨((hc.mem x.2).mp (List.mem_append_left _ (List.mem_map_of_mem hready))).1,
      hc.ready_layer x hready⟩
  refine ⟨hsorted, hplaced, ?_, ?_⟩
  · have hnodup := places_nodup hsorted fun x hx => (hplaced x hx).2
    have hsub : xs.map Prod.snd ⊆ List.range p.size := fun i hi => by
      obtain ⟨x, hx, rfl⟩ := List.mem_map.mp hi
      exact List.mem_range.mpr (hplaced x hx).1
    simpa only [List.length_map, List.length_range] using (hnodup.subperm hsub).length_le
  · rintro before y later rfl x hx hxy
    obtain ⟨_, u, rest, gone, hfirst, hr, hc⟩ := counted_of_takes htab hreg h hs ht
    refine (hfirst.mem_or_mem hx).resolve_right fun hu => ?_
    rcases List.mem_cons.mp (hr ▸ hu) with rfl | hu
    · exact not_before_self x hxy
    · have hyx := List.rel_of_pairwise_cons (hr ▸ hc.ready_sorted) hu
      exact not_before_self x (hxy.trans hyx)

/-- In every run of a valid workflow, as long as it is not stopping, nodes that are ready are taken by
increasing layer and place, with the ones made ready on the way in their places among them. A round takes
all of them. -/
theorem dispatch_order {d : Document} (hv : Flow.validate d = .ok f) (hp : Plan.ofFlow f = .ok p)
    {c : Coordination} (h : Reached p ctx inputs ms c) (hs : c.progress.isStopping = false) :
    (∀ xs started t, Takes p c.progress xs started t → Dispatched p c.progress xs) ∧
    ∃ xs, Takes p c.progress xs (c.progress.round p).2 (c.progress.round p).1 ∧
      (c.progress.round p).1.ready = [] := by
  have hf := Flow.regular_of_validate hv
  have htab := Plan.tabled_of_ofFlow hp
  have hreg : p.flow.Regular := (Plan.eq_of_ofFlow hp).1 ▸ hf
  refine ⟨fun xs started t ht => dispatched_of_takes hp hf h hs ht, ?_⟩
  obtain ⟨_, _, _, hnil⟩ := dispatch_reached htab hreg h hs p.size (Nat.le_add_right _ _)
  have hround : c.progress.round p = c.progress.dispatch p p.size := by
    rw [Progress.round, hs]
    rfl
  obtain ⟨xs, hxs⟩ := exists_takes_dispatch p p.size c.progress
  exact ⟨xs, hround ▸ hxs, hround ▸ hnil⟩

/-- Three nodes of which the last two are ready first. The second one goes without its input, and then the
first one is ready, which can do without one. -/
def cascade : Document where
  version := "1.0"
  metadata := []
  requires := []
  nodes := [("log", Plan.rung [⟨"text", .string, true, none⟩]),
    ("explain", Plan.rung [⟨"in", .string, false, none⟩]), ("use", Plan.rung [⟨"in", .string, false, none⟩])]
  links := [⟨"_input.x", "explain.in", some "false", none⟩, ⟨"_input.x", "use.in", none, none⟩,
    ⟨"explain.out", "log.text", none, none⟩]
  deployment := none

def cascadeFlow : Flow where
  version := "1.0"
  metadata := []
  requires := []
  nodes := cascade.nodes
  links := [⟨⟨.input, "x"⟩, ⟨.node "explain", "in"⟩, some "false", none, .identity⟩,
    ⟨⟨.input, "x"⟩, ⟨.node "use", "in"⟩, none, none, .identity⟩,
    ⟨⟨.node "explain", "out"⟩, ⟨.node "log", "text"⟩, none, none, .identity⟩]
  deployment := none

def cascadePlan : Plan where
  flow := cascadeFlow
  layerOf := [1, 0, 0]
  incoming := [[2], [0], [1]]
  outgoing := [[], [2], []]
  inputLinks := [0, 1]
  outputLinks := []
  schemas := []

def cascadeContext : Context := ⟨none, none, "trace", "2024-01-01T00:00:00Z", none, []⟩

def cascadeInputs : Inputs := [("x", .str "v")]

set_option maxRecDepth 10000 in
theorem validate_cascade : Flow.validate cascade = .ok cascadeFlow := by with_unfolding_all rfl

theorem ofFlow_cascade : Plan.ofFlow cascadeFlow = .ok cascadePlan := by rfl

/-- What is ready only because a node was passed over waits for the one of the lower layer. -/
theorem dispatch_order_cascade :
    (opened cascadePlan cascadeContext cascadeInputs).progress.ready = [(0, 1), (0, 2)] ∧
    ∃ started t,
      Takes cascadePlan (opened cascadePlan cascadeContext cascadeInputs).progress
        [(0, 1), (0, 2), (1, 0)] started t ∧
      Dispatched cascadePlan (opened cascadePlan cascadeContext cascadeInputs).progress
        [(0, 1), (0, 2), (1, 0)] ∧
      started.map Prod.fst = [2, 0] := by
  have htakes : Takes cascadePlan (opened cascadePlan cascadeContext cascadeInputs).progress
      [(0, 1), (0, 2), (1, 0)] [(2, [("in", .str "v")]), (0, [])] _ :=
    .pass (by rfl) (by rfl) (.start (by rfl) (by rfl) (.start (by rfl) (by rfl) .nothing))
  obtain ⟨hdispatched, _⟩ := dispatch_order validate_cascade ofFlow_cascade
    (.opened : Reached cascadePlan cascadeContext cascadeInputs [] _) (by decide +kernel)
  exact ⟨by decide +kernel, _, _, htakes, hdispatched _ _ _ htakes, rfl⟩

end Coordination

end Workflow
