import Workflow.Proofs.Run.Coordination
import Workflow.Proofs.Run.Gathering
import Workflow.Proofs.Run.Typing

namespace Workflow

namespace Progress

variable {p : Plan} {s t : Progress} {ctx : Context} {inputs given : Inputs} {c : Completion}
variable {e i : Nat} {id : String} {n : Node} {v : LinkState}
variable {resolve : Link → Nat → Except RunError (Option Json)}

/-- Every value that a link has delivered has passed the check at the port that the link leads to. -/
def Checked (p : Plan) (s : Progress) : Prop :=
  ∀ e l v, p.flow.links[e]? = some l → s.links[e]? = some (.delivered v) → p.checkTarget l e v = .ok ()

/-- A rule gives links only values that pass the check. -/
def Checks (p : Plan) (resolve : Link → Nat → Except RunError (Option Json)) : Prop :=
  ∀ l e v, resolve l e = .ok (some v) → p.checkTarget l e v = .ok ()

theorem checks_bound : Checks p (bound p ctx inputs) := by
  intro l e v h
  unfold bound at h
  split at h
  · exact Plan.checkTarget_of_deliver h
  · split at h <;> cases h

theorem checks_outputOn {output : Json} : Checks p (outputOn p ctx n output) := by
  intro l e v h
  unfold outputOn at h
  split at h
  · split at h
    · cases h
    · exact Plan.checkTarget_of_deliver h
  · cases h

theorem checks_errorOn {value : Json} : Checks p (errorOn p ctx n value) := by
  intro l e v h
  unfold errorOn at h
  split at h
  · exact Plan.checkTarget_of_deliver h
  · cases h

theorem checked_start : Checked p (start p) := by
  intro e l v _ hv
  rw [start, List.getElem?_replicate] at hv
  split at hv <;> cases hv

namespace Checked

theorem congr (h : Checked p s) (hl : t.links = s.links) : Checked p t := by
  intro e l v
  rw [hl]
  exact h e l v

theorem settle (h : Checked p s)
    (hv : ∀ l w, p.flow.links[e]? = some l → v = .delivered w → p.checkTarget l e w = .ok ()) :
    Checked p (s.settle p e v) := by
  intro e' l w hl hw
  rw [settle_links, List.getElem?_set] at hw
  split at hw
  · next heq =>
    subst heq
    split at hw
    · exact hv l w hl (Option.some.inj hw)
    · cases hw
  · exact h e' l w hl hw

theorem settle_empty (h : Checked p s) (e : Nat) : Checked p (s.settle p e .empty) :=
  h.settle fun _ _ _ hw => by cases hw

theorem settle_stateOf (h : Checked p s) (hr : Checks p resolve) {l : Link} {v : Option Json}
    (hl : p.flow.links[e]? = some l) (hv : resolve l e = .ok v) : Checked p (s.settle p e (stateOf v)) := by
  refine h.settle fun l' w hl' hw => ?_
  cases hl.symm.trans hl'
  cases v with
  | none => cases hw
  | some w' =>
    cases hw
    exact hr l e w hv

theorem settleAll (h : Checked p s) (hr : Checks p resolve) (es : List Nat) :
    Checked p (s.settleAll p resolve es) := by
  induction es generalizing s with
  | nil => exact h
  | cons e es ih =>
    rw [Progress.settleAll]
    split
    · exact ih h
    · next l hl =>
      split
      · next v hv => exact ih (h.settle_stateOf hr hl hv)
      · exact h.congr rfl

theorem skip (h : Checked p s) (i : Nat) : Checked p (s.skip p i) := by
  have hnoted : Checked p { s with trace := s.trace ++ [⟨p.idOf i, .skipped, 0, none, 0, none⟩] } :=
    h.congr rfl
  exact List.foldlRecOn (p.outOf i) _ hnoted fun _ hs e _ => hs.settle_empty e

theorem bindInputs (h : Checked p s) : Checked p (s.bindInputs p ctx inputs) := by
  unfold Progress.bindInputs
  refine List.foldlRecOn p.inputLinks _ h fun s hs e _ => ?_
  unfold bindInput
  split
  · exact hs
  · next l hl =>
    split
    · next v hv => exact hs.settle_stateOf checks_bound hl hv
    · refine settle_empty ?_ e
      exact hs.congr rfl

theorem complete (h : Checked p s) : Checked p (s.complete p ctx c) := by
  unfold Progress.complete
  split
  · exact h
  · dsimp only
    split
    · split
      · exact h.congr rfl
      · refine settleAll ?_ checks_outputOn _
        exact h.congr rfl
    · split
      · refine settleAll ?_ checks_errorOn _
        exact h.congr rfl
      · exact h.congr rfl
    · exact h.congr rfl

end Checked

/-- At each port that must have a value some link has delivered one. -/
def Supplied (p : Plan) (s : Progress) (id : String) (n : Node) : Prop :=
  ∀ q ∈ n.inputs, q.optional = false → ∃ e v, Arrived p s ⟨.node id, q.name⟩ e v

/-- A node is given the value of the first link that delivers one to a port. It has a port for every value,
and the value fits there. -/
structure Fed (p : Plan) (s : Progress) (id : String) (n : Node) (given : Inputs) : Prop where
  first : ∀ name v, given.get? name = some v ↔ First p s ⟨.node id, name⟩ v
  fits : ∀ x ∈ given, ∃ q ∈ n.inputs, q.name = x.1 ∧ q.Admits x.2

theorem exists_first_iff {r : PortRef} : (∃ v, First p s r v) ↔ ∃ e v, Arrived p s r e v := by
  constructor
  · rintro ⟨v, e, h, _⟩
    exact ⟨e, v, h⟩
  · intro h
    classical
    obtain ⟨v, hv⟩ := Nat.find_spec h
    exact ⟨v, Nat.find h, hv, fun e he w hw => Nat.find_min h he ⟨w, hw⟩⟩

theorem mem_into_iff (ht : p.Tabled) (hp : p.Typed) (hn : p.flow.nodes[i]? = some (id, n)) :
    e ∈ p.into i ↔ ∃ l, p.flow.links[e]? = some l ∧ l.target.endpoint = .node id := by
  rw [ht.mem_into, Plan.targetOf?, Option.bind_eq_some_iff]
  exact exists_congr fun l => and_congr_right fun _ => hp.placeAt?_eq_some_iff hn

theorem mem_outOf_iff (ht : p.Tabled) (hp : p.Typed) (hn : p.flow.nodes[i]? = some (id, n)) :
    e ∈ p.outOf i ↔ ∃ l, p.flow.links[e]? = some l ∧ l.source.endpoint = .node id := by
  rw [ht.mem_outOf, Plan.sourceOf?, Option.bind_eq_some_iff]
  exact exists_congr fun l => and_congr_right fun _ => hp.placeAt?_eq_some_iff hn

theorem get?_delivered_into (ht : p.Tabled) (hp : p.Typed) (hs : (p.into i).Pairwise (· < ·))
    (hn : p.flow.nodes[i]? = some (id, n)) (name : String) (v : Json) :
    (s.delivered p (p.into i)).get? name = some v ↔ First p s ⟨.node id, name⟩ v :=
  get?_delivered_iff (r := ⟨.node id, name⟩) hs fun _ => mem_into_iff ht hp hn

theorem fits_of_mem_delivered (ht : p.Tabled) (hp : p.Typed) (hn : p.flow.nodes[i]? = some (id, n))
    (hc : Checked p s) {x : String × Json} (hx : x ∈ s.delivered p (p.into i)) :
    ∃ q ∈ n.inputs, q.name = x.1 ∧ q.Admits x.2 := by
  obtain ⟨e, he, l, hl, hport, hv⟩ := mem_delivered hx
  obtain ⟨l', hl', hend⟩ := (mem_into_iff ht hp hn).mp he
  cases hl.symm.trans hl'
  obtain ⟨_, target, _, ht, _⟩ := hp.ends l (List.mem_of_getElem? hl)
  have hcheck := hc e l x.2 hl hv
  generalize hr : l.target = r at ht
  cases ht with
  | output port =>
    rw [hr] at hend
    cases hend
  | @node id' n' q hn' hq =>
    rw [hr] at hend hport
    cases hend
    cases List.inj_on_of_nodup_map hp.ids_nodup hn' (List.mem_of_getElem? hn) rfl
    exact ⟨q, hq, hport, (hp.checkTarget_iff hn' hq hr).mp hcheck⟩

theorem contains_delivered_iff (ht : p.Tabled) (hp : p.Typed) (hs : (p.into i).Pairwise (· < ·))
    (hn : p.flow.nodes[i]? = some (id, n)) (name : String) :
    (s.delivered p (p.into i)).contains name = true ↔ ∃ e v, Arrived p s ⟨.node id, name⟩ e v := by
  rw [Assoc.contains, Option.isSome_iff_exists, ← exists_first_iff]
  exact exists_congr fun v => get?_delivered_into ht hp hs hn name v

/-- The inputs of a node are complete when it is supplied at every port that must have a value. -/
theorem gather_eq (ht : p.Tabled) (hp : p.Typed) (hs : (p.into i).Pairwise (· < ·))
    (hn : p.flow.nodes[i]? = some (id, n)) [Decidable (Supplied p s id n)] :
    s.gather p i = if Supplied p s id n then some (s.delivered p (p.into i)) else none := by
  have hall : (n.inputs.all fun q => q.optional || (s.delivered p (p.into i)).contains q.name) = true ↔
      Supplied p s id n := by
    rw [List.all_eq_true]
    refine forall₂_congr fun q _ => ?_
    rw [Bool.or_eq_true, contains_delivered_iff ht hp hs hn, ← Bool.not_eq_false, or_iff_not_imp_left,
      not_not]
  simp only [gather, hn, hall]

theorem skip_trace (i : Nat) :
    (s.skip p i).trace = s.trace ++ [⟨p.idOf i, .skipped, 0, none, 0, none⟩] := by
  rw [skip_eq, settleEach_trace]

theorem links_skip (ht : p.Tabled) (hlen : s.links.length = p.flow.links.length) (he : e ∈ p.outOf i) :
    (s.skip p i).links[e]? = some .empty := by
  have hfst : ((p.outOf i).map (fun e => (e, (none : Option Json)))).map Prod.fst = p.outOf i := by
    simp [Function.comp_def]
  rw [skip_eq]
  refine links_settleEach_of_mem (r := (e, none)) (hfst.symm ▸ ht.outOf_nodup i)
    (List.mem_map.mpr ⟨e, he, rfl⟩) ?_
  rw [hlen]
  exact outOf_lt ht he

end Progress

namespace Coordination

open Progress

variable {p : Plan} {ctx : Context} {inputs : Inputs} {ms : List Move} {m : Move} {c c' : Coordination}
variable {i : Nat}

theorem Reached.checked (h : Reached p ctx inputs ms c) : Checked p c.progress := by
  induction h with
  | opened => exact checked_start.bindInputs
  | step _ hs ih =>
    cases hs with
    | start _ _ _ => exact ih.congr rfl
    | pass _ _ _ =>
      refine Checked.skip ?_ _
      exact ih.congr rfl
    | join _ _ => exact ih.complete
    | abort _ _ => exact ih.congr rfl

/-- What becomes of a node that is ready, once its turn has come: every link into it has its result. With a
value at each port that must have one it starts, and otherwise it is passed over. -/
structure Taken (p : Plan) (c : Coordination) (m : Move) (c' : Coordination) (i : Nat) (id : String)
    (n : Node) : Prop where
  settled : ∀ e l, p.flow.links[e]? = some l → l.target.endpoint = .node id →
    c.progress.isPending e = false
  starts_iff : (∃ given, m = .start i given) ↔ Supplied p c.progress id n
  fed : ∀ given, m = .start i given → Fed p c.progress id n given ∧ c'.running = c.running ++ [(i, given)]
  passed : ¬ Supplied p c.progress id n → m = .pass i ∧ c'.running = c.running ∧
    c'.progress.trace = c.progress.trace ++ [⟨id, .skipped, 0, none, 0, none⟩] ∧
    ∀ (e : Nat) (l : Link), p.flow.links[e]? = some l → l.source.endpoint = .node id →
      c'.progress.links[e]? = some .empty

theorem Kept.settled_of_ready (ht : p.Tabled) (hp : p.Typed) (hk : Kept p ms c) {x : Nat × Nat}
    {rest : List (Nat × Nat)} (hr : c.progress.ready = x :: rest) :
    ∃ id n, p.flow.nodes[x.2]? = some (id, n) ∧ ∀ e l, p.flow.links[e]? = some l →
      l.target.endpoint = .node id → c.progress.isPending e = false := by
  have hmem : x.2 ∈ c.progress.ready.map Prod.snd ++ (c.running.map Prod.fst ++ ended ms) := by
    rw [hr]
    exact List.mem_append_left _ List.mem_cons_self
  obtain ⟨hlt, hz⟩ := (hk.consistent.counted.mem x.2).mp hmem
  obtain ⟨id, n, hn⟩ := node?_of_lt hlt
  refine ⟨id, n, hn, fun e l hl he => (pendingInto_eq_zero_iff ht).mp hz e ?_⟩
  exact (ht.mem_into x.2 e).mp ((mem_into_iff ht hp hn).mpr ⟨l, hl, he⟩)

/-- A node of a valid workflow starts exactly when it is supplied, and then with values that fit; otherwise
it is passed over, and the links out of it deliver nothing. -/
theorem taken_of_step {d : Document} {f : Flow} (hv : Flow.validate d = .ok f) (hp : Plan.ofFlow f = .ok p)
    (h : Reached p ctx inputs ms c) (hs : Step p ctx c m c') (hm : m.placed? = some i) :
    ∃ id n, f.nodes[i]? = some (id, n) ∧ Taken p c m c' i id n := by
  have ht := Plan.tabled_of_ofFlow hp
  have htyped := Plan.typed_of_ofFlow hv hp
  have hsorted := Plan.into_pairwise hp i
  obtain ⟨rfl, _⟩ := Plan.eq_of_ofFlow hp
  have hk := h.kept ht (Flow.regular_of_validate hv)
  have hchecked := h.checked
  classical
  cases hs with
  | start _ hr hg =>
    cases hm
    obtain ⟨id, n, hn, hsettled⟩ := hk.settled_of_ready ht htyped hr
    rw [gather_eq ht htyped hsorted hn] at hg
    split at hg
    · next hsup =>
      cases hg
      refine ⟨id, n, hn, hsettled, ⟨fun _ => hsup, fun _ => ⟨_, rfl⟩⟩, ?_, fun hnot => absurd hsup hnot⟩
      rintro _ ⟨⟩
      exact ⟨⟨get?_delivered_into ht htyped hsorted hn,
        fun x hx => fits_of_mem_delivered ht htyped hn hchecked hx⟩, rfl⟩
    · cases hg
  | @pass _ _ x _ _ hr hg =>
    cases hm
    obtain ⟨id, n, hn, hsettled⟩ := hk.settled_of_ready ht htyped hr
    rw [gather_eq ht htyped hsorted hn] at hg
    split at hg
    · cases hg
    · next hnot =>
      have hstart : ∀ given, Move.pass x.2 ≠ .start x.2 given := fun _ h => by cases h
      refine ⟨id, n, hn, hsettled, ⟨fun ⟨given, h⟩ => absurd h (hstart given), fun hsup => absurd hsup hnot⟩,
        fun given h => absurd h (hstart given), fun _ => ⟨rfl, rfl, ?_, fun e l hl he => ?_⟩⟩
      · rw [skip_trace, idOf_of_node? hn]
      · exact links_skip ht hk.consistent.counted.links_length
          ((mem_outOf_iff ht htyped hn).mpr ⟨l, hl, he⟩)
  | join _ _ => cases hm
  | abort _ _ => cases hm

/-- A list could not be made, which is told at the error port. -/
def unlisted : Progress :=
  ({ Progress.start listingPlan with ready := [] } : Progress).complete listingPlan listingContext
    ⟨0, .failed lost, 2, none, 0⟩

/-- When no list could be made, no row can be taken. -/
theorem taken_unlisted : ∃ ms c', Reached listingPlan listingContext [] ms ⟨unlisted, []⟩ ∧
    Step listingPlan listingContext ⟨unlisted, []⟩ (.pass 1) c' ∧
    Taken listingPlan ⟨unlisted, []⟩ (.pass 1) c' 1 "take" taker ∧
    c'.progress.trace.map Record.status = [.routed, .skipped] := by
  have hopened : Reached listingPlan listingContext [] [] (opened listingPlan listingContext []) := .opened
  have hstarted : Reached listingPlan listingContext [] [.start 0 []]
      ⟨{ Progress.start listingPlan with ready := [] }, [(0, [])]⟩ :=
    hopened.step (@Step.start _ _ _ _ (0, 0) [] [] rfl rfl (by rfl))
  have hended : Reached listingPlan listingContext [] [.start 0 [], .join [] ⟨0, .failed lost, 2, none, 0⟩]
      ⟨unlisted, []⟩ :=
    hstarted.step (Step.join List.mem_cons_self fun h => by cases h)
  have hpassed : Step listingPlan listingContext ⟨unlisted, []⟩ (.pass 1)
      ⟨({ unlisted with ready := [] } : Progress).skip listingPlan 1, []⟩ :=
    @Step.pass _ _ _ _ (1, 1) [] rfl rfl (by rfl)
  obtain ⟨id, n, hn, htaken⟩ := taken_of_step validate_listing ofFlow_listing hended hpassed rfl
  cases hn
  exact ⟨_, _, hended, hpassed, htaken, rfl⟩

end Coordination

end Workflow
