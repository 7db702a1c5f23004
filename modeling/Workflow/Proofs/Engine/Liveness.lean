import Workflow.Proofs.Engine.Limits

namespace Workflow

variable {μ : Type}

/-- When an execution that makes attempts or pauses goes on by itself, at the latest. -/
def Phase.due {σ : Type} : Phase σ → Nat
  | .attempting _ _ _ _ wake limit => max wake.due limit.due
  | .pausing _ _ _ wake => wake.due
  | _ => 0

namespace Phase

variable {σ : Type} {phase : Phase σ}

theorem standing_ne_waiting (h : phase.standing .run = .inside) (gate : Gate) :
    phase.standing gate ≠ .waiting := by
  cases phase with
  | queued since other granted =>
    cases other <;> cases granted <;> cases gate <;> first | (cases h; done) | exact fun h => by cases h
  | fresh => cases h
  | attempting | pausing => exact fun h => by cases h

theorem standing_run_of_waiting (h : phase.standing .node = .waiting) : phase.standing .run = .outside := by
  obtain ⟨since, rfl⟩ := standing_eq_waiting_iff.mp h
  rfl

end Phase

namespace Schedule

variable {e : Engine μ} {c : Config} {caps : String → Nat} {s t : Schedule μ} {run place n since : Nat}
variable {k : Nat × Nat} {r : Run μ} {x : Execution (World μ)} {b : Backoff} {site : Site μ}

/-- The execution of a node has ended, or come at least so far. -/
def Beyond (n : Nat) (s : Schedule μ) (k : Nat × Nat) : Prop :=
  ∀ phase, s.phase? k = some phase → n ≤ phase.rank

theorem beyond_put (h : n ≤ x.phase.rank) : Beyond n (s.put run x) (run, x.place) := by
  intro phase hphase
  rw [phase?_put, Function.update_self] at hphase
  obtain ⟨_, _, rfl⟩ := Option.map_eq_some_iff.mp hphase
  exact h

theorem Tried.beyond (h : Tried s run x n t) : Beyond n t (run, x.place) := fun _ => h.le_rank

theorem beyond_enterRun : Beyond 3 (enterRun b site x since s) (site.run, x.place) := by
  unfold enterRun
  split
  · next hnone =>
    intro phase hphase
    rw [phase?, hnone] at hphase
    cases hphase
  · split
    dsimp only
    split
    · exact (Tried.mono (by decide) .begin).beyond
    · exact beyond_put (Nat.le_refl 3)

theorem beyond_enter : Beyond 1 (enter b site x s) (site.run, x.place) := by
  have hrun : ∀ {u : Schedule μ} {y : Execution (World μ)}, y.place = x.place →
      Beyond 1 (enterRun b site y s.now u) (site.run, x.place) := by
    intro u y hy phase hphase
    exact Nat.le_trans (by decide) (beyond_enterRun phase (hy ▸ hphase))
  unfold enter
  dsimp only
  split
  · exact hrun rfl
  · split
    · exact hrun rfl
    · exact beyond_put (Nat.le_refl 1)

/-- The turn of an execution that is to be cancelled, or has the permit it asked for and its time, ends it
or has it come further. -/
theorem beyond_turnNode (hr : s.runs[run]? = some r) (hx : r.execution? place = some x)
    (hsite : s.site? run place = some site)
    (hw : r.stopped = true ∨ ∀ gate, x.phase.standing gate ≠ .waiting) (hdue : x.phase.due ≤ s.now) :
    Beyond (x.phase.rank + 1) (s.turnNode b run place) (run, place) := by
  have hrun : site.run = run := (of_site? hsite).1
  have hplace := Run.place_of_execution? hx
  subst hrun hplace
  rw [turnNode, hr, hsite]
  dsimp only
  rw [hx]
  dsimp only
  split
  · intro phase hphase
    rw [phase?_finishCancelled] at hphase
    cases hphase
  · next hstop =>
    have hw := hw.resolve_left hstop
    split
    · next hphase =>
      rw [hphase]
      exact beyond_enter
    · next hphase =>
      rw [hphase]
      exact beyond_enterRun
    · next hphase =>
      rw [hphase]
      exact Tried.begin.beyond
    · next gate hphase =>
      rw [hphase] at hw
      cases gate with
      | node => exact absurd rfl (hw .node)
      | run => exact absurd rfl (hw .run)
    · next since number slot next wake limit hphase =>
      rw [hphase] at hdue ⊢
      have hx : x.phase.standing = fun _ => .inside := by
        rw [hphase]
        rfl
      rcases Tried.resume (s := s) (x := x) hx with ⟨u, -, ht⟩ | ⟨hearly, -⟩
      · have hrank : 3 + 2 * number + 1 ≤ 4 + 2 * number := by omega
        exact (ht.mono hrank).beyond
      · exact absurd (max_le_iff.mp hdue) hearly
    · next since number slot wake hphase =>
      rw [hphase] at hdue ⊢
      change wake.due ≤ s.now at hdue
      rw [if_pos hdue]
      have hrank : 4 + 2 * number + 1 ≤ 3 + 2 * (number + 1) := by omega
      exact ((Tried.attempt _ (number + 1) (by omega)).mono hrank).beyond

/-- An execution can go on: at some time its turn ends it, or has it come further. -/
def CanStep (e : Engine μ) (s : Schedule μ) (k : Nat × Nat) : Prop :=
  ∃ phase now, s.phase? k = some phase ∧ s.now ≤ now ∧
    Beyond (phase.rank + 1) (({ s with now } : Schedule μ).turnNode e.config.backoff k.1 k.2) k

theorem canStep_of_not_waiting (hr : s.runs[run]? = some r) (hx : r.execution? place = some x)
    (hsite : s.site? run place = some site)
    (hw : r.stopped = true ∨ ∀ gate, x.phase.standing gate ≠ .waiting) : CanStep e s (run, place) :=
  ⟨x.phase, max s.now x.phase.due, phase?_of_execution? hr hx, le_max_left _ _,
    beyond_turnNode (s := { s with now := max s.now x.phase.due }) hr hx hsite hw (le_max_right _ _)⟩

end Schedule

/-- A run is one of what the engine made ready. -/
def Engine.Readied (e : Engine μ) (r : Run μ) : Prop :=
  ∃ p inputs, e.preparePlan r.plan r.context inputs = .ok p ∧ r.work = p.work

theorem Engine.length_of_resolveNodes {h : Host (World μ)} {nodes : List (String × Node)}
    {cs : List (Capability (World μ))} (hc : resolveNodes h nodes = .ok cs) : cs.length = nodes.length := by
  induction nodes generalizing cs with
  | nil =>
    cases hc
    rfl
  | cons e nodes ih =>
    obtain ⟨id, n⟩ := e
    simp only [resolveNodes, bind, Except.bind, pure, Except.pure] at hc
    split at hc
    · cases hc
    · split at hc
      · cases hc
      · next rest hrest =>
        cases hc
        rw [List.length_cons, List.length_cons, ih hrest]

theorem Engine.Readied.length_work {e : Engine μ} {r : Run μ} (h : e.Readied r) :
    r.work.length = r.plan.flow.nodes.length := by
  obtain ⟨p, inputs, hp, hwork⟩ := h
  unfold preparePlan at hp
  split at hp
  · cases hp
  · split at hp
    · cases hp
    · next cs hcs =>
      cases hp
      rw [hwork, workIn, List.length_map, length_of_resolveNodes hcs]

namespace Schedule

variable {e : Engine μ} {caps : String → Nat} {s : Schedule μ} {k : Nat × Nat} {given : List (Prepared μ)}

/-- Every execution is one of a node that has its work. -/
def Staffed (s : Schedule μ) : Prop :=
  ∀ run place, (s.phase? (run, place)).isSome = true → ∃ site, s.site? run place = some site

theorem exists_execution {phase : Phase (World μ)} (h : s.phase? k = some phase) :
    ∃ r x, s.runs[k.1]? = some r ∧ r.execution? k.2 = some x ∧ x.phase = phase := by
  obtain ⟨r, hr, hx⟩ := Option.bind_eq_some_iff.mp h
  obtain ⟨x, hx', rfl⟩ := Option.map_eq_some_iff.mp hx
  exact ⟨r, x, hr, hx', rfl⟩

theorem exists_of_standing {gate : Gate} (h : s.standing k gate ≠ .outside) :
    ∃ phase, s.phase? k = some phase ∧ s.standing k = phase.standing := by
  cases hp : s.phase? k with
  | none =>
    rw [standing, hp] at h
    exact absurd rfl h
  | some phase => exact ⟨phase, rfl, standing_of_phase? hp⟩

theorem canStep_of_standing (hs : s.Staffed) {phase : Phase (World μ)} (hp : s.phase? k = some phase)
    (hw : ∀ gate, s.standing k gate ≠ .waiting) : CanStep e s k := by
  obtain ⟨r, x, hr, hx, rfl⟩ := exists_execution hp
  obtain ⟨site, hsite⟩ := hs k.1 k.2 (by rw [hp]; rfl)
  rw [standing_of_phase? hp] at hw
  exact canStep_of_not_waiting hr hx hsite (.inr hw)

theorem InOrder.exists_canStep_of_run (h : InOrder e.config caps s) (hs : s.Staffed)
    (hw : s.standing k .run = .waiting) : ∃ j, CanStep e s j := by
  obtain ⟨phase, hp, -⟩ := exists_of_standing (by rw [hw]; decide)
  obtain ⟨r, -, hr, -, -⟩ := exists_execution hp
  -- the permits of the run are with executions that have all that they need
  obtain ⟨place, hin⟩ := (h.runs k.1 r hr).exists_inside (lt_max_of_lt_right Nat.zero_lt_one) hw
  obtain ⟨phase', hp', hstands⟩ := exists_of_standing (k := (k.1, place)) (by rw [hin]; decide)
  rw [hstands] at hin
  exact ⟨_, canStep_of_standing hs hp' fun gate => hstands ▸ Phase.standing_ne_waiting hin gate⟩

/-- While an execution has not ended, one can go on. -/
theorem InOrder.exists_canStep (h : InOrder e.config caps s) (hs : s.Staffed)
    (hpos : ∀ k key max, s.limitAt? k = some (key, max) → 0 < max) (hk : (s.phase? k).isSome = true) :
    ∃ j, CanStep e s j := by
  obtain ⟨phase, hp⟩ := Option.isSome_iff_exists.mp hk
  by_cases hrun : s.standing k .run = .waiting
  · exact h.exists_canStep_of_run hs hrun
  by_cases hnode : s.standing k .node = .waiting
  · -- the permits of the node are with executions that wait at most for their run
    obtain ⟨⟨key, max⟩, hlimit⟩ := Option.ne_none_iff_exists'.mp (h.gated k hnode)
    obtain ⟨p, hget⟩ := h.opened k key max hk hlimit
    obtain ⟨i, hdeclared⟩ := h.declared key p hget
    obtain ⟨j, hin⟩ := (h.limits key p hget).exists_inside (hpos i key _ hdeclared)
      ((standingAt_of_limitAt? hlimit).trans hnode)
    obtain ⟨-, hstands⟩ := standingAt_of_ne_outside (by rw [hin]; decide)
    rw [hstands] at hin
    obtain ⟨phase', hp', -⟩ := exists_of_standing (by rw [hin]; decide)
    by_cases hrun' : s.standing j .run = .waiting
    · exact h.exists_canStep_of_run hs hrun'
    · refine ⟨j, canStep_of_standing hs hp' fun gate => ?_⟩
      cases gate with
      | node => rw [hin]; decide
      | run => exact hrun'
  · refine ⟨k, canStep_of_standing hs hp fun gate => ?_⟩
    cases gate with
    | node => exact hnode
    | run => exact hrun

theorem staffed (hc : s.views.Coordinated given) (hw : ∀ r ∈ s.runs, e.Readied r) : s.Staffed := by
  intro run place hsome
  obtain ⟨phase, hp⟩ := Option.isSome_iff_exists.mp hsome
  obtain ⟨r, x, hr, hx, -⟩ := exists_execution hp
  obtain ⟨_, _, hv⟩ := hc.get (views_of_getElem? hr)
  obtain ⟨ms, running, hkept, hperm⟩ := hv.coordinated.kept hv.valid
  have hplace : x.place = place := Run.place_of_execution? hx
  have hm : place ∈ running.map Prod.fst := by
    refine hperm.symm.subset (List.mem_append_left _ (List.mem_map.mpr ⟨x.key, ?_, hplace⟩))
    exact List.mem_map_of_mem (List.mem_of_find?_eq_some hx)
  have hlt : place < r.plan.flow.nodes.length := hkept.consistent.lt_of_running hm
  have hwork : place < r.work.length := (hw r (List.mem_of_getElem? hr)).length_work ▸ hlt
  have hsite : s.site? run place = some
      ⟨run, r.plan, r.context, r.plan.flow.nodes[place].1, r.plan.flow.nodes[place].2, r.work[place]⟩ := by
    simp only [site?, hr, Option.bind_eq_bind, Option.bind_some, Run.node?, List.getElem?_eq_getElem hlt,
      List.getElem?_eq_getElem hwork]
  exact ⟨_, hsite⟩

/-- How permits are shared among executions. No more of a run execute at once than the engine has execute.
Permits are free or with executions that have not ended; those that ask for one that is not free wait in
line. Who waits for a permit of its node has none of its run, and a run without executions has all of its
permits back. While an execution has not ended, one can go on. -/
structure Orderly (e : Engine μ) (s : Schedule μ) : Prop where
  bounded : ∀ run, {place | s.standing (run, place) .run = .inside}.encard ≤
    (max e.config.parallel 1 : Nat)
  run_permits : ∀ (run : Nat) (r : Run μ), s.runs[run]? = some r →
    r.permits.Balanced (max e.config.parallel 1) fun place => s.standing (run, place) .run
  node_permits : ∀ key p, s.limits.get? key = some p → ∃ k max, s.limitAt? k = some (key, max) ∧ 0 < max ∧
    p.Balanced max (s.standingAt s.standing key)
  outside : ∀ k, s.standing k .node = .waiting → s.standing k .run = .outside
  returned : ∀ r ∈ s.runs, r.executions = [] → r.permits = ⟨max e.config.parallel 1, []⟩
  moves : ∀ k, (s.phase? k).isSome = true → ∃ j, CanStep e s j

end Schedule

open Schedule

variable {e : Engine μ} {s₀ s : Schedule μ} {es : List Event}

/-- Whatever happens in an engine, permits are in order, and executions never all stand still. -/
theorem Leads.orderly (h₀ : s₀.runs = []) (hl : s₀.limits = []) (h : Leads e s₀ es s)
    (hw : ∀ r ∈ s.runs, e.Readied r) : Orderly e s := by
  obtain ⟨given, hc⟩ := h.coordinated (coordinated_nil h₀)
  obtain ⟨caps, hin⟩ := h.inOrder h₀ hl
  have hnone : ∀ {run : Nat} {r : Run μ}, s.runs[run]? = some r → r.executions = [] →
      ∀ place, s.standing (run, place) .run = .outside := by
    intro run r hr hx place
    rw [standing, phase?, hr, Option.bind_some, Run.phase?, Run.execution?, hx]
    rfl
  have hpos : ∀ k key max, s.limitAt? k = some (key, max) → 0 < max := by
    intro k key max hk
    obtain ⟨r, id, n, hr, hn, hmax, -⟩ := limitAt?_eq_some_iff.mp hk
    obtain ⟨_, _, hv⟩ := hc.get (views_of_getElem? hr)
    have hsound := (hv.valid.sound (List.mem_of_getElem? hn)).2
    refine Nat.pos_of_ne_zero fun hzero => hsound.concurrency ?_
    rw [hmax, hzero]
  refine ⟨fun run => ?_, hin.runs, fun key p hp => ?_, fun k hk => ?_, fun r hr hx => ?_,
    fun k hk => hin.exists_canStep (staffed hc hw) hpos hk⟩
  · cases hr : s.runs[run]? with
    | some r => exact (hin.runs run r hr).encard_le
    | none =>
      have hempty : {place | s.standing (run, place) .run = .inside} = ∅ := by
        refine Set.eq_empty_of_forall_notMem fun place hplace => ?_
        change s.standing (run, place) .run = .inside at hplace
        rw [standing, phase?, hr] at hplace
        cases hplace
      rw [hempty, Set.encard_empty]
      exact zero_le
  · obtain ⟨k, hk⟩ := hin.declared key p hp
    exact ⟨k, caps key, hk, hpos k key _ hk, hin.limits key p hp⟩
  · obtain ⟨phase, _, hstands⟩ := exists_of_standing (by rw [hk]; decide)
    rw [hstands] at hk ⊢
    exact Phase.standing_run_of_waiting hk
  · obtain ⟨run, hrun⟩ := List.mem_iff_getElem?.mp hr
    exact (hin.runs run r hrun).eq_new (hnone hrun hx)

/-- One of two runs of the report is at work, and the other one waits for the permit of its node. -/
theorem orderly_reports : (∃ es, Leads reportEngine idle es reports) ∧
    reports.standing (0, 0) .run = .inside ∧ reports.standing (1, 0) .node = .waiting ∧
    (∀ r ∈ reports.runs, reportEngine.Readied r) ∧ Orderly reportEngine reports := by
  obtain ⟨es, hes⟩ := leads_reporting [1, 1] (by simp [validate_report_one])
  have hruns : reports.runs.map (fun r => (r.plan, r.context, r.work)) =
      List.replicate 2 (reportPlan 1, (reportReady 1).context, (reportReady 1).work) := rfl
  have hready : ∀ r ∈ reports.runs, reportEngine.Readied r := by
    intro r hr
    have hm := List.eq_of_mem_replicate (hruns ▸ List.mem_map_of_mem hr)
    obtain ⟨hplan, hcontext, hwork⟩ : r.plan = _ ∧ r.context = _ ∧ r.work = _ := by simpa using hm
    refine ⟨reportReady 1, [], ?_, hwork⟩
    rw [hplan, hcontext]
    rfl
  exact ⟨⟨es, hes⟩, by decide +kernel, by decide +kernel, hready, hes.orderly rfl rfl hready⟩

end Workflow
