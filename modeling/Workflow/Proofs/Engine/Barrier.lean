import Workflow.Proofs.Engine.Refinement
import Workflow.Proofs.Run.Reporting
import Workflow.Proofs.Run.Scheduling
import Workflow.Proofs.Run.Solution

namespace Workflow

variable {μ : Type}

namespace Progress

variable {p : Plan} {s : Progress} {ctx : Context} {c : Completion} {id : String} {n : Node}

theorem fail_of_failure (h : s.failure ≠ none) (e : RunError) : s.fail e = s := by
  obtain ⟨first, hf⟩ := Option.ne_none_iff_exists'.mp h
  rw [fail, hf, Option.some_or, ← hf]

/-- An execution that ends while the run is stopping is recorded, and nothing else comes of it but its
output. -/
theorem complete_stopping (ctx : Context) (hn : p.flow.nodes[c.place]? = some (id, n))
    (hs : s.isStopping = true) (hf : s.failure ≠ none) :
    ∃ outputs r, s.complete p ctx c = { s with outputs := outputs, trace := s.trace ++ [r] } ∧
      r.nodeId = id ∧ r.attempts = c.attempts ∧
      (r.status = .succeeded ∨ r.status = .failed ∨ r.status = .cancelled) := by
  cases ho : c.outcome with
  | succeeded output =>
    rw [complete_late hn ho hs]
    exact ⟨_, _, rfl, rfl, rfl, .inl rfl⟩
  | failed err =>
    rw [complete_failed hn ho (.inr hs)]
    refine ⟨s.outputs, c.record id .failed (some err), ?_, rfl, rfl, .inr (.inl rfl)⟩
    exact fail_of_failure (s := { s with trace := s.trace ++ [c.record id .failed (some err)] }) hf err
  | cancelled =>
    rw [complete_cancelled hn ho]
    exact ⟨s.outputs, _, rfl, rfl, rfl, .inr (.inr rfl)⟩

end Progress

namespace View

variable {u v w : View} {inputs : Inputs} {called : Bool}

/-- The nodes under way with the attempts that they have begun: those that execute, and those whose ends
were not yet taken into account. -/
def underWay (v : View) : List (String × Nat) :=
  (v.begun ++ v.finished.map (fun c => (c.place, c.attempts))).map (fun x => (v.plan.idOf x.1, x.2))

/-- The attempts of each execution are known, and while a run is stopping its nodes are stopped. -/
structure Steady (v : View) : Prop where
  begun : v.begun.map Prod.fst = v.executions.map Prod.fst
  stops : v.progress.isStopping = true → v.stopped = true ∨ (v.executions = [] ∧ v.finished = [])

theorem steady_ofPrepared (c : Config) (now : Nat) (p : Prepared μ) :
    (Run.ofPrepared c now p).view.Steady :=
  ⟨rfl, fun _ => .inr ⟨rfl, rfl⟩⟩

theorem Steady.moved (h : v.Steady) (hm : v.Moved called w) : w.Steady := by
  cases hm with
  | round =>
    refine ⟨?_, fun hs => ?_⟩
    · simp [View.round, launch, h.begun, Function.comp_def]
    · have hs' : v.progress.isStopping = true := (Progress.isStopping_round _).symm.trans hs
      rw [round_of_done (.inr hs')]
      exact h.stops hs'
  | close _ _ _ => exact ⟨h.begun, h.stops⟩
  | abort _ _ _ _ => exact ⟨h.begun, fun _ => .inl rfl⟩
  | @settle c rest _ _ _ _ =>
    refine ⟨by rw [settle_eq]; exact h.begun, fun hs => .inl ?_⟩
    rw [settle_eq] at hs
    unfold settle
    rw [if_pos hs]
    rfl
  | stay _ _ => exact h
  | @work i n _ _ =>
    refine ⟨?_, h.stops⟩
    rw [← show v.begun.map Prod.fst = (v.work i n).executions.map Prod.fst from h.begun, View.work,
      List.map_map]
    refine List.map_congr_left fun x _ => ?_
    by_cases hx : x.1 = i <;> simp [hx]
  | @finish c hi _ _ _ =>
    -- there was an execution, so the run had not stopped for want of any
    refine ⟨?_, fun hs => .inl ((h.stops hs).resolve_right fun hnil => ?_)⟩
    · simp only [View.finish]
      have hfilter : ∀ {α : Type} (xs : List (Nat × α)), (xs.filter (fun x => x.1 ≠ c.place)).map Prod.fst =
          (xs.map Prod.fst).filter (fun i => i ≠ c.place) := fun xs => by rw [List.filter_map]; rfl
      rw [hfilter, hfilter, h.begun]
    · rw [hnil.1] at hi
      cases hi
  | cancel => exact ⟨h.begun, fun _ => .inl rfl⟩

/-- What becomes of a run that is stopping: nothing starts, links keep their results, its first failure
stands, and it stays aborted if it is. Each node under way gets one record, after the attempts that it has
begun, or is still under way. -/
structure Barred (v w : View) : Prop where
  plan : w.plan = v.plan
  stopping : w.progress.isStopping = true
  ready : w.progress.ready = v.progress.ready
  links : w.progress.links = v.progress.links
  failure : w.progress.failure = v.progress.failure
  aborted : v.progress.aborted = true → w.progress.aborted = true
  records : ∃ more, w.progress.trace = v.progress.trace ++ more ∧
    (more.map (fun r => (r.nodeId, r.attempts)) ++ w.underWay).Perm v.underWay ∧
    ∀ r ∈ more, r.status = .succeeded ∨ r.status = .failed ∨ r.status = .cancelled

namespace Barred

theorem of_progress_eq (hs : v.progress.isStopping = true) (hplan : w.plan = v.plan)
    (hp : w.progress = v.progress) (hu : w.underWay.Perm v.underWay) : v.Barred w where
  plan := hplan
  stopping := hp ▸ hs
  ready := by rw [hp]
  links := by rw [hp]
  failure := by rw [hp]
  aborted := fun h => by rw [hp, h]
  records := ⟨[], by rw [hp, List.append_nil], hu, fun _ h => absurd h List.not_mem_nil⟩

theorem refl (hs : v.progress.isStopping = true) : v.Barred v :=
  of_progress_eq hs rfl rfl (List.Perm.refl _)

theorem trans (h : u.Barred v) (h' : v.Barred w) : u.Barred w := by
  obtain ⟨more, htrace, hperm, hstatus⟩ := h.records
  obtain ⟨more', htrace', hperm', hstatus'⟩ := h'.records
  refine ⟨h'.plan.trans h.plan, h'.stopping, h'.ready.trans h.ready, h'.links.trans h.links,
    h'.failure.trans h.failure, fun ha => h'.aborted (h.aborted ha), more ++ more', ?_, ?_, fun r hr => ?_⟩
  · rw [htrace', htrace, List.append_assoc]
  · rw [List.map_append, List.append_assoc]
    exact (hperm'.append_left _).trans hperm
  · exact (List.mem_append.mp hr).elim (hstatus r) (hstatus' r)

end Barred

theorem underWay_finish (hb : v.Steady) (hn : (v.executions.map Prod.fst).Nodup) {c : Completion}
    (hc : (c.place, c.attempts) ∈ v.begun) : (v.finish c).underWay.Perm v.underWay := by
  have hout := Coordination.perm_cons_filter_ne (hb.begun ▸ hn) hc
  refine List.Perm.map _ ?_
  simp only [View.finish, List.map_append, List.map_singleton, ← List.append_assoc]
  exact (List.perm_append_singleton _ _).trans (hout.symm.append_right _)

theorem barred_settle (hv : v.Valid) (h : v.Coordinated inputs) (hs : v.progress.isStopping = true)
    {c : Completion} {rest : List Completion} (hf : v.finished = c :: rest) :
    v.Barred (v.settle c rest) := by
  obtain ⟨ms, running, hk, hperm⟩ := h.kept hv
  have hm : c.place ∈ running.map Prod.fst :=
    hperm.symm.subset (List.mem_append_right _ (List.mem_map_of_mem (hf ▸ List.mem_cons_self)))
  obtain ⟨id, n, hn⟩ := Progress.node?_of_lt (hk.consistent.lt_of_running hm)
  obtain ⟨outputs, r, heq, hid, hattempts, hstatus⟩ :=
    Progress.complete_stopping v.context hn hs (hk.consistent.failure_ne_none hs)
  have hprogress : (v.settle c rest).progress =
      { v.progress with outputs := outputs, trace := v.progress.trace ++ [r] } := by
    rw [settle_eq]
    exact heq
  have hkey : (r.nodeId, r.attempts) = (v.plan.idOf c.place, c.attempts) := by
    rw [hid, hattempts, Progress.idOf_of_node? hn]
  have hunder : (v.settle c rest).underWay = (v.begun ++ rest.map (fun c => (c.place, c.attempts))).map
      (fun x => (v.plan.idOf x.1, x.2)) := by
    rw [settle_eq]
    rfl
  refine ⟨by rw [settle_eq]; rfl, ?_, ?_, ?_, ?_, fun ha => ?_, [r], ?_, ?_, fun q hq => ?_⟩
  · rw [hprogress]
    exact hs
  · rw [hprogress]
  · rw [hprogress]
  · rw [hprogress]
  · rw [hprogress]
    exact ha
  · rw [hprogress]
  · rw [hunder, underWay, hf, List.map_singleton, hkey, List.singleton_append]
    refine List.Perm.symm ?_
    rw [List.map_cons, List.map_append, List.map_append, List.map_cons]
    exact List.perm_middle
  · rw [List.mem_singleton.mp hq]
    exact hstatus

theorem Moved.barred (hv : v.Valid) (h : v.Coordinated inputs) (hb : v.Steady)
    (hs : v.progress.isStopping = true) (hm : v.Moved called w) : v.Barred w := by
  obtain ⟨ms, running, hk, _⟩ := h.kept hv
  cases hm with
  | round =>
    rw [round_of_done (.inr hs)]
    exact .refl hs
  | close _ _ _ => exact .of_progress_eq hs rfl rfl (List.Perm.refl _)
  | abort e _ _ _ =>
    have hfail := Progress.fail_of_failure (hk.consistent.failure_ne_none hs) e
    refine ⟨rfl, Progress.isStopping_iff.mpr (.inl rfl), ?_, ?_, ?_, fun _ => rfl, [], ?_, List.Perm.refl _,
      fun _ h => absurd h List.not_mem_nil⟩
    all_goals
      simp only [View.abort, Progress.abort, hfail, List.append_nil]
  | settle _ hf _ _ => exact barred_settle hv h hs hf
  | stay _ _ => exact .refl hs
  | work n hi hstop =>
    -- attempts begin only while nodes are not stopped, and those of this run are
    rcases hb.stops hs with hstop' | ⟨hx, _⟩
    · cases hstop.symm.trans hstop'
    · rw [hx] at hi
      cases hi
  | finish hi _ _ hc =>
    have hstop : v.stopped = true := (hb.stops hs).resolve_right fun hnil => by
      rw [hnil.1] at hi
      cases hi
    exact .of_progress_eq hs rfl rfl (underWay_finish hb (h.executions_nodup hv) (hc hstop))
  | cancel => exact .of_progress_eq hs rfl rfl (List.Perm.refl _)

end View

variable {e : Engine μ} {s t : Schedule μ} {es es' : List Event} {given : List (Prepared μ)}
variable {run place : Nat} {r : Run μ} {v : View}

theorem Leads.steady (h : s.views.Coordinated given) (hb : ∀ v ∈ s.views.runs, v.Steady)
    (ht : Leads e s es t) : ∀ v ∈ t.views.runs, v.Steady :=
  ht.invariant View.steady_ofPrepared (fun _ hb hm => hb.moved hm) h hb

/-- A run that is stopping stays barred whatever happens. -/
theorem Leads.barred (h : s.views.Coordinated given) (hb : ∀ v ∈ s.views.runs, v.Steady)
    (hv : s.views.runs[run]? = some v) (hs : v.progress.isStopping = true) (ht : Leads e s es t) :
    ∃ w, t.views.runs[run]? = some w ∧ v.Barred w := by
  -- what happens later is taken event by event; `Barred` is what the run keeps of its first state
  induction ht with
  | refl => exact ⟨v, hv, .refl hs⟩
  | step hled hstep ih =>
    obtain ⟨w, hw, hbarred⟩ := ih
    obtain ⟨_, hc⟩ := hled.coordinated h
    obtain ⟨p, _, hp⟩ := hc.get hw
    obtain ⟨w', hw', hm⟩ := hstep.moved hc.executions_nodup hw
    refine ⟨w', hw', hbarred.trans (hm.barred hp.valid hp.coordinated ?_ hbarred.stopping)⟩
    exact hled.steady h hb w (List.mem_of_getElem? hw)

namespace Schedule

variable {x : Execution (World μ)} {b : Backoff} {outcome : Outcome} {attempts since : Nat} {started : Bool}

@[simp] theorem world_wake (job : Job) : (s.wake job).world = s.world := by
  unfold wake
  split <;> rfl

@[simp] theorem world_change (f : Run μ → Run μ) : (s.change run f).world = s.world := rfl

@[simp] theorem world_grant : (s.grant run place).world = s.world := world_wake _

theorem world_releaseLimit : (s.releaseLimit run place).world = s.world := by
  unfold releaseLimit
  split
  · rfl
  · dsimp only
    split
    · exact world_grant
    · rfl

theorem world_releaseRun : (s.releaseRun run).world = s.world := by
  unfold releaseRun
  split
  · rfl
  · dsimp only
    split
    · exact world_grant
    · rfl

theorem world_leaveLimit : (s.leaveLimit run place).world = s.world := by
  unfold leaveLimit
  split <;> rfl

theorem world_releaseAll : (s.releaseAll run x).world = s.world := by
  unfold releaseAll
  split
  · rfl
  · split
    · exact world_releaseLimit
    · exact world_leaveLimit
  · rw [world_releaseLimit]
    split
    · exact world_releaseRun
    · rfl
  · rw [world_releaseRun, world_releaseLimit]

theorem world_finish : (s.finish run x outcome attempts started since).world = s.world := by
  unfold finish
  rw [world_wake, world_change, world_releaseAll]

/-- An execution that is cancelled does nothing more. -/
theorem world_finishCancelled : (s.finishCancelled run x).world = s.world := by
  unfold finishCancelled
  split
  all_goals exact world_finish

theorem world_turnNode (hr : s.runs[run]? = some r) (hs : r.stopped = true ∨ r.executions = []) :
    (s.turnNode b run place).world = s.world := by
  unfold turnNode
  split
  · next r' site hr' _ =>
    cases hr.symm.trans hr'
    split
    · rfl
    · next x hx =>
      have hstop : r.stopped = true := hs.resolve_right fun hnil => by
        rw [Run.execution?, hnil] at hx
        cases hx
      rw [if_pos hstop]
      exact world_finishCancelled
  · rfl

end Schedule

/-- How a run that was stopping stands later: it was barred, what it delivers is what it delivered then,
every node has one record, and has it when the run has ended, and a turn of a node does nothing in the
world any more. -/
structure Stands (e : Engine μ) (run : Nat) (r : Run μ) (t : Schedule μ) (r' : Run μ) : Prop where
  barred : r.view.Barred r'.view
  boundary : r'.report.boundary = r.report.boundary
  recorded_once : (r'.report.trace.map Record.nodeId).Nodup
  recorded : r'.ended = true → r'.view.underWay = []
  quiet : ∀ place, (t.turnNode e.config.backoff run place).world = t.world

/-- Stopping is a barrier for a run: whatever happens after, it stands. Nodes are told to be cancelled only
of runs that are stopping. -/
structure Barrier (e : Engine μ) (run : Nat) (s : Schedule μ) (r : Run μ) : Prop where
  stands : r.progress.isStopping = true →
    ∀ es t, Leads e s es t → ∃ r', t.runs[run]? = some r' ∧ Stands e run r t r'
  cancelled : ∀ q ∈ r.report.trace, q.status = .cancelled →
    r.progress.isStopping = true ∧ r.report.status ≠ .succeeded

theorem View.Barred.delivered {w : View} (h : v.Barred w) (links : List Nat) :
    w.progress.delivered w.plan links = v.progress.delivered v.plan links := by
  rw [h.plan]
  exact Progress.delivered_congr fun e _ => by rw [h.links]

theorem View.ComesOf.underWay_eq_nil {p : Prepared μ} (h : v.ComesOf p) (hb : v.Steady)
    (he : v.ended = true) : v.underWay = [] := by
  obtain ⟨hx, hf, _⟩ := h.coordinated.ended he
  have hbegun : v.begun = [] := List.map_eq_nil_iff.mp (hb.begun.trans (hx ▸ rfl))
  rw [View.underWay, hbegun, hf]
  rfl

theorem View.ComesOf.recorded_nodup {p : Prepared μ} (h : v.ComesOf p) :
    (v.progress.trace.map Record.nodeId).Nodup := by
  obtain ⟨ms, running, hk, _⟩ := h.coordinated.kept h.valid
  exact hk.recorded_nodup h.valid.regular

theorem View.ComesOf.isStopping_of_cancelled {p : Prepared μ} (h : v.ComesOf p) {q : Record}
    (hq : q ∈ v.progress.trace) (hc : q.status = .cancelled) :
    v.progress.failure ≠ none ∧ v.progress.isStopping = true := by
  obtain ⟨ms, running, hk, _⟩ := h.coordinated.kept h.valid
  have hne : v.progress.failure ≠ none := fun hn => (hk.consistent.status hn q hq).not_failed (.inr hc)
  exact ⟨hne, Progress.isStopping_iff.mpr (.inr (Option.isSome_iff_ne_none.mpr hne))⟩

/-- In an engine whose runs are all those of valid workflows, stopping is a barrier for each of them. -/
theorem Leads.barrier {s₀ : Schedule μ} (h₀ : s₀.runs = []) (h : Leads e s₀ es s)
    (hr : s.runs[run]? = some r) : Barrier e run s r := by
  have hgiven := Schedule.coordinated_nil h₀
  have hsteady := Schedule.forall_views_nil h₀ View.Steady
  obtain ⟨_, hcoordinated⟩ := h.coordinated hgiven
  have hv := Schedule.views_of_getElem? hr
  refine ⟨fun hs es' t ht => ?_, fun q hq hc => ?_⟩
  · obtain ⟨w, hw, hbarred⟩ := ht.barred hcoordinated (h.steady hgiven hsteady) hv hs
    obtain ⟨r', hr', rfl⟩ := Schedule.view_of_views hw
    obtain ⟨_, hlater⟩ := (h.trans ht).coordinated hgiven
    obtain ⟨p, _, hp⟩ := hlater.get hw
    have hb := (h.trans ht).steady hgiven hsteady _ (List.mem_of_getElem? hw)
    refine ⟨r', hr', hbarred, ?_, hp.recorded_nodup, hp.underWay_eq_nil hb, fun place => ?_⟩
    · have hplan : r'.plan = r.plan := hbarred.plan
      have hvalues : r'.progress.delivered r'.plan r'.plan.outputLinks =
          r.progress.delivered r.plan r'.plan.outputLinks := hbarred.delivered _
      rw [Run.report, Run.report, Progress.report_boundary, Progress.report_boundary, hvalues, hplan]
    · refine Schedule.world_turnNode hr' ((hb.stops hbarred.stopping).imp_right fun hnil => ?_)
      exact List.map_eq_nil_iff.mp hnil.1
  · obtain ⟨p, _, hp⟩ := hcoordinated.get hv
    obtain ⟨hne, hs⟩ := hp.isStopping_of_cancelled hq hc
    exact ⟨hs, Progress.status_ne_succeeded hp.valid.tabled hne _⟩

open Coordination

/-- An engine for the diamond, which needs nothing of a host. -/
def diamondEngine : Engine Unit := ⟨⟨[], none, none⟩, {}, ⟨"trace", ""⟩, fun _ => 0⟩

/-- The diamond made ready: each node rests before it says what it says. -/
def diamondReady : Prepared Unit where
  plan := diamondPlan
  work := List.replicate 3 fun _ _ => .rest 5 (.done (.ok (.str "w")))
  context := diamondContext
  inputs := diamondInputs
  deadlineMs := some 12

def idle : Schedule Unit := { world := ⟨(), [], []⟩ }

def diamondBegun : Schedule Unit := (idle.enrol (.ofPrepared diamondEngine.config 0 diamondReady)).2

/-- The diamond while its first two nodes make their attempts. -/
def diamondTried : Schedule Unit :=
  ((diamondBegun.coordinate 0).turnNode diamondEngine.config.backoff 0 0).turnNode
    diamondEngine.config.backoff 0 1

theorem leads_diamondTried : ∃ es, Leads diamondEngine idle es diamondTried := by
  have hbegin : Happens diamondEngine idle .begun diamondBegun := .begin validate_diamond ofFlow_diamond
  obtain ⟨es, hes⟩ := Schedule.leads_coordinate_of_leads rfl hbegin.leads 0
  exact ⟨_, (hes.step (.work 0 0)).step (.work 0 1)⟩

def diamondLate : Schedule Unit := { diamondTried with now := 12 }

theorem leads_diamondLate : ∃ es, Leads diamondEngine idle es diamondLate := by
  obtain ⟨es, hes⟩ := leads_diamondTried
  exact ⟨_, hes.step (.later (by decide +kernel))⟩

/-- The deadline of the diamond comes while its first two nodes make their attempts. -/
theorem barrier_diamond : ∃ es s r, Leads diamondEngine idle es s ∧ s.runs[0]? = some r ∧
    r.progress.isStopping = true ∧ r.view.underWay = [("left", 1), ("right", 1)] ∧
    Barrier diamondEngine 0 s r := by
  have hrun : (diamondLate.runs[0]?).map (fun r => (r.isCalled diamondLate.now && !r.ended &&
      !r.executions.isEmpty && !r.progress.aborted, r.view.underWay)) =
        some (true, [("left", 1), ("right", 1)]) := by decide +kernel
  obtain ⟨r, hr, hseen⟩ := Option.map_eq_some_iff.mp hrun
  simp only [Prod.mk.injEq, Bool.and_eq_true, Bool.not_eq_true', List.isEmpty_eq_false_iff] at hseen
  obtain ⟨⟨⟨⟨hcalled, hended⟩, hexec⟩, haborted⟩, hunder⟩ := hseen
  obtain ⟨es, hes⟩ := leads_diamondLate
  obtain ⟨r', err, hr', hview⟩ := Schedule.exists_aborted hr hended hexec haborted hcalled
  have hlooked := hes.step (.look hr hended (.inl hexec))
  have hs : r'.progress.isStopping = true := by
    rw [show r'.progress = r.progress.abort err from congrArg View.progress hview]
    rfl
  exact ⟨_, _, r', hlooked, hr', hs, by rw [hview]; exact hunder, hlooked.barrier rfl hr'⟩

end Workflow
