import Workflow.Engine.Execute
import Workflow.Proofs.Except

namespace Workflow

variable {μ : Type}

/-- A change of the contexts of runs that no run can tell, neither by its trace id, nor by what its links deliver,
nor by the state of its nodes. Made again, it changes nothing more. -/
structure Recast where
  apply : Plan → Context → Context
  traceId : ∀ p c, (apply p c).traceId = c.traceId
  complete : ∀ p c s x, Progress.complete p (apply p c) s x = Progress.complete p c s x
  bind : ∀ {μ : Type} (w : World μ) run p c inputs id n, (id, n) ∈ p.flow.nodes →
    Slot.bind w run ⟨id, apply p c, inputs⟩ n.state = Slot.bind w run ⟨id, c, inputs⟩ n.state
  again : ∀ p c, apply p (apply p c) = apply p c

variable {g : Recast}

def Run.recast (g : Recast) (r : Run μ) : Run μ := { r with context := g.apply r.plan r.context }

theorem Run.recast_recast (r : Run μ) : (r.recast g).recast g = r.recast g := by
  rw [recast, recast, g.again]

namespace Schedule

def Site.recast (g : Recast) (t : Site μ) : Site μ := { t with context := g.apply t.plan t.context }

/-- All that goes on in an engine, with the contexts of its runs changed. -/
def recast (g : Recast) (s : Schedule μ) : Schedule μ := { s with runs := s.runs.map (Run.recast g) }

variable {s : Schedule μ} {run place : Nat}

@[simp] theorem now_recast : (s.recast g).now = s.now := rfl

@[simp] theorem order_recast : (s.recast g).order = s.order := rfl

@[simp] theorem world_recast : (s.recast g).world = s.world := rfl

@[simp] theorem limits_recast : (s.recast g).limits = s.limits := rfl

@[simp] theorem registry_recast : (s.recast g).registry = s.registry := rfl

@[simp] theorem errands_recast : (s.recast g).errands = s.errands := rfl

@[simp] theorem queue_recast : (s.recast g).queue = s.queue := rfl

@[simp] theorem runs_recast : (s.recast g).runs[run]? = (s.runs[run]?).map (Run.recast g) :=
  List.getElem?_map

theorem recast_recast : (s.recast g).recast g = (s.recast g) := by
  have hruns : (s.runs.map (Run.recast g)).map (Run.recast g) = s.runs.map (Run.recast g) := by
    rw [List.map_map]
    exact List.map_congr_left fun r _ => Run.recast_recast r
  rw [recast, recast, hruns]

/-- What is done to a run without looking at its context is done alike when that is changed. -/
theorem change_recast {f : Run μ → Run μ} (h : ∀ r, f (r.recast g) = (f r).recast g) :
    (s.recast g).change run f = (s.change run f).recast g := by
  have hruns : (s.runs.map (Run.recast g)).modify run f = (s.runs.modify run f).map (Run.recast g) := by
    refine List.ext_getElem? fun i => ?_
    simp only [List.getElem?_map, List.getElem?_modify]
    cases s.runs[i]? with
    | none => rfl
    | some r => by_cases hi : run = i <;> simp [hi, h]
  rw [change, recast, hruns]
  rfl

@[simp] theorem wake_recast (job : Job) : (s.recast g).wake job = (s.wake job).recast g := by
  rw [wake, queue_recast, wake]
  split <;> rfl

theorem foldl_recast {α : Type} {f : Schedule μ → α → Schedule μ}
    (h : ∀ s x, f (s.recast g) x = (f s x).recast g) (xs : List α) (s : Schedule μ) :
    xs.foldl f (s.recast g) = (xs.foldl f s).recast g := by
  induction xs generalizing s with
  | nil => rfl
  | cons x xs ih => rw [List.foldl_cons, h, ih, List.foldl_cons]

@[simp] theorem put_recast (run : Nat) (x : Execution (World μ)) :
    (s.recast g).put run x = (s.put run x).recast g := change_recast fun _ => rfl

@[simp] theorem grant_recast (run place : Nat) :
    (s.recast g).grant run place = (s.grant run place).recast g := by
  rw [grant, change_recast fun _ => ?_, wake_recast]
  · rfl
  · rfl

@[simp] theorem limit_recast (run place : Nat) :
    ((s.recast g).runs[run]?).bind (fun r => r.limitOf? place) =
      (s.runs[run]?).bind (fun r => r.limitOf? place) := by
  rw [runs_recast]
  cases s.runs[run]? <;> rfl

@[simp] theorem releaseLimit_recast (run place : Nat) :
    (s.recast g).releaseLimit run place = (s.releaseLimit run place).recast g := by
  rw [releaseLimit, releaseLimit, limit_recast]
  cases (s.runs[run]?).bind (fun r => r.limitOf? place) with
  | none => rfl
  | some limit =>
    dsimp only [limits_recast]
    split
    · exact grant_recast (s := { s with limits := _ }) _ _
    · rfl

@[simp] theorem releaseRun_recast (run : Nat) :
    (s.recast g).releaseRun run = (s.releaseRun run).recast g := by
  rw [releaseRun, releaseRun, runs_recast]
  cases s.runs[run]? with
  | none => rfl
  | some r =>
    dsimp only [Option.map_some, Run.recast]
    rw [change_recast fun _ => ?_]
    · split
      · exact grant_recast _ _
      · rfl
    · rfl

@[simp] theorem leaveLimit_recast (run place : Nat) :
    (s.recast g).leaveLimit run place = (s.leaveLimit run place).recast g := by
  rw [leaveLimit, leaveLimit, limit_recast]
  cases (s.runs[run]?).bind (fun r => r.limitOf? place) <;> rfl

@[simp] theorem leaveRun_recast (run place : Nat) :
    (s.recast g).leaveRun run place = (s.leaveRun run place).recast g := change_recast fun _ => rfl

@[simp] theorem releaseAll_recast (run : Nat) (x : Execution (World μ)) :
    (s.recast g).releaseAll run x = (s.releaseAll run x).recast g := by
  unfold releaseAll
  split
  · rfl
  · split
    · exact releaseLimit_recast ..
    · exact leaveLimit_recast ..
  · split
    · rw [releaseRun_recast, releaseLimit_recast]
    · rw [leaveRun_recast, releaseLimit_recast]
  · rw [releaseLimit_recast, releaseRun_recast]

@[simp] theorem finish_recast (run : Nat) (x : Execution (World μ)) (outcome : Outcome)
    (attempts : Nat) (started : Bool) (since : Nat) :
    (s.recast g).finish run x outcome attempts started since =
      (s.finish run x outcome attempts started since).recast g := by
  rw [finish, releaseAll_recast, change_recast fun _ => ?_, wake_recast]
  · rfl
  · rfl

@[simp] theorem finishCancelled_recast (run : Nat) (x : Execution (World μ)) :
    (s.recast g).finishCancelled run x = (s.finishCancelled run x).recast g := by
  unfold finishCancelled
  split <;> exact finish_recast ..

@[simp] theorem stopNodes_recast (run : Nat) : (s.recast g).stopNodes run = (s.stopNodes run).recast g := by
  rw [stopNodes, stopNodes, runs_recast]
  cases s.runs[run]? with
  | none => rfl
  | some r =>
    dsimp only [Option.map_some, Run.recast]
    split
    · rfl
    · rw [change_recast fun _ => ?_]
      · exact foldl_recast (fun _ i => wake_recast (.node run i)) _ _
      · rfl

theorem cancel_recast (traceId : String) :
    (s.recast g).cancel traceId = ((s.cancel traceId).1, (s.cancel traceId).2.recast g) := by
  have hany : ∀ (s : Schedule μ) (run : Nat), ((s.recast g).runs[run]?).any Run.cancelled =
      (s.runs[run]?).any Run.cancelled := fun s run => by
    rw [runs_recast]
    cases s.runs[run]? <;> rfl
  refine Prod.ext rfl (foldl_recast (fun s run => ?_) _ _)
  rw [hany]
  split
  · rfl
  · rw [stopNodes_recast, change_recast fun _ => ?_, wake_recast]
    rfl

theorem alarms_recast : (s.recast g).alarms = s.alarms := by
  have hruns : ((List.range (s.recast g).runs.length).zip (s.recast g).runs).flatMap
      (fun p => alarmsOf p.1 p.2) =
        ((List.range s.runs.length).zip s.runs).flatMap (fun p => alarmsOf p.1 p.2) := by
    rw [recast, List.length_map, List.zip_map_right, List.flatMap_map]
    rfl
  rw [alarms, hruns]
  rfl

theorem ring?_recast : (s.recast g).ring? = (s.ring?).map (recast g) := by
  rw [ring?, ring?, alarms_recast]
  dsimp only
  split
  · rfl
  · next now _ _ =>
    refine congrArg some ?_
    exact foldl_recast (fun _ (p : Alarm × Job) => wake_recast p.2) _ { s with now := _ }

section Turns

variable {b : Backoff} {t : Site μ} {x : Execution (World μ)} {since number : Nat} {slot : Option Slot}

@[simp] theorem Site.run_recast : (t.recast g).run = t.run := rfl

@[simp] theorem Site.id_recast : (t.recast g).id = t.id := rfl

@[simp] theorem Site.node_recast : (t.recast g).node = t.node := rfl

@[simp] theorem Site.work_recast : (t.recast g).work = t.work := rfl

/-- The node of a site is one of its plan. -/
def Site.Stands (t : Site μ) : Prop := (t.id, t.node) ∈ t.plan.flow.nodes

theorem Site.stands_of_site? (h : s.site? run place = some t) : t.Stands := by
  rw [site?] at h
  obtain ⟨r, -, h⟩ := Option.bind_eq_some_iff.mp h
  obtain ⟨⟨id, n⟩, hnode, h⟩ := Option.bind_eq_some_iff.mp h
  obtain ⟨work, -, h⟩ := Option.bind_eq_some_iff.mp h
  cases h
  exact List.mem_of_getElem? hnode

theorem site?_recast (run place : Nat) :
    (s.recast g).site? run place = (s.site? run place).map (Site.recast g) := by
  rw [site?, site?, runs_recast]
  cases s.runs[run]? with
  | none => rfl
  | some r =>
    change (r.node? place).bind _ = ((r.node? place).bind _).map (Site.recast g)
    cases r.node? place with
    | none => rfl
    | some n =>
      change (r.work[place]?).bind _ = ((r.work[place]?).bind _).map (Site.recast g)
      cases r.work[place]? <;> rfl

theorem conclude_recast {again again' : Nat → Schedule μ → Schedule μ}
    (h : ∀ n s, again' n (s.recast g) = (again n s).recast g) (result : AttemptResult) :
    conclude b (t.recast g) x since slot again' number result (s.recast g) =
      (conclude b t x since slot again number result s).recast g := by
  rw [conclude, conclude, Site.node_recast, Site.id_recast]
  split
  · exact finish_recast ..
  · exact h _ _
  · exact congrArg (fun u : Schedule μ => { u with order := s.order + 1 }) (put_recast t.run _)

theorem attempt_recast (left : Nat) :
    attempt b (t.recast g) x since slot left number (s.recast g) =
      (attempt b t x since slot left number s).recast g := by
  induction left generalizing number s with
  | zero =>
    rw [attempt, attempt, Site.work_recast, now_recast, world_recast]
    rcases (t.work x.inputs slot).advance s.now s.world with ⟨progress, world⟩
    cases progress with
    | resting ms next =>
      exact congrArg (fun u : Schedule μ => { u with order := s.order + 2 })
        (put_recast (s := { s with world }) t.run _)
    | finished result => exact conclude_recast (s := { s with world }) (fun _ _ => by rfl) _
  | succ left ih =>
    rw [attempt, attempt, Site.work_recast, now_recast, world_recast]
    rcases (t.work x.inputs slot).advance s.now s.world with ⟨progress, world⟩
    cases progress with
    | resting ms next =>
      exact congrArg (fun u : Schedule μ => { u with order := s.order + 2 })
        (put_recast (s := { s with world }) t.run _)
    | finished result => exact conclude_recast (s := { s with world }) (fun n s => ih) _

theorem begin_recast (ht : t.Stands) : begin b (t.recast g) x (s.recast g) = (begin b t x s).recast g := by
  have hslot : Slot.bind (s.recast g).world (t.recast g).run
      ⟨(t.recast g).id, (t.recast g).context, x.inputs⟩ (t.recast g).node.state =
        Slot.bind s.world t.run ⟨t.id, t.context, x.inputs⟩ t.node.state := g.bind _ _ _ _ _ _ _ ht
  rw [begin, begin, hslot]
  split
  · exact finish_recast ..
  · exact attempt_recast _

theorem enterRun_recast (ht : t.Stands) :
    enterRun b (t.recast g) x since (s.recast g) = (enterRun b t x since s).recast g := by
  rw [enterRun, enterRun]
  dsimp only [Site.recast]
  rw [runs_recast]
  cases s.runs[t.run]? with
  | none => rfl
  | some r =>
    dsimp only [Option.map_some, Run.recast]
    rw [change_recast fun _ => ?_]
    · split
      · exact begin_recast ht
      · exact put_recast _ _
    · rfl

theorem enter_recast (ht : t.Stands) : enter b (t.recast g) x (s.recast g) = (enter b t x s).recast g := by
  have hlimit : (({ s.recast g with order := s.order + 1 } : Schedule μ).runs[t.run]?).bind
      (fun r => r.limitOf? x.place) = (s.runs[t.run]?).bind (fun r => r.limitOf? x.place) :=
    limit_recast t.run x.place
  unfold enter
  dsimp only [Site.run_recast, order_recast, now_recast, limits_recast]
  rw [hlimit]
  cases (s.runs[t.run]?).bind (fun r => r.limitOf? x.place) with
  | none => exact enterRun_recast (s := { s with order := s.order + 1 }) ht
  | some limit =>
    obtain ⟨key, max⟩ := limit
    dsimp only
    split
    · exact enterRun_recast (s := { s with order := s.order + 1, limits := _ }) ht
    · exact put_recast (s := { s with order := s.order + 1, limits := _ }) t.run _

theorem resume_recast (next : Activity (World μ) (Except InvokeError Json)) (wake limit : Alarm) :
    resume b (t.recast g) x since number slot next wake limit (s.recast g) =
      (resume b t x since number slot next wake limit s).recast g := by
  have hexpired : ∀ (u v : Schedule μ) (y : Execution (World μ)), v = u.recast g →
      (if limit.due ≤ v.now then conclude b (t.recast g) y since slot
          (attempt b (t.recast g) x since slot ((t.recast g).node.policy.retries - number - 1)) number
          (.error (.timeout, s!"attempt timed out after {(t.recast g).node.policy.timeoutMs}ms")) v
        else v) =
      (if limit.due ≤ u.now then conclude b t y since slot
          (attempt b t x since slot (t.node.policy.retries - number - 1)) number
          (.error (.timeout, s!"attempt timed out after {t.node.policy.timeoutMs}ms")) u
        else u).recast g := by
    rintro u _ y rfl
    rw [now_recast, Site.node_recast]
    split
    · exact conclude_recast (fun _ _ => attempt_recast _) _
    · rfl
  rw [resume, resume, now_recast, world_recast]
  dsimp only
  by_cases hdue : wake.due ≤ s.now
  · rw [if_pos hdue, if_pos hdue]
    rcases next.advance s.now s.world with ⟨progress, world⟩
    cases progress with
    | finished result => exact conclude_recast (s := { s with world }) (fun _ _ => attempt_recast _) _
    | resting ms next =>
      let y : Execution (World μ) :=
        { x with phase := .attempting since number slot next ⟨s.now + ms, s.order⟩ limit }
      exact hexpired { ({ s with world } : Schedule μ).put t.run y with order := s.order + 1 } _ y
        (congrArg (fun u : Schedule μ => { u with order := s.order + 1 })
          (put_recast (s := { s with world }) t.run y))
  · rw [if_neg hdue, if_neg hdue]
    exact hexpired s _ x rfl

theorem turnNode_recast (run place : Nat) :
    (s.recast g).turnNode b run place = (s.turnNode b run place).recast g := by
  unfold turnNode
  rw [runs_recast, site?_recast]
  cases s.runs[run]? with
  | none => rfl
  | some r =>
    cases ht : s.site? run place with
    | none => rfl
    | some t =>
      have hstands := Site.stands_of_site? ht
      dsimp only [Option.map_some]
      rw [show (r.recast g).execution? place = r.execution? place from rfl]
      cases r.execution? place with
      | none => rfl
      | some x =>
        dsimp only
        rw [show (r.recast g).stopped = r.stopped from rfl]
        split
        · exact finishCancelled_recast run x
        · split
          · exact enter_recast hstands
          · exact enterRun_recast hstands
          · exact begin_recast hstands
          · rfl
          · exact resume_recast ..
          · rw [now_recast]
            split
            · exact attempt_recast _
            · rfl

end Turns

theorem launch_recast (run : Nat) (started : List (Nat × Inputs)) :
    (s.recast g).launch run started = (s.launch run started).recast g := by
  refine foldl_recast (fun s p => ?_) started s
  dsimp only
  rw [limit_recast]
  cases (s.runs[run]?).bind (fun r => r.limitOf? p.1) with
  | none =>
    dsimp only
    rw [change_recast fun _ => ?_, wake_recast]
    rfl
  | some limit =>
    dsimp only
    refine (congrArg (fun u => wake u (.node run p.1)) ?_).trans (wake_recast _)
    exact change_recast (s := { s with limits := _ }) fun _ => rfl

theorem abort_recast (run : Nat) (e : RunError) : (s.recast g).abort run e = (s.abort run e).recast g := by
  rw [abort, change_recast fun _ => ?_, stopNodes_recast]
  · rfl
  · rfl

theorem startReady_recast (run : Nat) : (s.recast g).startReady run = (s.startReady run).recast g := by
  rw [startReady, startReady, runs_recast]
  cases s.runs[run]? with
  | none => rfl
  | some r =>
    dsimp only [Option.map_some, Run.recast]
    rw [change_recast fun _ => ?_]
    · exact launch_recast _ _
    · rfl

theorem close_recast (run : Nat) (r : Run μ) :
    (s.recast g).close run (r.recast g) = (s.close run r).recast g := by
  have htrace : (r.recast g).context.traceId = r.context.traceId := g.traceId _ _
  rw [close, htrace]
  exact congrArg (fun u : Schedule μ => { u with registry := s.registry.unregister r.context.traceId run })
    (change_recast (f := fun r => { r with ended := true }) fun _ => rfl)

theorem look_recast (run : Nat) (r : Run μ) :
    (s.recast g).look run (r.recast g) = (s.look run r).recast g := by
  unfold look
  rw [show (r.recast g).cancelled = r.cancelled from rfl, show (r.recast g).progress = r.progress from rfl,
    show (r.recast g).deadlineAt = r.deadlineAt from rfl, show (r.recast g).deadlineMs = r.deadlineMs from rfl,
    show (r.recast g).finished = r.finished from rfl, now_recast]
  split
  · exact abort_recast ..
  · split
    · exact abort_recast ..
    · split
      · next c rest _ =>
        have hcomplete : r.progress.complete (r.recast g).plan (r.recast g).context c =
            r.progress.complete r.plan r.context c := g.complete ..
        rw [hcomplete]
        dsimp only
        rw [change_recast fun _ => ?_]
        · split
          · exact stopNodes_recast run
          · rfl
        · rfl
      · split
        · rfl
        · exact congrArg (fun u : Schedule μ => { u with order := s.order + 1 })
            (change_recast (f := fun u =>
              { u with alarm := r.deadlineAt.map (fun due => (⟨due, s.order⟩ : Alarm)) }) fun _ => rfl)

theorem turnRun_recast (run fuel : Nat) (s : Schedule μ) :
    turnRun run fuel (s.recast g) = (turnRun run fuel s).recast g := by
  induction fuel generalizing s with
  | zero => rfl
  | succ fuel ih =>
    rw [turnRun, turnRun, startReady_recast, runs_recast]
    cases (s.startReady run).runs[run]? with
    | none => rfl
    | some r =>
      dsimp only [Option.map_some]
      rw [show (r.recast g).executions = r.executions from rfl,
        show (r.recast g).finished = r.finished from rfl,
        show (r.recast g).isWaiting ((s.startReady run).recast g).now =
          r.isWaiting (s.startReady run).now from rfl]
      split
      · exact close_recast run r
      · split
        · exact look_recast run r
        · rw [look_recast, ih]

theorem coordinate_recast (run : Nat) : (s.recast g).coordinate run = (s.coordinate run).recast g := by
  rw [coordinate, coordinate, runs_recast]
  cases s.runs[run]? with
  | none => rfl
  | some r =>
    dsimp only [Option.map_some]
    rw [show (r.recast g).ended = r.ended from rfl, show (r.recast g).finished = r.finished from rfl]
    split
    · rfl
    · exact turnRun_recast ..

theorem enrol_recast (r : Run μ) :
    (s.recast g).enrol (r.recast g) = ((s.enrol r).1, (s.enrol r).2.recast g) := by
  have hlength : (s.recast g).runs.length = s.runs.length := List.length_map _
  have hruns : (s.recast g).runs ++ [r.recast g] = (s.runs ++ [r]).map (Run.recast g) := by
    rw [List.map_append]
    rfl
  have htrace : (r.recast g).context.traceId = r.context.traceId := g.traceId _ _
  rw [enrol, hlength, hruns, htrace]
  rfl

theorem coordinate_enrol_recast (r : Run μ) :
    ((s.enrol r).2.coordinate (s.enrol r).1).recast g =
      ((s.recast g).enrol (r.recast g)).2.coordinate ((s.recast g).enrol (r.recast g)).1 := by
  rw [enrol_recast, coordinate_recast]

theorem coordinate_enrol_congr {r r' : Run μ} (h : (r.recast g) = (r'.recast g)) :
    ((s.enrol r).2.coordinate (s.enrol r).1).recast g =
      ((s.enrol r').2.coordinate (s.enrol r').1).recast g := by
  rw [coordinate_enrol_recast, coordinate_enrol_recast, h]

section Steps

variable {e : Engine μ}

-- An errand may start a run, with a context that was not changed: from here on those of both sides are.

theorem perform_recast (errand : Errand) :
    (s.perform e errand).1 = ((s.recast g).perform e errand).1 ∧
      (s.perform e errand).2.recast g = ((s.recast g).perform e errand).2.recast g := by
  rcases errand with ⟨f, request⟩ | _ | traceId
  · cases hp : e.prepare f request with
    | error err =>
      simp only [perform, hp, recast_recast, and_self]
    | ok p =>
      simp only [perform, hp, coordinate_enrol_recast, recast_recast, now_recast, and_true]
      exact congrArg ErrandState.started (List.length_map _).symm
  · exact ⟨rfl, recast_recast.symm⟩
  · simp only [perform, cancel_recast, recast_recast, registry_recast, and_self]

theorem turnErrand_recast (place : Nat) :
    (s.turnErrand e place).recast g = ((s.recast g).turnErrand e place).recast g := by
  have hdone : ∀ errand, ((s.perform e errand).2.setErrand place (s.perform e errand).1).recast g =
      (((s.recast g).perform e errand).2.setErrand place ((s.recast g).perform e errand).1).recast g := by
    intro errand
    obtain ⟨hstate, hs⟩ := perform_recast (e := e) (s := s) errand
    rw [hstate]
    exact congrArg (fun u => setErrand u place ((s.recast g).perform e errand).1) hs
  unfold turnErrand
  rw [errands_recast, now_recast, order_recast]
  split
  · next delay errand alarm _ =>
    cases alarm with
    | none =>
      dsimp only
      split
      · exact hdone errand
      · exact congrArg (fun u : Schedule μ =>
          { u.setErrand place (.waiting (some ⟨s.now + delay, s.order⟩)) with order := s.order + 1 })
          recast_recast.symm
    | some a =>
      dsimp only
      split
      · exact hdone errand
      · exact recast_recast.symm
  · exact recast_recast.symm

theorem turn_recast (job : Job) : (s.turn e job).recast g = ((s.recast g).turn e job).recast g := by
  cases job with
  | errand place => exact turnErrand_recast place
  | run run => exact (recast_recast.symm.trans (congrArg (recast g) (coordinate_recast run).symm))
  | node run place =>
    exact (recast_recast.symm.trans (congrArg (recast g) (turnNode_recast run place).symm))

theorem step?_recast : (s.step? e).map (recast g) = ((s.recast g).step? e).map (recast g) := by
  rw [step?, step?, queue_recast]
  cases s.queue with
  | nil =>
    dsimp only
    rw [ring?_recast, Option.map_map]
    exact congrArg (fun f => (s.ring?).map f) (funext fun _ => recast_recast.symm)
  | cons job rest => exact congrArg some (turn_recast (s := { s with queue := rest }) job)

/-- Schedules that are the same once their contexts are changed stay so. -/
theorem advance_recast_congr (n : Nat) {s s' : Schedule μ} (h : s.recast g = s'.recast g) :
    (s.advance e n).recast g = (s'.advance e n).recast g := by
  induction n generalizing s s' with
  | zero => exact h
  | succ n ih =>
    have hstep : (s.step? e).map (recast g) = (s'.step? e).map (recast g) :=
      step?_recast.trans ((congrArg (fun u => (step? e u).map (recast g)) h).trans step?_recast.symm)
    unfold advance
    cases hs : s.step? e with
    | none =>
      rw [hs, Option.map_none, eq_comm, Option.map_eq_none_iff] at hstep
      rw [hstep]
      exact h
    | some next =>
      rw [hs, Option.map_some, eq_comm, Option.map_eq_some_iff] at hstep
      obtain ⟨next', hs', hnext⟩ := hstep
      rw [hs']
      exact ih hnext.symm

end Steps

end Schedule

theorem Engine.exists_of_mem_resolveNodes {h : Host (World μ)} {nodes : List (String × Node)}
    {cs : List (Capability (World μ))} (hcs : resolveNodes h nodes = .ok cs) {c : Capability (World μ)}
    (hc : c ∈ cs) : ∃ id n, (id, n) ∈ nodes ∧ h.resolve n.transform = .ok c := by
  induction nodes generalizing cs with
  | nil =>
    cases hcs
    cases hc
  | cons node rest ih =>
    obtain ⟨id, n⟩ := node
    obtain ⟨first, hfirst, hcs⟩ := exists_of_bind_eq_ok hcs
    obtain ⟨more, hmore, hcs⟩ := exists_of_bind_eq_ok hcs
    cases hcs
    rcases List.mem_cons.mp hc with rfl | hc
    · exact ⟨id, n, List.mem_cons_self, Except.eq_ok_of_mapError hfirst⟩
    · obtain ⟨id', n', hmem, hresolve⟩ := ih hmore hc
      exact ⟨id', n', List.mem_cons_of_mem _ hmem, hresolve⟩

theorem Run.report_recast (r : Run μ) : (r.recast g).report = r.report :=
  congrArg (r.progress.report r.plan) (g.traceId _ _)

/-- Two runs of a plan that are the same once their contexts are changed have the same report. -/
theorem Engine.report_complete_congr (e : Engine μ) {p p' : Prepared μ} (s : Schedule μ)
    (hplan : p.plan = p'.plan) (h : (Run.ofPrepared e.config s.now p).recast g =
      (Run.ofPrepared e.config s.now p').recast g) : (e.complete p s).1 = (e.complete p' s).1 := by
  have hreport : ∀ (t : Schedule μ) (run : Nat) (r : Run μ),
      ((t.runs[run]?).getD r).report = (((t.recast g).runs[run]?).getD (r.recast g)).report := fun t run r => by
    rw [Schedule.runs_recast]
    cases t.runs[run]? with
    | none => exact (Run.report_recast r).symm
    | some r' => exact (Run.report_recast r').symm
  have hcourse := Schedule.advance_recast_congr (e := e) (2 * p'.plan.flow.turns e.rests)
    (Schedule.coordinate_enrol_congr (s := s) h)
  rw [complete, complete, hplan]
  dsimp only
  refine (hreport _ _ _).trans (Eq.trans ?_ (hreport _ _ _).symm)
  rw [hcourse, h]
  rfl

end Workflow
