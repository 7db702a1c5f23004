import Workflow.Proofs.Engine.Barrier
import Workflow.Proofs.Engine.Sparing

namespace Workflow

open Activity Schedule

variable {μ : Type}

/-- Whether an execution has not begun: it has not all of its permits yet. -/
def Phase.waits {σ : Type} : Phase σ → Bool
  | .fresh => true
  | .queued _ _ _ => true
  | _ => false

@[simp] theorem Phase.waits_granted {σ : Type} (phase : Phase σ) : phase.granted.waits = phase.waits := by
  cases phase <;> rfl

theorem Phase.granted_of_waits {σ : Type} {phase : Phase σ} (h : phase.waits = false) :
    phase.granted = phase := by
  cases phase with
  | fresh | queued => cases h
  | attempting | pausing => rfl

/-- When an execution that makes attempts or pauses has to have its turn. -/
def Phase.next? {σ : Type} : Phase σ → Option Nat
  | .attempting _ _ _ _ wake limit => some (min wake.due limit.due)
  | .pausing _ _ _ wake => some wake.due
  | _ => none

/-- What is told of an execution that is cancelled. It has made the attempts that it has begun, and has not
started when it waits for its permits. -/
def Phase.calledOff {σ : Type} (place now : Nat) : Phase σ → Completion
  | .fresh => ⟨place, .cancelled, 0, none, 0⟩
  | .queued since _ _ => ⟨place, .cancelled, 0, none, now - since⟩
  | .attempting since number _ _ _ _ => ⟨place, .cancelled, number, some since, now - since⟩
  | .pausing since number _ _ => ⟨place, .cancelled, number, some since, now - since⟩

namespace Schedule.Site

/-- What is left of an invocation that has until a time, from when it goes on. -/
def inTime (wake limit : Alarm) (next : Activity (World μ) (Except InvokeError Json)) :
    Activity (World μ) (Option (Except InvokeError Json)) :=
  if wake.due ≤ limit.due then within (limit.due - wake.due) next else .done none

/-- What an execution that has its permits has still to do of its task: since when it has them, when it goes
on, and with what. -/
inductive Awaits (b : Backoff) (site : Site μ) (place : Nat) (inputs : Inputs) :
    Phase (World μ) → Nat → Nat → Activity (World μ) Ending → Prop
  | attempting {slot : Option Slot} {next : Activity (World μ) (Except InvokeError Json)}
      {wake limit : Alarm} {left : Nat} (since began : Nat) (made : List Trial)
      (hleft : left + (made.length + 1) = site.node.policy.retries) :
      Awaits b site place inputs (.attempting since (made.length + 1) slot next wake limit) since
        (min wake.due limit.due)
        ((site.tryOn place began (inTime wake limit next)).bind (site.follow b place inputs slot left made))
  | pausing {slot : Option Slot} {wake : Alarm} {left : Nat} (since : Nat) (made : List Trial)
      (hleft : left + (made.length + 1) = site.node.policy.retries) :
      Awaits b site place inputs (.pausing since made.length slot wake) since wake.due
        (site.persist b place inputs slot left made)

/-- How it goes on with an execution when a turn has it do what it has to until it rests or ends: the world
is what it is then, and the execution rests as long, or its end is told. -/
inductive Goes (b : Backoff) (site : Site μ) (place : Nat) (inputs : Inputs) (since now : Nat)
    (t : Schedule μ) : Activity.Progress (World μ) Ending × World μ → Prop
  | ended {ending : Ending} {r : Run μ} (hr : t.runs[site.run]? = some r)
      (hx : r.execution? place = none)
      (hc : ⟨place, ending.outcome, ending.attempts, some since, now - since⟩ ∈ r.finished) :
      Goes b site place inputs since now t (.finished ending, t.world)
  | rests {ms : Nat} {next : Activity (World μ) Ending} {x : Execution (World μ)}
      (hx : t.execution? (site.run, place) = some x) (hi : x.inputs = inputs)
      (ha : site.Awaits b place inputs x.phase since (now + ms) next) :
      Goes b site place inputs since now t (.resting ms next, t.world)

/-- How it goes on with an execution that has not begun: it waits on, and nothing is done in the world, or it
has its permits and begins its task. -/
inductive Enters (b : Backoff) (site : Site μ) (place : Nat) (inputs : Inputs) (s t : Schedule μ) : Prop
  | waits {x : Execution (World μ)} (hw : t.world = s.world) (hx : t.execution? (site.run, place) = some x)
      (hi : x.inputs = inputs) (hp : x.phase.waits = true)
  | begins (h : site.Goes b place inputs s.now s.now t ((site.task b place inputs).advance s.now s.world))

variable {b : Backoff} {site : Site μ} {place : Nat} {inputs : Inputs} {slot : Option Slot}
variable {s : Schedule μ} {x : Execution (World μ)} {since began now due left number ms : Nat}
variable {phase : Phase (World μ)} {p : Activity (World μ) Ending} {made : List Trial} {w w' : World μ}
variable {result : Option (Except InvokeError Json)}
variable {q next : Activity (World μ) (Option (Except InvokeError Json))}

theorem Awaits.next?_eq (h : site.Awaits b place inputs phase since due p) : phase.next? = some due := by
  cases h <;> rfl

theorem Awaits.waits_eq (h : site.Awaits b place inputs phase since due p) : phase.waits = false := by
  cases h <;> rfl

/-- An invocation that ends is followed by what its result calls for. -/
theorem advance_try_of_finished (h : q.advance now w = (.finished result, w')) :
    ((site.tryOn place began q).bind (site.follow b place inputs slot left made)).advance now w =
      (site.follow b place inputs slot left made ⟨began, now, site.verify place result⟩).advance now w' := by
  have htry : (site.tryOn place began q).advance now w =
      (.finished ⟨began, now, site.verify place result⟩, w') := (advance_bind_of_finished h).trans rfl
  exact advance_bind_of_finished htry

theorem advance_try_of_resting (h : q.advance now w = (.resting ms next, w')) :
    ((site.tryOn place began q).bind (site.follow b place inputs slot left made)).advance now w =
      (.resting ms ((site.tryOn place began next).bind (site.follow b place inputs slot left made)), w') :=
  advance_bind_of_resting (advance_bind_of_resting h)

/-- An invocation that rests goes on when it has rested, or when its time has passed. -/
theorem advance_within_inTime {p next : Activity (World μ) (Except InvokeError Json)} {k : Nat}
    {wake limit : Alarm} (h : p.advance now w = (.resting ms next, w')) (hk : 0 < k)
    (hwake : wake.due = now + ms) (hlimit : limit.due = now + k) :
    (within k p).advance now w = (.resting (min wake.due limit.due - now) (inTime wake limit next), w') := by
  rw [advance_within_of_resting h, if_neg (Nat.ne_of_gt hk), inTime, hwake, hlimit]
  by_cases hms : ms ≤ k
  · have hle : now + ms ≤ now + k := Nat.add_le_add_left hms now
    rw [if_pos hms, if_pos hle, min_eq_left hle, Nat.add_sub_cancel_left, Nat.add_sub_add_left]
  · have hlt : ¬ now + ms ≤ now + k := by omega
    rw [if_neg hms, if_neg hlt, min_eq_right (Nat.le_of_not_le hlt), Nat.add_sub_cancel_left]

end Schedule.Site

namespace Schedule

variable {s : Schedule μ} {run : Nat} {x : Execution (World μ)}

theorem execution?_put (h : (s.execution? (run, x.place)).isSome = true) :
    (s.put run x).execution? (run, x.place) = some x := by
  obtain ⟨y, hy⟩ := Option.isSome_iff_exists.mp h
  obtain ⟨r, hr, hx⟩ := Option.bind_eq_some_iff.mp hy
  rw [execution?, put, change, List.getElem?_modify_eq, hr]
  change (r.put x).execution? x.place = some x
  rw [Run.execution?_put, if_pos rfl, hx, Option.map_some]

theorem isSome_execution?_put {k : Nat × Nat} (h : (s.execution? k).isSome = true) (run : Nat)
    (x : Execution (World μ)) : ((s.put run x).execution? k).isSome = true := by
  obtain ⟨y, hy⟩ := Option.isSome_iff_exists.mp h
  obtain ⟨r, hr, hx⟩ := Option.bind_eq_some_iff.mp hy
  rw [execution?, put, change, List.getElem?_modify, hr]
  by_cases hrun : run = k.1
  · have hput : (if k.2 = x.place then (r.execution? k.2).map (fun _ => x) else r.execution? k.2).isSome = true := by
      rw [hx]
      split <;> rfl
    rw [← Run.execution?_put] at hput
    simpa [hrun] using hput
  · simp [hrun, hx]

theorem execution?_change_same {f : Run μ → Run μ} (h : ∀ r, (f r).executions = r.executions) :
    (s.change run f).execution? = s.execution? := by
  funext k
  simp only [execution?, change, List.getElem?_modify]
  by_cases hi : run = k.1
  · cases hr : s.runs[k.1]? with
    | none => simp
    | some r => simp [hi, Run.execution?, h]
  · simp [hi]

/-- An execution that ends is under way no more, and its end is told. -/
theorem exists_finished {r : Run μ} (hr : s.runs[run]? = some r) (x : Execution (World μ)) (outcome : Outcome)
    (attempts : Nat) (started : Bool) (since : Nat) :
    ∃ r', (s.finish run x outcome attempts started since).runs[run]? = some r' ∧ r'.execution? x.place = none ∧
      ⟨x.place, outcome, attempts, if started then some since else none, s.now - since⟩ ∈ r'.finished := by
  have hreleased : Spares (fun _ => False) s (s.releaseAll run x) := (Spares.refl s).releaseAll _ _
  obtain ⟨r', hr', -⟩ := hreleased.exists_run hr
  refine ⟨{ r'.drop x.place with finished := r'.finished ++
    [⟨x.place, outcome, attempts, if started then some since else none, s.now - since⟩] }, ?_, ?_, ?_⟩
  · unfold finish
    dsimp only
    rw [runs_wake, change, List.getElem?_modify_eq, hr', hreleased.now]
    rfl
  · exact (Run.execution?_drop x.place x.place).trans (if_pos rfl)
  · exact List.mem_append_right _ List.mem_cons_self

namespace Site

variable {b : Backoff} {site : Site μ} {slot : Option Slot} {since began left number : Nat}
variable {made : List Trial} {one : Trial} {again : Nat → Schedule μ → Schedule μ}

theorem goes_finish (h : (s.execution? (site.run, x.place)).isSome = true) (inputs : Inputs) (ending : Ending)
    (since : Nat) : site.Goes b x.place inputs since s.now
      (s.finish site.run x ending.outcome ending.attempts true since) (.finished ending, s.world) := by
  have hworld : (s.finish site.run x ending.outcome ending.attempts true since).world = s.world := world_finish
  obtain ⟨y, hy⟩ := Option.isSome_iff_exists.mp h
  obtain ⟨r, hr, -⟩ := Option.bind_eq_some_iff.mp hy
  obtain ⟨r', hr', hnone, hc⟩ := exists_finished hr x ending.outcome ending.attempts true since
  rw [← hworld]
  exact .ended hr' hnone hc

theorem goes_put {ms : Nat} {next : Activity (World μ) Ending} {phase : Phase (World μ)} {w : World μ}
    (h : (s.execution? (site.run, x.place)).isSome = true)
    (ha : site.Awaits b x.place x.inputs phase since (s.now + ms) next) (order waitOrder : Nat) :
    site.Goes b x.place x.inputs since s.now
      { ({ s with world := w } : Schedule μ).put site.run { x with phase, waitOrder } with order }
      (.resting ms next, w) :=
  .rests (execution?_put (s := { s with world := w }) (x := { x with phase, waitOrder }) h) rfl ha

/-- What follows an attempt is what its program says. -/
theorem goes_conclude (h : (s.execution? (site.run, x.place)).isSome = true)
    (hleft : left + (made.length + 1) = site.node.policy.retries) (began : Nat)
    (result : Option (Except InvokeError Json))
    (hagain : ∀ one more, left = more + 1 → site.Goes b x.place x.inputs since s.now (again (made.length + 2) s)
      ((site.persist b x.place x.inputs slot more (made ++ [one])).advance s.now s.world)) :
    site.Goes b x.place x.inputs since s.now
      (conclude b site x since slot again (made.length + 1) (site.verify x.place result) s)
      ((site.follow b x.place x.inputs slot left made
        ⟨began, s.now, site.verify x.place result⟩).advance s.now s.world) := by
  unfold conclude
  cases hone : site.verify x.place result with
  | ok v =>
    rw [follow_of_ok rfl]
    exact goes_finish h _ ⟨_, .succeeded v, made.length + 1⟩ since
  | error e =>
    have hk := isRetryable_of_verify hone
    cases left with
    | zero =>
      have hlast : site.node.policy.retries? (made.length + 1) e.1 = false := by
        simp only [RuntimePolicy.retries?, hk, Bool.true_and, decide_eq_false_iff_not]
        omega
      have hv : site.node.policy.verdict b site.id (made.length + 1) (.error e) =
          .ended (site.failure (made.length + 1) e) := by
        rw [RuntimePolicy.verdict, hlast]
        rfl
      rw [follow_zero rfl, hv]
      exact goes_finish h _ ⟨_, site.failure (made.length + 1) e, made.length + 1⟩ since
    | succ more =>
      have hmore : site.node.policy.retries? (made.length + 1) e.1 = true := by
        simp only [RuntimePolicy.retries?, hk, Bool.true_and, decide_eq_true_eq]
        omega
      have hv : site.node.policy.verdict b site.id (made.length + 1) (.error e) =
          .again (b.delay site.node.policy.backoffMs (made.length + 1)) := by
        rw [RuntimePolicy.verdict, hmore]
        rfl
      rw [follow_succ rfl, hv]
      cases hd : b.delay site.node.policy.backoffMs (made.length + 1) with
      | zero => exact hagain _ more rfl
      | succ d =>
        have hlen : (made ++ [(⟨began, s.now, .error e⟩ : Trial)]).length = made.length + 1 := List.length_append
        have hpause : site.Awaits b x.place x.inputs (.pausing since (made.length + 1) slot
            ⟨s.now + (d + 1), s.order⟩) since (s.now + (d + 1))
            (site.persist b x.place x.inputs slot more (made ++ [⟨began, s.now, .error e⟩])) := by
          rw [← hlen]
          exact .pausing since _ (by rw [hlen]; omega)
        exact goes_put (w := s.world) h hpause _ _

theorem attempt_of_finished {result : Except InvokeError Json} {w : World μ}
    (h : (site.work x.inputs slot).advance s.now s.world = (.finished result, w)) :
    attempt b site x since slot left number s =
      conclude b site { x with phase := .pausing since number slot ⟨s.now, s.order⟩ } since slot
        (match left with
          | 0 => fun _ s => s
          | left + 1 => attempt b site x since slot left)
        number (judge site.plan x.place site.node result) { s with world := w } := by
  cases left <;> rw [attempt, h]

theorem attempt_of_resting {ms : Nat} {next : Activity (World μ) (Except InvokeError Json)} {w : World μ}
    (h : (site.work x.inputs slot).advance s.now s.world = (.resting ms next, w)) :
    attempt b site x since slot left number s =
      { ({ s with world := w } : Schedule μ).put site.run { x with
          phase := .attempting since number slot next ⟨s.now + ms, s.order⟩
            ⟨s.now + site.node.policy.timeoutMs, s.order + 1⟩
          waitOrder := s.order } with order := s.order + 2 } := by
  cases left <;> rw [attempt, h]

/-- An attempt that rests is what its program rests with. -/
theorem goes_resting {ms k : Nat} {p next : Activity (World μ) (Except InvokeError Json)} {w : World μ}
    {wake limit : Alarm} (h : (s.execution? (site.run, x.place)).isSome = true)
    (hleft : left + (made.length + 1) = site.node.policy.retries)
    (hadv : p.advance s.now s.world = (.resting ms next, w)) (hk : 0 < k) (hwake : wake.due = s.now + ms)
    (hlimit : limit.due = s.now + k) (began order waitOrder : Nat) :
    site.Goes b x.place x.inputs since s.now
      { ({ s with world := w } : Schedule μ).put site.run { x with
          phase := .attempting since (made.length + 1) slot next wake limit, waitOrder } with order }
      (((site.tryOn x.place began (within k p)).bind
        (site.follow b x.place x.inputs slot left made)).advance s.now s.world) := by
  rw [advance_try_of_resting (advance_within_inTime hadv hk hwake hlimit)]
  refine goes_put h ?_ _ _
  have hdue : s.now + (min wake.due limit.due - s.now) = min wake.due limit.due := by omega
  rw [hdue]
  exact .attempting since began made hleft

/-- Attempts are made as their program says. -/
theorem goes_attempt (hp : 0 < site.node.policy.timeoutMs) (h : (s.execution? (site.run, x.place)).isSome = true)
    (hleft : left + (made.length + 1) = site.node.policy.retries) :
    site.Goes b x.place x.inputs since s.now (attempt b site x since slot left (made.length + 1) s)
      ((site.persist b x.place x.inputs slot left made).advance s.now s.world) := by
  have hpersist : ∀ (left : Nat) (made : List Trial) (s : Schedule μ),
      (site.persist b x.place x.inputs slot left made).advance s.now s.world =
        ((site.tryOn x.place s.now (within site.node.policy.timeoutMs (site.work x.inputs slot))).bind
          (site.follow b x.place x.inputs slot left made)).advance s.now s.world := fun _ _ _ => rfl
  induction left generalizing made s with
  | zero =>
    rw [hpersist]
    rcases hadv : (site.work x.inputs slot).advance s.now s.world with ⟨result | ⟨ms, next⟩, w⟩
    · rw [attempt_of_finished hadv, advance_try_of_finished (advance_within_of_finished hadv)]
      exact goes_conclude (x := { x with phase := .pausing .. }) (s := { s with world := w }) h hleft s.now
        (some result) fun one more hmore => by cases hmore
    · rw [attempt_of_resting hadv]
      exact goes_resting h hleft hadv hp rfl rfl _ _ _
  | succ left ih =>
    rw [hpersist]
    rcases hadv : (site.work x.inputs slot).advance s.now s.world with ⟨result | ⟨ms, next⟩, w⟩
    · rw [attempt_of_finished hadv, advance_try_of_finished (advance_within_of_finished hadv)]
      refine goes_conclude (x := { x with phase := .pausing .. }) (s := { s with world := w }) h hleft s.now
        (some result) fun one more hmore => ?_
      cases hmore
      have hlen : (made ++ [one]).length = made.length + 1 := List.length_append
      have hmore : left + ((made ++ [one]).length + 1) = site.node.policy.retries := by omega
      have hagain := ih (s := { s with world := w }) h hmore
      rw [hlen] at hagain
      exact hagain
    · rw [attempt_of_resting hadv]
      exact goes_resting h hleft hadv hp rfl rfl _ _ _

/-- So are those that follow an attempt that was resumed. -/
theorem goes_again (hp : 0 < site.node.policy.timeoutMs) (h : (s.execution? (site.run, x.place)).isSome = true)
    (hleft : left + (made.length + 1) = site.node.policy.retries) (one : Trial) (more : Nat)
    (hmore : left = more + 1) : site.Goes b x.place x.inputs since s.now
      (attempt b site x since slot (site.node.policy.retries - (made.length + 1) - 1) (made.length + 2) s)
      ((site.persist b x.place x.inputs slot more (made ++ [one])).advance s.now s.world) := by
  have hlen : (made ++ [one]).length = made.length + 1 := List.length_append
  have hmany : site.node.policy.retries - (made.length + 1) - 1 = more := by omega
  have hleft : more + ((made ++ [one]).length + 1) = site.node.policy.retries := by omega
  have hnext : site.Goes b x.place x.inputs since s.now
      (attempt b site x since slot more ((made ++ [one]).length + 1) s)
      ((site.persist b x.place x.inputs slot more (made ++ [one])).advance s.now s.world) :=
    goes_attempt hp h hleft
  rw [hlen] at hnext
  rw [hmany]
  exact hnext

theorem resume_of_resting {next rest : Activity (World μ) (Except InvokeError Json)} {wake limit : Alarm}
    {ms : Nat} {w : World μ} {y : Execution (World μ)}
    (hy : y = { x with phase := .attempting since number slot rest ⟨s.now + ms, s.order⟩ limit })
    (hwake : wake.due ≤ s.now) (h : next.advance s.now s.world = (.resting ms rest, w)) :
    resume b site x since number slot next wake limit s =
      if limit.due ≤ s.now then
        conclude b site y since slot (attempt b site x since slot (site.node.policy.retries - number - 1)) number
          (site.verify x.place none)
          { ({ s with world := w } : Schedule μ).put site.run y with order := s.order + 1 }
      else { ({ s with world := w } : Schedule μ).put site.run y with order := s.order + 1 } := by
  rw [resume, if_pos hwake, h, hy]
  rfl

theorem resume_of_late {next : Activity (World μ) (Except InvokeError Json)} {wake limit : Alarm}
    (hwake : ¬ wake.due ≤ s.now) (hlimit : limit.due ≤ s.now) :
    resume b site x since number slot next wake limit s =
      conclude b site x since slot (attempt b site x since slot (site.node.policy.retries - number - 1)) number
        (site.verify x.place none) s := by
  rw [resume, if_neg hwake]
  exact if_pos hlimit

theorem resume_of_early {next : Activity (World μ) (Except InvokeError Json)} {wake limit : Alarm}
    (hwake : ¬ wake.due ≤ s.now) (hlimit : ¬ limit.due ≤ s.now) :
    resume b site x since number slot next wake limit s = s := by
  rw [resume, if_neg hwake]
  exact if_neg hlimit

/-- An attempt that rested goes on as its program says. -/
theorem goes_resume (hp : 0 < site.node.policy.timeoutMs) (h : (s.execution? (site.run, x.place)).isSome = true)
    (hleft : left + (made.length + 1) = site.node.policy.retries)
    {next : Activity (World μ) (Except InvokeError Json)} {wake limit : Alarm}
    (hnow : s.now = min wake.due limit.due) (began : Nat) :
    site.Goes b x.place x.inputs since s.now (resume b site x since (made.length + 1) slot next wake limit s)
      (((site.tryOn x.place began (inTime wake limit next)).bind
        (site.follow b x.place x.inputs slot left made)).advance s.now s.world) := by
  by_cases hwake : wake.due ≤ limit.due
  · have hdue : wake.due = s.now := (hnow.trans (min_eq_left hwake)).symm
    rw [inTime, if_pos hwake]
    rcases hadv : next.advance s.now s.world with ⟨result | ⟨ms, rest⟩, w⟩
    · rw [advance_try_of_finished (advance_within_of_finished hadv), resume, if_pos (Nat.le_of_eq hdue), hadv]
      exact goes_conclude (s := { s with world := w }) h hleft began (some result)
        (goes_again (s := { s with world := w }) hp h hleft)
    · rw [resume_of_resting rfl (Nat.le_of_eq hdue) hadv]
      by_cases hlimit : limit.due ≤ s.now
      · -- it would rest on, but has no time left
        have hnone : (within (limit.due - wake.due) next).advance s.now s.world = (.finished none, w) := by
          rw [advance_within_of_resting hadv, if_pos (by omega)]
        let y : Execution (World μ) :=
          { x with phase := .attempting since (made.length + 1) slot rest ⟨s.now + ms, s.order⟩ limit }
        let u : Schedule μ := { ({ s with world := w } : Schedule μ).put site.run y with order := s.order + 1 }
        have hput : (u.execution? (site.run, y.place)).isSome = true :=
          isSome_execution?_put (s := { s with world := w }) h site.run y
        rw [advance_try_of_finished hnone, if_pos hlimit]
        exact goes_conclude (x := y) (s := u) hput hleft began none (goes_again (x := x) (s := u) hp hput hleft)
      · rw [if_neg hlimit]
        refine goes_resting h hleft hadv (by omega) rfl ?_ _ _ _
        omega
  · have hdue : limit.due = s.now := (hnow.trans (min_eq_right (Nat.le_of_not_le hwake))).symm
    have hearly : ¬ wake.due ≤ s.now := hdue ▸ hwake
    have hnone : (inTime wake limit next).advance s.now s.world = (.finished none, s.world) := by
      rw [inTime, if_neg hwake]
      rfl
    rw [advance_try_of_finished hnone, resume_of_late hearly (Nat.le_of_eq hdue)]
    exact goes_conclude h hleft began none (goes_again hp h hleft)

/-- What a policy has to be for attempts to be made as it says. -/
structure Patient (site : Site μ) : Prop where
  retries : 1 ≤ site.node.policy.retries
  timeout : 0 < site.node.policy.timeoutMs

/-- An execution that has its permits begins its task. -/
theorem goes_begin (hp : site.Patient) (h : (s.execution? (site.run, x.place)).isSome = true) :
    site.Goes b x.place x.inputs s.now s.now (begin b site x s)
      ((site.task b x.place x.inputs).advance s.now s.world) := by
  unfold begin
  cases hb : Slot.bind s.world site.run ⟨site.id, site.context, x.inputs⟩ site.node.state with
  | error e =>
    rw [advance_task_of_error hb]
    exact goes_finish (x := { x with phase := .pausing .. }) h _ ⟨[], site.failure 1 (.invocation, e.message), 1⟩
      s.now
  | ok slot =>
    have htask : (site.task b x.place x.inputs).advance s.now s.world =
        (site.persist b x.place x.inputs slot (site.node.policy.retries - 1) []).advance s.now s.world := by
      rw [task, Activity.advance, hb]
    have hleft : site.node.policy.retries - 1 + (([] : List Trial).length + 1) = site.node.policy.retries :=
      Nat.sub_add_cancel hp.retries
    rw [htask]
    exact goes_attempt (x := { x with phase := .pausing .. }) hp.timeout h hleft

theorem Enters.of_eq {place : Nat} {inputs : Inputs} {s' t : Schedule μ} (h : site.Enters b place inputs s' t)
    (hn : s'.now = s.now) (hw : s'.world = s.world) : site.Enters b place inputs s t := by
  cases h with
  | waits hw' hx hi hp => exact .waits (hw'.trans hw) hx hi hp
  | begins h =>
    rw [hn, hw] at h
    exact .begins h

theorem enters_enterRun (hp : site.Patient) (h : (s.execution? (site.run, x.place)).isSome = true) :
    site.Enters b x.place x.inputs s (enterRun b site x since s) := by
  obtain ⟨y, hy⟩ := Option.isSome_iff_exists.mp h
  obtain ⟨r, hr, -⟩ := Option.bind_eq_some_iff.mp hy
  rw [enterRun, hr]
  dsimp only
  have hchange : ∀ permits, ((s.change site.run (fun r => { r with permits })).execution?
      (site.run, x.place)).isSome = true := fun permits => by
    rw [execution?_change_same (f := fun r => { r with permits }) fun _ => rfl]
    exact h
  split
  · exact .begins (goes_begin hp (hchange _))
  · exact .waits rfl (execution?_put (x := { x with phase := .queued .. }) (hchange _)) rfl rfl

theorem enters_enter (hp : site.Patient) (h : (s.execution? (site.run, x.place)).isSome = true) :
    site.Enters b x.place x.inputs s (enter b site x s) := by
  unfold enter
  dsimp only
  split
  · exact (enters_enterRun (s := { s with order := s.order + 1 }) (x := { x with waitOrder := s.order })
      hp h).of_eq rfl rfl
  · next key max _ =>
    have hlimits : ∀ limits, site.Enters b x.place x.inputs s (enterRun b site { x with waitOrder := s.order }
        s.now { s with order := s.order + 1, limits }) := fun limits =>
      (enters_enterRun (s := { s with order := s.order + 1, limits }) (x := { x with waitOrder := s.order })
        hp h).of_eq rfl rfl
    split
    · exact hlimits _
    · exact .waits rfl (execution?_put (x := { x with phase := .queued .., waitOrder := s.order }) (by exact h))
        rfl rfl

end Site

variable {b : Backoff} {site : Site μ} {place due since : Nat} {p : Activity (World μ) Ending} {r : Run μ}

theorem turnNode_of_running (hr : s.runs[run]? = some r) (hs : r.stopped = false)
    (hx : r.execution? place = some x) (hsite : s.site? run place = some site) :
    s.turnNode b run place =
      match x.phase with
      | .fresh => enter b site x s
      | .queued since .node true => enterRun b site x since s
      | .queued _ .run true => begin b site x s
      | .queued _ _ false => s
      | .attempting since number slot next wake limit => resume b site x since number slot next wake limit s
      | .pausing since number slot wake =>
        if wake.due ≤ s.now then
          attempt b site x since slot (site.node.policy.retries - number - 1) (number + 1) s
        else s := by
  rw [turnNode, hr, hsite]
  dsimp only
  rw [hx]
  dsimp only
  rw [hs]
  rfl

theorem enters_turnNode (hr : s.runs[run]? = some r) (hs : r.stopped = false)
    (hx : r.execution? place = some x) (hsite : s.site? run place = some site) (hp : site.Patient)
    (hw : x.phase.waits = true) : site.Enters b place x.inputs s (s.turnNode b run place) := by
  obtain ⟨rfl, -⟩ := of_site? hsite
  have hplace := Run.place_of_execution? hx
  subst hplace
  have hexec : s.execution? (site.run, x.place) = some x := Option.bind_eq_some_iff.mpr ⟨r, hr, hx⟩
  have hsome : (s.execution? (site.run, x.place)).isSome = true := Option.isSome_iff_exists.mpr ⟨x, hexec⟩
  rw [turnNode_of_running hr hs hx hsite]
  split
  · exact Site.enters_enter hp hsome
  · exact Site.enters_enterRun hp hsome
  · exact .begins (Site.goes_begin hp hsome)
  · exact .waits rfl hexec rfl hw
  · next hphase =>
    rw [hphase] at hw
    cases hw
  · next hphase =>
    rw [hphase] at hw
    cases hw

theorem turnNode_of_early (hr : s.runs[run]? = some r) (hs : r.stopped = false)
    (hx : r.execution? place = some x) (hsite : s.site? run place = some site)
    (hn : x.phase.next? = some due) (hlt : s.now < due) : s.turnNode b run place = s := by
  rw [turnNode_of_running hr hs hx hsite]
  cases hphase : x.phase with
  | fresh | queued =>
    rw [hphase] at hn
    cases hn
  | attempting since number slot next wake limit =>
    rw [hphase] at hn
    have hmin : s.now < min wake.due limit.due := (Option.some.inj hn) ▸ hlt
    exact Site.resume_of_early (by omega) (by omega)
  | pausing since number slot wake =>
    rw [hphase] at hn
    have hearly : s.now < wake.due := (Option.some.inj hn) ▸ hlt
    exact if_neg (Nat.not_le_of_lt hearly)

theorem goes_turnNode (hr : s.runs[run]? = some r) (hs : r.stopped = false)
    (hx : r.execution? place = some x) (hsite : s.site? run place = some site) (hp : site.Patient)
    (ha : site.Awaits b place x.inputs x.phase since due p) (hnow : s.now = due) :
    site.Goes b place x.inputs since s.now (s.turnNode b run place) (p.advance s.now s.world) := by
  obtain ⟨rfl, -⟩ := of_site? hsite
  have hplace := Run.place_of_execution? hx
  subst hplace
  have hexec : s.execution? (site.run, x.place) = some x := Option.bind_eq_some_iff.mpr ⟨r, hr, hx⟩
  have hsome : (s.execution? (site.run, x.place)).isSome = true := Option.isSome_iff_exists.mpr ⟨x, hexec⟩
  rw [turnNode_of_running hr hs hx hsite]
  generalize x.phase = phase at ha
  cases ha with
  | attempting since began made hleft => exact Site.goes_resume hp.timeout hsome hleft hnow began
  | @pausing slot wake left since made hleft =>
    have hmany : site.node.policy.retries - made.length - 1 = left := by omega
    dsimp only
    rw [if_pos (Nat.le_of_eq hnow.symm), hmany]
    exact Site.goes_attempt hp.timeout hsome hleft

/-- The turn of an execution of a run whose nodes are cancelled ends it, whatever it was doing: nothing is done
in the world, and it is told to be cancelled. -/
structure Site.CallsOff (site : Site μ) (x : Execution (World μ)) (s t : Schedule μ) : Prop where
  world : t.world = s.world
  told : ∃ r, t.runs[site.run]? = some r ∧ r.execution? x.place = none ∧
    x.phase.calledOff x.place s.now ∈ r.finished

theorem callsOff_turnNode (hr : s.runs[run]? = some r) (hs : r.stopped = true)
    (hx : r.execution? place = some x) (hsite : s.site? run place = some site) :
    site.CallsOff x s (s.turnNode b run place) := by
  obtain ⟨rfl, -⟩ := of_site? hsite
  have hplace := Run.place_of_execution? hx
  subst hplace
  refine ⟨world_turnNode hr (.inl hs), ?_⟩
  rw [turnNode, hr, hsite]
  dsimp only
  rw [hx]
  dsimp only
  rw [if_pos hs]
  unfold finishCancelled
  split
  · next hphase =>
    rw [hphase, Phase.calledOff, ← Nat.sub_self s.now]
    exact exists_finished hr x .cancelled ..
  all_goals
    next hphase =>
      rw [hphase]
      exact exists_finished hr x .cancelled ..

end Schedule

end Workflow
