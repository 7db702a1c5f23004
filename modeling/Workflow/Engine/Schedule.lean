import Workflow.Engine.Basic
import Workflow.Engine.Permits
import Workflow.Engine.Registry
import Workflow.Run.Progress

namespace Workflow

/-- A time to wake at. Of alarms for the same time the one that was set first comes first. -/
structure Alarm where
  due : Nat
  order : Nat

/-- Which permit an execution waits for: one of its node, or one of its run. -/
inductive Gate where
  | node
  | run
  deriving DecidableEq

/-- What the execution of a node is doing: it has not begun, waits for a permit, makes an attempt, or
pauses before the next. Attempts and pauses tell since when the execution has its permits. -/
inductive Phase (σ : Type) where
  | fresh
  | queued (since : Nat) (gate : Gate) (granted : Bool)
  | attempting (since number : Nat) (slot : Option Slot) (next : Activity σ (Except InvokeError Json))
      (wake limit : Alarm)
  | pausing (since number : Nat) (slot : Option Slot) (wake : Alarm)

/-- The execution of a node, and when its present wait began. -/
structure Execution (σ : Type) where
  place : Nat
  inputs : Inputs
  phase : Phase σ
  waitOrder : Nat

/-- A run under way: its executions, the completions that were not yet taken into account, the permits
of its nodes, and whether it was cancelled, its nodes were, or it has ended. -/
structure Run (μ : Type) where
  plan : Plan
  work : List (Work μ)
  context : Context
  deadlineMs : Option Nat
  startedAt : Nat
  progress : Progress
  permits : Permits Nat
  executions : List (Execution (World μ)) := []
  finished : List Completion := []
  cancelled : Bool := false
  stopped : Bool := false
  alarm : Option Alarm := none
  ended : Bool := false

/-- Something to be done at a time: start a run, or cancel the runs of a trace id, if one is given, and
count the runs under way before that. -/
inductive Errand where
  | start (f : Flow) (request : Request)
  | cancel (traceId : Option String)

inductive ErrandState where
  | waiting (alarm : Option Alarm)
  | refused (e : StartError)
  | started (run : Nat)
  | cancelled (active : Nat) (found : Option Bool)

/-- What can have its turn: an errand, the coordination of a run, or the execution of a node. -/
inductive Job where
  | errand (place : Nat)
  | run (run : Nat)
  | node (run place : Nat)
  deriving DecidableEq

/-- All that goes on in an engine at a time. Jobs have their turns in the order of the queue. An errand
waits for the time that stands before it. -/
structure Schedule (μ : Type) where
  now : Nat := 0
  order : Nat := 0
  world : World μ
  limits : Assoc (Permits (Nat × Nat)) := []
  registry : Registry := []
  runs : List (Run μ) := []
  errands : List (Nat × Errand × ErrandState) := []
  queue : List Job := []

namespace Run

variable {μ : Type}

def execution? (run : Run μ) (place : Nat) : Option (Execution (World μ)) :=
  run.executions.find? (fun x => x.place = place)

def put (run : Run μ) (x : Execution (World μ)) : Run μ :=
  { run with executions := run.executions.map (fun y => if y.place = x.place then x else y) }

def drop (run : Run μ) (place : Nat) : Run μ :=
  { run with executions := run.executions.filter (fun x => x.place ≠ place) }

def node? (run : Run μ) (place : Nat) : Option (String × Node) := run.plan.flow.nodes[place]?

/-- The outcome of a run, which is settled once the run has ended. -/
def report (run : Run μ) : Report := run.progress.report run.plan run.context.traceId

def deadlineAt (run : Run μ) : Option Nat := run.deadlineMs.map (run.startedAt + ·)

/-- Whether a run is called off: it was cancelled, or its deadline has come. -/
def isCalled (run : Run μ) (now : Nat) : Bool := run.cancelled || run.deadlineAt.any (· ≤ now)

/-- Whether there is nothing for the coordination of a run to look at. -/
def isWaiting (run : Run μ) (now : Nat) : Bool :=
  run.finished.isEmpty && (run.progress.aborted || !run.isCalled now)

/-- The name of the permits of a node with a limit of its own. Flows of one name share them. -/
def limitOf? (run : Run μ) (place : Nat) : Option (String × Nat) := do
  let (id, n) ← run.node? place
  let max ← n.policy.maxConcurrency
  some (s!"{run.plan.flow.name}::{id}", max)

end Run

namespace Schedule

variable {μ : Type}

/-- Give a job a turn, unless it has one ahead. -/
def wake (s : Schedule μ) (job : Job) : Schedule μ :=
  if job ∈ s.queue then s else { s with queue := s.queue ++ [job] }

def change (s : Schedule μ) (run : Nat) (f : Run μ → Run μ) : Schedule μ :=
  { s with runs := s.runs.modify run f }

def put (s : Schedule μ) (run : Nat) (x : Execution (World μ)) : Schedule μ :=
  s.change run (fun r => r.put x)

/-- Note that a permit was given to an execution that waits for it. -/
def grant (s : Schedule μ) (run place : Nat) : Schedule μ :=
  let granted (x : Execution (World μ)) : Execution (World μ) :=
    match x.phase with
    | .queued since gate _ => { x with phase := .queued since gate true }
    | _ => x
  (s.change run (fun r => { r with
    executions := r.executions.map (fun x => if x.place = place then granted x else x) })).wake
    (.node run place)

def releaseLimit (s : Schedule μ) (run place : Nat) : Schedule μ :=
  match (s.runs[run]?).bind (fun r => r.limitOf? place) with
  | none => s
  | some (key, max) =>
    let (next, permits) := ((s.limits.get? key).getD ⟨max, []⟩).release
    let s := { s with limits := s.limits.insert key permits }
    match next with
    | some (other, i) => s.grant other i
    | none => s

def releaseRun (s : Schedule μ) (run : Nat) : Schedule μ :=
  match s.runs[run]? with
  | none => s
  | some r =>
    let (next, permits) := r.permits.release
    let s := s.change run (fun r => { r with permits })
    match next with
    | some i => s.grant run i
    | none => s

def leaveLimit (s : Schedule μ) (run place : Nat) : Schedule μ :=
  match (s.runs[run]?).bind (fun r => r.limitOf? place) with
  | none => s
  | some (key, max) =>
    let permits := ((s.limits.get? key).getD ⟨max, []⟩).leave (run, place)
    { s with limits := s.limits.insert key permits }

def leaveRun (s : Schedule μ) (run place : Nat) : Schedule μ :=
  s.change run (fun r => { r with permits := r.permits.leave place })

/-- Give back all permits of an execution, and stop waiting for others. -/
def releaseAll (s : Schedule μ) (run : Nat) (x : Execution (World μ)) : Schedule μ :=
  match x.phase with
  | .fresh => s
  | .queued _ .node granted =>
    if granted then s.releaseLimit run x.place else s.leaveLimit run x.place
  | .queued _ .run granted =>
    (if granted then s.releaseRun run else s.leaveRun run x.place).releaseLimit run x.place
  | _ => (s.releaseLimit run x.place).releaseRun run

def finish (s : Schedule μ) (run : Nat) (x : Execution (World μ)) (outcome : Outcome)
    (attempts : Nat) (started : Bool) (since : Nat) : Schedule μ :=
  let s := s.releaseAll run x
  let startedAt := if started then some since else none
  let completion : Completion := ⟨x.place, outcome, attempts, startedAt, s.now - since⟩
  (s.change run (fun r => { r.drop x.place with finished := r.finished ++ [completion] })).wake
    (.run run)

def finishCancelled (s : Schedule μ) (run : Nat) (x : Execution (World μ)) : Schedule μ :=
  match x.phase with
  | .fresh => s.finish run x .cancelled 0 false s.now
  | .queued since _ _ => s.finish run x .cancelled 0 false since
  | .attempting since number _ _ _ _ => s.finish run x .cancelled number true since
  | .pausing since number _ _ => s.finish run x .cancelled number true since

/-- Cancel the nodes of a run: those that wait have their turns in the order in which they began to. -/
def stopNodes (s : Schedule μ) (run : Nat) : Schedule μ :=
  match s.runs[run]? with
  | none => s
  | some r =>
    if r.stopped then s
    else
      let waiting := r.executions.filter (fun x =>
        match x.phase with
        | .fresh => false
        | _ => true)
      let places := (waiting.mergeSort (fun x y => x.waitOrder ≤ y.waitOrder)).map Execution.place
      places.foldl (fun s i => s.wake (.node run i)) (s.change run (fun r => { r with stopped := true }))

/-- Cancel the runs of a trace id, and tell whether there are any. -/
def cancel (s : Schedule μ) (traceId : String) : Bool × Schedule μ :=
  let runs := s.registry.runsOf traceId
  let cancelRun (s : Schedule μ) (run : Nat) : Schedule μ :=
    if (s.runs[run]?).any Run.cancelled then s
    else ((s.stopNodes run).change run (fun r => { r with cancelled := true })).wake (.run run)
  (!runs.isEmpty, runs.foldl cancelRun s)

def alarmsOf (run : Nat) (r : Run μ) : List (Alarm × Job) :=
  (r.alarm.map (fun a => (a, Job.run run))).toList
    ++ r.executions.flatMap (fun x =>
      match x.phase with
      | .attempting _ _ _ _ wake limit => [(wake, .node run x.place), (limit, .node run x.place)]
      | .pausing _ _ _ wake => [(wake, .node run x.place)]
      | _ => [])

def alarms (s : Schedule μ) : List (Alarm × Job) :=
  ((List.range s.runs.length).zip s.runs).flatMap (fun p => alarmsOf p.1 p.2)
    ++ ((List.range s.errands.length).zip s.errands).filterMap (fun p =>
      match p.2.2.2 with
      | .waiting (some a) => some (a, Job.errand p.1)
      | _ => none)

/-- Go on to the next time at which an alarm is due, and wake all whose alarm is due then; nothing when
no alarm is set. -/
def ring? (s : Schedule μ) : Option (Schedule μ) :=
  let set := s.alarms
  match set.map (fun p => p.1.due) with
  | [] => none
  | first :: more =>
    let now := max s.now (more.foldl min first)
    let due := (set.filter (fun p => p.1.due ≤ now)).mergeSort (fun a b =>
      a.1.due < b.1.due || (a.1.due = b.1.due && a.1.order ≤ b.1.order))
    some (due.foldl (fun s p => s.wake p.2) { s with now })

end Schedule

end Workflow
