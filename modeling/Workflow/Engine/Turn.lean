import Workflow.Engine.Schedule
import Workflow.Run.Retry

namespace Workflow

namespace Schedule

variable {μ : Type}

/-- Judge the result of an invocation by the output ports of the node. -/
def judge (p : Plan) (place : Nat) (n : Node) : Except InvokeError Json → AttemptResult
  | .error e => .error (e.kind, e.message)
  | .ok v =>
    match p.validate place n v with
    | .ok _ => .ok v
    | .error reason => .error (.outputSchema, reason)

/-- The execution of a node, with what it needs to know of its run. -/
structure Site (μ : Type) where
  run : Nat
  plan : Plan
  context : Context
  id : String
  node : Node
  work : Work μ

def site? (s : Schedule μ) (run place : Nat) : Option (Site μ) := do
  let r ← s.runs[run]?
  let (id, node) ← r.node? place
  let work ← r.work[place]?
  some ⟨run, r.plan, r.context, id, node, work⟩

/-- Take the result of an attempt into account: the execution ends, or another attempt follows after a
pause. With no pause between them attempts are made in one turn. A stop of the run that comes while they are
made is seen when the node has its next turn. -/
def conclude (b : Backoff) (t : Site μ) (x : Execution (World μ)) (since : Nat) (slot : Option Slot)
    (again : Nat → Schedule μ → Schedule μ) (number : Nat) (result : AttemptResult)
    (s : Schedule μ) : Schedule μ :=
  match t.node.policy.verdict b t.id number result with
  | .ended outcome => s.finish t.run x outcome number true since
  | .again 0 => again (number + 1) s
  | .again ms =>
    let phase : Phase (World μ) := .pausing since number slot ⟨s.now + ms, s.order⟩
    { s.put t.run { x with phase, waitOrder := s.order } with order := s.order + 1 }

/-- Make attempts from one number on, until one takes time or the execution ends; `left` more may
follow. -/
def attempt (b : Backoff) (t : Site μ) (x : Execution (World μ)) (since : Nat) (slot : Option Slot)
    (left number : Nat) (s : Schedule μ) : Schedule μ :=
  let again : Nat → Schedule μ → Schedule μ :=
    match left with
    | 0 => fun _ s => s
    | left + 1 => attempt b t x since slot left
  let (progress, world) :=
    (t.work x.inputs slot).advance s.now s.world
  let s := { s with world }
  match progress with
  | .resting ms next =>
    let phase : Phase (World μ) := .attempting since number slot next ⟨s.now + ms, s.order⟩
      ⟨s.now + t.node.policy.timeoutMs, s.order + 1⟩
    { s.put t.run { x with phase, waitOrder := s.order } with order := s.order + 2 }
  | .finished result =>
    let held := { x with phase := .pausing since number slot ⟨s.now, s.order⟩ }
    conclude b t held since slot again number (judge t.plan x.place t.node result) s

/-- Begin an execution that has its permits. -/
def begin (b : Backoff) (t : Site μ) (x : Execution (World μ)) (s : Schedule μ) : Schedule μ :=
  let held := { x with phase := .pausing s.now 0 none ⟨s.now, s.order⟩ }
  match Slot.bind s.world t.run ⟨t.id, t.context, x.inputs⟩ t.node.state with
  | .error e => s.finish t.run held (.failed ⟨some t.id, .invocation, 1, e.message⟩) 1 true s.now
  | .ok slot => attempt b t held s.now slot (t.node.policy.retries - 1) 1 s

/-- Ask for a permit of the run. -/
def enterRun (b : Backoff) (t : Site μ) (x : Execution (World μ)) (since : Nat) (s : Schedule μ) :
    Schedule μ :=
  match s.runs[t.run]? with
  | none => s
  | some r =>
    let (taken, permits) := r.permits.acquire x.place
    let s := s.change t.run (fun r => { r with permits })
    if taken then begin b t x s else s.put t.run { x with phase := .queued since .run false }

/-- Ask for the permits of an execution: first that of its node, if it has a limit. -/
def enter (b : Backoff) (t : Site μ) (x : Execution (World μ)) (s : Schedule μ) : Schedule μ :=
  let x := { x with waitOrder := s.order }
  let s := { s with order := s.order + 1 }
  match (s.runs[t.run]?).bind (fun r => r.limitOf? x.place) with
  | none => enterRun b t x s.now s
  | some (key, max) =>
    let (taken, permits) := ((s.limits.get? key).getD ⟨max, []⟩).acquire (t.run, x.place)
    let s := { s with limits := s.limits.insert key permits }
    if taken then enterRun b t x s.now s
    else s.put t.run { x with phase := .queued s.now .node false }

/-- Go on with an attempt that rested. One that ends just in time has not run out of it. -/
def resume (b : Backoff) (t : Site μ) (x : Execution (World μ)) (since number : Nat)
    (slot : Option Slot) (next : Activity (World μ) (Except InvokeError Json)) (wake limit : Alarm)
    (s : Schedule μ) : Schedule μ :=
  let again := attempt b t x since slot (t.node.policy.retries - number - 1)
  let expired (s : Schedule μ) (x : Execution (World μ)) : Schedule μ :=
    if limit.due ≤ s.now then
      conclude b t x since slot again number
        (.error (.timeout, s!"attempt timed out after {t.node.policy.timeoutMs}ms")) s
    else s
  if wake.due ≤ s.now then
    let (progress, world) := next.advance s.now s.world
    let s := { s with world }
    match progress with
    | .finished result =>
      conclude b t x since slot again number (judge t.plan x.place t.node result) s
    | .resting ms next =>
      let x := { x with
        phase := .attempting since number slot next ⟨s.now + ms, s.order⟩ limit }
      expired { s.put t.run x with order := s.order + 1 } x
  else expired s x

/-- The turn of the execution of a node. -/
def turnNode (b : Backoff) (s : Schedule μ) (run place : Nat) : Schedule μ :=
  match s.runs[run]?, s.site? run place with
  | some r, some t =>
    match r.execution? place with
    | none => s
    | some x =>
      if r.stopped then s.finishCancelled run x
      else
        match x.phase with
        | .fresh => enter b t x s
        | .queued since .node true => enterRun b t x since s
        | .queued _ .run true => begin b t x s
        | .queued _ _ false => s
        | .attempting since number slot next wake limit =>
          resume b t x since number slot next wake limit s
        | .pausing since number slot wake =>
          if wake.due ≤ s.now then
            attempt b t x since slot (t.node.policy.retries - number - 1) (number + 1) s
          else s
  | _, _ => s

/-- Start the executions of nodes. Permits of nodes come about when the first execution starts. -/
def launch (s : Schedule μ) (run : Nat) (started : List (Nat × Inputs)) : Schedule μ :=
  started.foldl (fun s p =>
    let s := match (s.runs[run]?).bind (fun r => r.limitOf? p.1) with
      | some (key, max) => { s with limits := s.limits.insertNew key ⟨max, []⟩ }
      | none => s
    (s.change run (fun r => { r with
      executions := r.executions ++ [⟨p.1, p.2, .fresh, 0⟩] })).wake (.node run p.1)) s

/-- Stop a run from outside. -/
def abort (s : Schedule μ) (run : Nat) (e : RunError) : Schedule μ :=
  (s.change run (fun r => { r with progress := r.progress.abort e })).stopNodes run

/-- Start the nodes of a run that are ready. -/
def startReady (s : Schedule μ) (run : Nat) : Schedule μ :=
  match s.runs[run]? with
  | none => s
  | some r =>
    let (progress, started) := r.progress.round r.plan
    (s.change run (fun r => { r with progress, alarm := none })).launch run started

/-- Have a run end, which can no longer be cancelled then. -/
def close (s : Schedule μ) (run : Nat) (r : Run μ) : Schedule μ :=
  { s.change run (fun r => { r with ended := true }) with
    registry := s.registry.unregister r.context.traceId run }

/-- Look at cancellation, the deadline and the next completion of a run, in this order; wait when there is
nothing of these. -/
def look (s : Schedule μ) (run : Nat) (r : Run μ) : Schedule μ :=
  if r.cancelled ∧ !r.progress.aborted then s.abort run (.ofRun .cancelled "run cancelled")
  else if !r.progress.aborted ∧ r.deadlineAt.any (· ≤ s.now) then
    s.abort run (.ofRun .timeout s!"run deadline of {r.deadlineMs.getD 0}ms exceeded")
  else
    match r.finished with
    | c :: rest =>
      let progress := r.progress.complete r.plan r.context c
      let s := s.change run (fun r => { r with progress, finished := rest })
      if progress.isStopping then s.stopNodes run else s
    | [] =>
      if r.progress.aborted then s
      else
        let alarm := r.deadlineAt.map (fun due => (⟨due, s.order⟩ : Alarm))
        { s.change run (fun r => { r with alarm }) with order := s.order + 1 }

/-- The turn of the coordination of a run: start what is ready, then look at what has happened, and begin
again until there is nothing to look at. A run without executions has ended. -/
def turnRun (run : Nat) : Nat → Schedule μ → Schedule μ
  | 0, s => s
  | fuel + 1, s =>
    let s := s.startReady run
    match s.runs[run]? with
    | none => s
    | some r =>
      if r.executions.isEmpty ∧ r.finished.isEmpty then s.close run r
      else if r.isWaiting s.now then s.look run r
      else turnRun run fuel (s.look run r)

/-- Have the coordination of a run go on for as long as it can. -/
def coordinate (s : Schedule μ) (run : Nat) : Schedule μ :=
  match s.runs[run]? with
  | none => s
  | some r => if r.ended then s else turnRun run (r.finished.length + 3) s

/-- Put a run under way; from now on it can be cancelled. -/
def enrol (s : Schedule μ) (r : Run μ) : Nat × Schedule μ :=
  (s.runs.length, { s with
    runs := s.runs ++ [r]
    registry := s.registry.register r.context.traceId s.runs.length })

end Schedule

/-- A run that was made ready, with its inputs bound. -/
def Run.ofPrepared {μ : Type} (c : Config) (now : Nat) (p : Prepared μ) : Run μ where
  plan := p.plan
  work := p.work
  context := p.context
  deadlineMs := p.deadlineMs
  startedAt := now
  progress := (Progress.start p.plan).bindInputs p.plan p.context p.inputs
  permits := ⟨max c.parallel 1, []⟩

end Workflow
