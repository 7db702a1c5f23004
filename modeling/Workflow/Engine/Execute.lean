import Workflow.Engine.Turn

namespace Workflow

/-- A bound on the turns that the execution of a node takes: its entry, each rest of each attempt, and
each pause. -/
def Node.turns (n : Node) (rests : Transform → Nat) : Nat :=
  8 + n.policy.retries * (rests n.transform + 4)

/-- A bound on the turns that a run of a flow takes, with those of its coordination. -/
def Flow.turns (f : Flow) (rests : Transform → Nat) : Nat :=
  8 + Number.total (f.nodes.map (fun e => 2 + e.2.turns rests))

/-- A bound on the turns that an errand and what it starts take. -/
def Errand.turns (rests : Transform → Nat) : Errand → Nat
  | .start f _ => 4 + f.turns rests
  | .cancel _ => 4

namespace Schedule

variable {μ : Type}

def perform (e : Engine μ) (s : Schedule μ) : Errand → ErrandState × Schedule μ
  | .start f request =>
    match e.prepare f request with
    | .error err => (.refused err, s)
    | .ok p =>
      let (run, s) := s.enrol (.ofPrepared e.config s.now p)
      (.started run, s.coordinate run)
  | .cancel none => (.cancelled s.registry.count none, s)
  | .cancel (some traceId) =>
    let (found, next) := s.cancel traceId
    (.cancelled s.registry.count (some found), next)

def setErrand (s : Schedule μ) (place : Nat) (state : ErrandState) : Schedule μ :=
  { s with errands := s.errands.modify place (fun x => (x.1, x.2.1, state)) }

/-- The turn of an errand: it is done when its time has come. -/
def turnErrand (e : Engine μ) (s : Schedule μ) (place : Nat) : Schedule μ :=
  match s.errands[place]? with
  | some (delay, errand, .waiting alarm) =>
    let isDue : Bool := match alarm with
      | none => delay = 0
      | some a => a.due ≤ s.now
    if isDue then
      let (state, s) := s.perform e errand
      s.setErrand place state
    else if alarm.isSome then s
    else { s.setErrand place (.waiting (some ⟨s.now + delay, s.order⟩)) with order := s.order + 1 }
  | _ => s

def turn (e : Engine μ) (s : Schedule μ) : Job → Schedule μ
  | .errand place => s.turnErrand e place
  | .run run => s.coordinate run
  | .node run place => s.turnNode e.config.backoff run place

/-- The next step: the turn of the first job in the queue, or the next alarm when the queue is empty;
nothing when no alarm is set either. -/
def step? (e : Engine μ) (s : Schedule μ) : Option (Schedule μ) :=
  match s.queue with
  | job :: rest => some (turn e { s with queue := rest } job)
  | [] => s.ring?

def advance (e : Engine μ) : Nat → Schedule μ → Schedule μ
  | 0, s => s
  | n + 1, s =>
    match s.step? e with
    | some next => advance e n next
    | none => s

/-- Do errands at their times, and all that they start. -/
def doErrands (e : Engine μ) (s : Schedule μ) (errands : List (Nat × Errand)) : Schedule μ :=
  let s := { s with
    errands := errands.map (fun (delay, errand) => (delay, errand, .waiting none))
    queue := (List.range errands.length).map Job.errand }
  s.advance e (2 * Number.total (errands.map (fun (_, errand) => errand.turns e.rests)))

/-- The results of the errands that start runs. -/
def results (s : Schedule μ) : List (Except StartError Report) :=
  s.errands.filterMap (fun (_, _, state) =>
    match state with
    | .refused err => some (.error err)
    | .started run => (s.runs[run]?).map (fun r => .ok r.report)
    | _ => none)

/-- For the errands that cancel runs, how many runs were under way, and whether there was one to
cancel. -/
def cancellations (s : Schedule μ) : List (Nat × Option Bool) :=
  s.errands.filterMap (fun (_, _, state) =>
    match state with
    | .cancelled active found => some (active, found)
    | _ => none)

end Schedule

namespace Engine

variable {μ : Type}

def complete (e : Engine μ) (p : Prepared μ) (s : Schedule μ) : Report × Schedule μ :=
  let opened := Run.ofPrepared e.config s.now p
  let (run, s) := s.enrol opened
  let s := (s.coordinate run).advance e (2 * p.plan.flow.turns e.rests)
  (((s.runs[run]?).getD opened).report, s)

def execute (e : Engine μ) (f : Flow) (request : Request) (s : Schedule μ) :
    Except StartError Report × Schedule μ :=
  match e.prepare f request with
  | .error err => (.error err, s)
  | .ok p =>
    let (report, s) := e.complete p s
    (.ok report, s)

def run (e : Engine μ) (p : Plan) (ctx : Context) (inputs : Inputs) (s : Schedule μ) :
    Report × Schedule μ :=
  match e.preparePlan p ctx inputs with
  | .error report => (report, s)
  | .ok p => e.complete p s

end Engine

end Workflow
