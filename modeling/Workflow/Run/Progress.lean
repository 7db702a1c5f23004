import Workflow.Capability.Basic
import Workflow.Run.Delivery
import Workflow.Run.Outcome
import Workflow.Run.Report

namespace Workflow

/-- What has come of a link: nothing yet, no value, or a value. -/
inductive LinkState where
  | pending
  | empty
  | delivered (v : Json)

/-- The end of an execution: of which node, how, after how many attempts, when it began, if it did, and
how long it took. -/
structure Completion where
  place : Nat
  outcome : Outcome
  attempts : Nat
  startedAt : Option Nat
  durationMs : Nat

/-- How far a run has come. For every node the number of links into it without a result is kept; nodes
that wait for no link are ready, in the order of their layer and place. -/
structure Progress where
  links : List LinkState
  waiting : List Nat
  ready : List (Nat × Nat)
  outputs : Assoc Json := []
  trace : List Record := []
  failure : Option RunError := none
  aborted : Bool := false

namespace Progress

/-- Put a pair into a list of pairs in order, unless it is there. -/
def insertPair (a : Nat × Nat) : List (Nat × Nat) → List (Nat × Nat)
  | [] => [a]
  | b :: rest =>
    if a = b then b :: rest
    else if a.1 < b.1 ∨ (a.1 = b.1 ∧ a.2 < b.2) then a :: b :: rest
    else b :: insertPair a rest

/-- The start of a run: every link is pending, and the nodes without links into them are ready. -/
def start (p : Plan) : Progress where
  links := List.replicate p.flow.links.length .pending
  waiting := (List.range p.size).map (fun i => (p.into i).length)
  ready := ((List.range p.size).filter (fun i => (p.into i).isEmpty)).foldl
    (fun ready i => insertPair (p.layer i, i) ready) []

/-- Whether no further node may start. -/
def isStopping (s : Progress) : Bool := s.aborted || s.failure.isSome

/-- Note a failure; only the first one counts. -/
def fail (s : Progress) (e : RunError) : Progress := { s with failure := s.failure.or (some e) }

def abort (s : Progress) (e : RunError) : Progress := { s.fail e with aborted := true }

/-- Give a link its result. The node that it leads to has one link less to wait for. -/
def settle (p : Plan) (s : Progress) (e : Nat) (state : LinkState) : Progress :=
  let s := { s with links := s.links.set e state }
  match (p.flow.links[e]?).bind (fun l => p.flow.placeAt? l.target.endpoint) with
  | none => s
  | some t =>
    let left := s.waiting.getD t 0 - 1
    let s := { s with waiting := s.waiting.set t left }
    if left = 0 then { s with ready := insertPair (p.layer t, t) s.ready } else s

def stateOf : Option Json → LinkState
  | some v => .delivered v
  | none => .empty

/-- Whether a link leads to an input port that has to have a value. -/
def isRequired (p : Plan) (l : Link) : Bool :=
  match (p.flow.placeAt? l.target.endpoint).bind (fun i => p.flow.nodes[i]?) with
  | some (_, n) => (n.inputPort? l.target.port).any (fun port => !port.optional)
  | none => false

/-- What a link from the run's inputs delivers. -/
def bound (p : Plan) (ctx : Context) (inputs : Inputs) (l : Link) (e : Nat) :
    Except RunError (Option Json) :=
  match inputs.get? l.source.port with
  | some v => p.deliver ctx l e v v
  | none =>
    if isRequired p l then
      .error (.ofRun .missingInput s!"required input '{l.source.port}' was not provided")
    else .ok none

/-- Give a link from the run's inputs its result; one that fails delivers nothing. -/
def bindInput (p : Plan) (ctx : Context) (inputs : Inputs) (s : Progress) (e : Nat) : Progress :=
  match p.flow.links[e]? with
  | none => s
  | some l =>
    match bound p ctx inputs l e with
    | .ok v => s.settle p e (stateOf v)
    | .error err => (s.fail err).settle p e .empty

/-- Give all links from the run's inputs their results. -/
def bindInputs (p : Plan) (ctx : Context) (inputs : Inputs) (s : Progress) : Progress :=
  p.inputLinks.foldl (bindInput p ctx inputs) s

/-- The delivered value of a link. -/
def valueOf? (s : Progress) (e : Nat) : Option Json :=
  match s.links[e]? with
  | some (.delivered v) => some v
  | _ => none

/-- The values that links deliver to ports; for each port the first link counts. -/
def delivered (p : Plan) (s : Progress) (links : List Nat) : Assoc Json :=
  links.foldl (fun values e =>
    match p.flow.links[e]?, s.valueOf? e with
    | some l, some v => values.insertNew l.target.port v
    | _, _ => values) []

/-- The inputs of a node, if every port that has to have a value has one. -/
def gather (p : Plan) (s : Progress) (i : Nat) : Option Inputs :=
  let values := s.delivered p (p.into i)
  match p.flow.nodes[i]? with
  | some (_, n) =>
    if n.inputs.all (fun port => port.optional || values.contains port.name) then some values
    else none
  | none => none

/-- Pass over a node; the links out of it deliver nothing. -/
def skip (p : Plan) (s : Progress) (i : Nat) : Progress :=
  let record : Record := ⟨p.idOf i, .skipped, 0, none, 0, none⟩
  (p.outOf i).foldl (fun s e => s.settle p e .empty) { s with trace := s.trace ++ [record] }

/-- Take at most `n` nodes that are ready: those with all their inputs start, the others are passed over
and may make further ones ready. -/
def dispatch (p : Plan) : Nat → Progress → Progress × List (Nat × Inputs)
  | 0, s => (s, [])
  | n + 1, s =>
    match s.ready with
    | [] => (s, [])
    | (_, i) :: rest =>
      let s := { s with ready := rest }
      match s.gather p i with
      | none => dispatch p n (s.skip p i)
      | some inputs =>
        let (s, started) := dispatch p n s
        (s, (i, inputs) :: started)

/-- Start all nodes that are ready, unless the run is stopping. -/
def round (p : Plan) (s : Progress) : Progress × List (Nat × Inputs) :=
  if s.isStopping then (s, []) else s.dispatch p p.size

/-- Give links their results in order; the first that fails ends this and fails the run. -/
def settleAll (p : Plan) (resolve : Link → Nat → Except RunError (Option Json)) :
    List Nat → Progress → Progress
  | [], s => s
  | e :: rest, s =>
    match p.flow.links[e]? with
    | none => settleAll p resolve rest s
    | some l =>
      match resolve l e with
      | .ok v => settleAll p resolve rest (s.settle p e (stateOf v))
      | .error err => s.fail err

/-- What a link delivers of the output of its node; an error port has no part in it. -/
def outputOn (p : Plan) (ctx : Context) (n : Node) (output : Json) (l : Link) (e : Nat) :
    Except RunError (Option Json) :=
  match n.valueAt? output l.source.port with
  | some v => if n.isErrorPort l.source.port then .ok none else p.deliver ctx l e v output
  | none => .ok none

/-- What a link delivers of the error of its node; only the error port has a part in it. -/
def errorOn (p : Plan) (ctx : Context) (n : Node) (value : Json) (l : Link) (e : Nat) :
    Except RunError (Option Json) :=
  if n.isErrorPort l.source.port then p.deliver ctx l e value value else .ok none

/-- The error port of a node, if some link starts there. -/
def wiredErrorPort (p : Plan) (i : Nat) (n : Node) : Option Port :=
  n.errorPort.filter (fun port =>
    (p.outOf i).any (fun e => (p.flow.links[e]?).any (fun l => l.source.port = port.name)))

/-- Take the end of an execution into account. A failure goes along the error port when it is wired
and the run is not stopping; otherwise it is the failure of the run. -/
def complete (p : Plan) (ctx : Context) (s : Progress) (c : Completion) : Progress :=
  match p.flow.nodes[c.place]? with
  | none => s
  | some (id, n) =>
    let record (status : NodeStatus) (e : Option RunError) : Record :=
      ⟨id, status, c.attempts, c.startedAt, c.durationMs, e⟩
    match c.outcome with
    | .succeeded output =>
      let s := { s with
        outputs := s.outputs.insert id output
        trace := s.trace ++ [record .succeeded none] }
      if s.isStopping then s
      else s.settleAll p (outputOn p ctx n output) (p.outOf c.place)
    | .failed err =>
      match wiredErrorPort p c.place n, s.isStopping with
      | some port, false =>
        let s := { s with trace := s.trace ++ [record .routed (some err)] }
        s.settleAll p (errorOn p ctx n (err.portValue port.kind)) (p.outOf c.place)
      | _, _ => { s with trace := s.trace ++ [record .failed (some err)] }.fail err
    | .cancelled =>
      let err : RunError := ⟨some id, .cancelled, c.attempts, "cancelled by run"⟩
      { s with trace := s.trace ++ [record .cancelled (some err)] }

/-- The outcome of a run that has ended. -/
def report (p : Plan) (traceId : String) (s : Progress) : Report :=
  let boundary := s.delivered p p.outputLinks
  let (status, error) : RunStatus × Option RunError :=
    if s.aborted then (.aborted, s.failure)
    else
      match s.failure with
      | some e => (.failed, some e)
      | none =>
        if !p.outputLinks.isEmpty ∧ boundary.isEmpty then
          (.failed, some (.ofRun .noOutput "no value reached _output"))
        else (.succeeded, none)
  ⟨traceId, status, s.outputs, boundary, error, s.trace⟩

end Progress

end Workflow
