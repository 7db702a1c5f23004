import Workflow.Engine.Execute

namespace Workflow

variable {μ : Type}

/-- What the coordination of a run knows of it. Of executions it knows the nodes and their inputs, and how
many attempts each has begun. -/
structure View where
  plan : Plan
  context : Context
  progress : Progress
  executions : List (Nat × Inputs)
  begun : List (Nat × Nat)
  finished : List Completion
  cancelled : Bool
  stopped : Bool
  ended : Bool

def Phase.begun {σ : Type} : Phase σ → Nat
  | .fresh => 0
  | .queued _ _ _ => 0
  | .attempting _ number _ _ _ _ => number
  | .pausing _ number _ _ => number

def Execution.key {σ : Type} (x : Execution σ) : Nat × Inputs := (x.place, x.inputs)

def Execution.mark {σ : Type} (x : Execution σ) : Nat × Nat := (x.place, x.phase.begun)

def Run.view (r : Run μ) : View where
  plan := r.plan
  context := r.context
  progress := r.progress
  executions := r.executions.map Execution.key
  begun := r.executions.map Execution.mark
  finished := r.finished
  cancelled := r.cancelled
  stopped := r.stopped
  ended := r.ended

/-- An output with which an execution ends has passed the check of its node. -/
def Completion.Fits (p : Plan) (c : Completion) : Prop :=
  ∀ v, c.outcome = .succeeded v →
    ∃ id n, p.flow.nodes[c.place]? = some (id, n) ∧ p.validate c.place n v = .ok ()

namespace View

variable {v : View} {c : Completion} {i m n : Nat}

/-- A node is under way with inputs, and no node is twice. -/
def Holds (v : View) (x : Nat × Inputs) : Prop :=
  x ∈ v.executions ∧ (v.executions.map Prod.fst).Nodup

/-- The nodes of the run are cancelled. -/
def stop (v : View) : View := { v with stopped := true }

/-- An execution has begun a number of attempts. -/
def work (i n : Nat) (v : View) : View :=
  { v with begun := v.begun.map (fun x => if x.1 = i then (i, n) else x) }

def finish (c : Completion) (v : View) : View :=
  { v with
    executions := v.executions.filter (fun x => x.1 ≠ c.place)
    begun := v.begun.filter (fun x => x.1 ≠ c.place)
    finished := v.finished ++ [c] }

def launch (started : List (Nat × Inputs)) (v : View) : View :=
  { v with
    executions := v.executions ++ started
    begun := v.begun ++ started.map (fun x => (x.1, 0)) }

def round (v : View) : View :=
  { v with progress := (v.progress.round v.plan).1 }.launch (v.progress.round v.plan).2

/-- The run is aborted, and its nodes are stopped. -/
def abort (e : RunError) (v : View) : View :=
  { v with progress := v.progress.abort e, stopped := true }

def join (c : Completion) (rest : List Completion) (v : View) : View :=
  { v with progress := v.progress.complete v.plan v.context c, finished := rest }

/-- The first end of an execution is taken into account, and the nodes are stopped if the run is stopping
then. -/
def settle (c : Completion) (rest : List Completion) (v : View) : View :=
  if (v.join c rest).progress.isStopping then (v.join c rest).stop else v.join c rest

def cancel (v : View) : View := { v with cancelled := true, stopped := true }

def close (v : View) : View := { v with ended := true }

theorem settle_eq (c : Completion) (rest : List Completion) :
    v.settle c rest = { v.join c rest with stopped := (v.settle c rest).stopped } := by
  unfold settle
  split <;> rfl

theorem work_work (i m n : Nat) (v : View) : (v.work i m).work i n = v.work i n := by
  simp only [work, List.map_map, mk.injEq, true_and, and_true]
  refine List.map_congr_left fun x _ => ?_
  by_cases hx : x.1 = i <;> simp [hx]

theorem finish_work (h : c.place = i) (n : Nat) (v : View) : (v.work i n).finish c = v.finish c := by
  have hfilter : (v.begun.map (fun x => if x.1 = i then (i, n) else x)).filter
      (fun x => x.1 ≠ c.place) = v.begun.filter (fun x => x.1 ≠ c.place) := by
    rw [List.filter_map]
    have hcongr : v.begun.filter ((fun x => decide (x.1 ≠ c.place)) ∘
        fun x => if x.1 = i then (i, n) else x) = v.begun.filter (fun x => x.1 ≠ c.place) := by
      refine List.filter_congr fun x _ => ?_
      by_cases hx : x.1 = i <;> simp [hx, h]
    rw [hcongr]
    refine (List.map_congr_left fun x hx => ?_).trans (List.map_id _)
    have hne := (List.mem_filter.mp hx).2
    simp only [decide_eq_true_eq, h] at hne
    rw [if_neg hne, id]
  simp only [finish, work, hfilter]

/-- What can happen to a run at a time. Its coordination starts what is ready, ends it, or looks at it, and
finds it called off or not; an execution begins attempts or ends, or the run is cancelled. Executions end
with outputs that fit, and while nodes are stopped they end after the attempts that they have begun. -/
inductive Moved (v : View) : Bool → View → Prop
  | round : v.Moved false v.round
  | close (hx : v.executions = []) (hf : v.finished = [])
      (hd : v.progress.ready = [] ∨ v.progress.isStopping = true) : v.Moved false v.close
  | abort (e : RunError) (he : v.ended = false) (hne : v.executions ≠ [] ∨ v.finished ≠ [])
      (ha : v.progress.aborted = false) : v.Moved true (v.abort e)
  | settle {c : Completion} {rest : List Completion} (called : Bool) (hf : v.finished = c :: rest)
      (hc : v.cancelled = true → v.progress.aborted = true)
      (ha : called = true → v.progress.aborted = true) : v.Moved called (v.settle c rest)
  | stay (called : Bool) (ha : called = true → v.progress.aborted = true) : v.Moved called v
  | work {i : Nat} (n : Nat) (hi : i ∈ v.executions.map Prod.fst) (hs : v.stopped = false) :
      v.Moved false (v.work i n)
  | finish {c : Completion} (hi : c.place ∈ v.executions.map Prod.fst) (hf : c.Fits v.plan)
      (hc : c.outcome = .cancelled → v.stopped = true)
      (hb : v.stopped = true → (c.place, c.attempts) ∈ v.begun) : v.Moved false (v.finish c)
  | cancel : v.Moved false v.cancel

theorem Moved.plan_eq {called : Bool} {w : View} (h : v.Moved called w) : w.plan = v.plan := by
  cases h with
  | settle _ _ _ _ =>
    rw [settle_eq]
    rfl
  | round | close | abort | stay | work | finish | cancel => rfl

theorem Moved.context_eq {called : Bool} {w : View} (h : v.Moved called w) : w.context = v.context := by
  cases h with
  | settle _ _ _ _ =>
    rw [settle_eq]
    rfl
  | round | close | abort | stay | work | finish | cancel => rfl

end View

end Workflow
