namespace Workflow

/-- A computation that takes time: it changes a world of type `σ` in steps, rests in between, and gives
a result. Steps see the time and the world. -/
inductive Activity (σ α : Type) where
  | done (a : α)
  | rest (ms : Nat) (next : Activity σ α)
  | act (change : Nat → σ → σ) (next : Nat → σ → Activity σ α)

namespace Activity

variable {σ α β : Type}

def bind : Activity σ α → (α → Activity σ β) → Activity σ β
  | done a, f => f a
  | rest ms next, f => rest ms (next.bind f)
  | act change next, f => act change (fun now s => (next now s).bind f)

instance : Monad (Activity σ) where
  pure := done
  bind := bind

/-- Look at the time and the world, and change it. -/
def step (f : Nat → σ → α × σ) : Activity σ α :=
  act (fun now s => (f now s).2) (fun now s => done (f now s).1)

/-- Rest for a time; no time is no rest. -/
def sleep (ms : Nat) : Activity σ Unit := if ms = 0 then done () else rest ms (done ())

/-- How far an activity gets without resting. -/
inductive Progress (σ α : Type) where
  | finished (a : α)
  | resting (ms : Nat) (next : Activity σ α)

/-- Go on with an activity until it rests or ends. -/
def advance (now : Nat) : Activity σ α → σ → Progress σ α × σ
  | done a, s => (.finished a, s)
  | rest ms next, s => (.resting ms next, s)
  | act change next, s => advance now (next now s) (change now s)

def run (now : Nat) : Activity σ α → σ → α × Nat × σ
  | done a, s => (a, now, s)
  | rest ms next, s => run (now + ms) next s
  | act change next, s => run now (next now s) (change now s)

end Activity

end Workflow
