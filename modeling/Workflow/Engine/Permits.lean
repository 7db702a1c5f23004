namespace Workflow

/-- Permits that are free, and who waits for one, first come first served. -/
structure Permits (κ : Type) where
  free : Nat
  waiting : List κ := []

namespace Permits

variable {κ : Type}

def acquire (p : Permits κ) (who : κ) : Bool × Permits κ :=
  match p.free with
  | 0 => (false, { p with waiting := p.waiting ++ [who] })
  | n + 1 => (true, { p with free := n })

/-- Give a permit back. It goes to the first who waits, if any. -/
def release (p : Permits κ) : Option κ × Permits κ :=
  match p.waiting with
  | who :: rest => (some who, { p with waiting := rest })
  | [] => (none, { p with free := p.free + 1 })

def leave [DecidableEq κ] (p : Permits κ) (who : κ) : Permits κ :=
  { p with waiting := p.waiting.filter (fun other => other ≠ who) }

end Permits

end Workflow
