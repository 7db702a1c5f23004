import Workflow.Number.Shortest

namespace Workflow.Number

/-- The float `m * 2 ^ q`, for values that need no rounding. -/
def ofBinary (m : Nat) (q : Int) : Float := (Float.ofNat m).scaleB q

/-- What is left of `x` after taking away whole multiples of `y`; it has the sign of `x`. -/
def remainder (x y : Float) : Float :=
  if ¬ x.isFinite ∨ y.isNaN ∨ y == 0 then 0.0 / 0.0
  else if ¬ y.isFinite then x
  else
    let (m, p) := binary x
    let (n, q) := binary y
    let low := min p q
    let r := m * Nat.pow 2 (p - low).toNat % (n * Nat.pow 2 (q - low).toNat)
    let z := ofBinary r low
    if half64 ≤ x.toBits.toNat then -z else z

end Workflow.Number
