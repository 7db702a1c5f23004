namespace Workflow

/-- How the pauses between attempts grow. -/
inductive Backoff where
  | fixed
  | exponential (factor : Float) (maxMs : Nat)

namespace Backoff

/-- A power by repeated squaring. -/
def power (x : Float) (n : Nat) : Float :=
  let rec go (x r : Float) : Nat → Nat → Float
    | 0, _ => r
    | fuel + 1, n =>
      let r := if n % 2 = 1 then r * x else r
      if n / 2 = 0 then r else go (x * x) r fuel (n / 2)
  go x 1 (n + 1) n

/-- The pause after an attempt. It starts at `base`, grows with every attempt up to the 33rd, and never
exceeds the bound; factors below one count as one. -/
def delay (b : Backoff) (base attempt : Nat) : Nat :=
  match b with
  | fixed => base
  | exponential factor maxMs =>
    let growth := power (if 1 < factor then factor else 1) (min (attempt - 1) 32)
    let ms := Float.ofNat base * growth
    let bound := Float.ofNat maxMs
    (if ms < bound then ms else bound).toUInt64.toNat

end Backoff

end Workflow
