import Workflow.Json.Basic
import Workflow.Number.Shortest

namespace Workflow.Json

/-- A number as `m * 2 ^ q`. -/
def binary? : Json → Option (Int × Int)
  | int n => some (n, 0)
  | float x =>
    let (m, q) := Number.binary x
    some (if Number.half64 ≤ x.toBits.toNat then -(m : Int) else m, q)
  | _ => none

/-- Two numbers as multiples of the same power of two. -/
def aligned? (v w : Json) : Option (Int × Int) := do
  let (m, p) ← v.binary?
  let (n, q) ← w.binary?
  let low := min p q
  some (m * (Nat.pow 2 (p - low).toNat : Nat), n * (Nat.pow 2 (q - low).toNat : Nat))

/-- The order of numbers of either kind by what they stand for. -/
def numberLt (v w : Json) : Bool := (aligned? v w).any (fun p => p.1 < p.2)

def numberLe (v w : Json) : Bool := (aligned? v w).any (fun p => p.1 ≤ p.2)

def numberEq (v w : Json) : Bool := (aligned? v w).any (fun p => p.1 = p.2)

def isWhole : Json → Bool
  | int _ => true
  | float x => x.floor == x
  | _ => false

mutual

/-- Whether two values are the same when numbers count by what they stand for. -/
def same : Json → Json → Bool
  | null, null => true
  | bool a, bool b => a == b
  | str a, str b => a == b
  | arr a, arr b => sameItems a b
  | obj a, obj b => sameFields a b
  | v, w => numberEq v w

def sameItems : List Json → List Json → Bool
  | [], [] => true
  | a :: as, b :: bs => same a b && sameItems as bs
  | _, _ => false

def sameFields : List (String × Json) → List (String × Json) → Bool
  | [], [] => true
  | (k, a) :: as, (l, b) :: bs => k == l && same a b && sameFields as bs
  | _, _ => false

end

mutual

/-- The number of values inside a value, itself included. -/
def size : Json → Nat
  | arr items => sizeItems items + 1
  | obj fields => sizeFields fields + 1
  | _ => 1

def sizeItems : List Json → Nat
  | [] => 0
  | v :: rest => size v + sizeItems rest

def sizeFields : List (String × Json) → Nat
  | [] => 0
  | (_, v) :: rest => size v + sizeFields rest

end

end Workflow.Json
