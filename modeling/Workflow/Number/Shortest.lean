import Workflow.Number.Word

namespace Workflow.Number

/-- A positive decimal number `digits * 10 ^ exponent`. -/
structure Decimal where
  digits : Nat
  exponent : Int

/-- A positive rational number as a quotient of naturals. -/
structure Quotient where
  num : Nat
  den : Nat

namespace Quotient

/-- `n * base ^ e`. -/
def scaled (n base : Nat) (e : Int) : Quotient :=
  if e ≥ 0 then ⟨n * Nat.pow base e.toNat, 1⟩ else ⟨n, Nat.pow base (-e).toNat⟩

def le (a b : Quotient) : Bool := a.num * b.den ≤ b.num * a.den

def lt (a b : Quotient) : Bool := a.num * b.den < b.num * a.den

/-- The exponent of the leading decimal digit. -/
def magnitude (a : Quotient) : Int :=
  if a.den ≤ a.num then ((Nat.toDigits 10 (a.num / a.den)).length : Int) - 1
  else
    let k := (Nat.toDigits 10 (a.den / a.num)).length
    if a.den ≤ a.num * Nat.pow 10 (k - 1) then -((k : Int) - 1) else -(k : Int)

/-- The number of whole steps `10 ^ p` that fit into `a`. -/
def stepsBelow (a : Quotient) (p : Int) : Nat :=
  if p ≥ 0 then a.num / (a.den * Nat.pow 10 p.toNat) else a.num * Nat.pow 10 (-p).toNat / a.den

end Quotient

/-- The reals that round to one float: all between `low` and `high`, the ends as well when
`closed`. -/
structure Interval where
  value : Quotient
  low : Quotient
  high : Quotient
  closed : Bool

namespace Interval

/-- The interval of the float `m * 2 ^ q`; `edge` says that the neighbour below is half as far. -/
def ofBinary (m : Nat) (q : Int) (edge : Bool) : Interval where
  value := .scaled (4 * m) 2 (q - 2)
  low := .scaled (if edge then 4 * m - 1 else 4 * m - 2) 2 (q - 2)
  high := .scaled (4 * m + 2) 2 (q - 2)
  closed := m % 2 = 0

def holds (i : Interval) (a : Quotient) : Bool :=
  if i.closed then i.low.le a && a.le i.high else i.low.lt a && a.lt i.high

/-- Of the two multiples of `10 ^ p` around the value, the nearest one inside the interval; of two
that are as near, the even one. -/
def onGrid? (i : Interval) (p : Int) : Option Decimal :=
  let below := i.value.stepsBelow p
  let above := below + 1
  let inLow := 0 < below && i.holds (.scaled below 10 p)
  let inHigh := i.holds (.scaled above 10 p)
  match inLow, inHigh with
  | false, false => none
  | true, false => some ⟨below, p⟩
  | false, true => some ⟨above, p⟩
  | true, true =>
    let middle := Quotient.scaled (5 * (below + above)) 10 (p - 1)
    if i.value.lt middle then some ⟨below, p⟩
    else if middle.lt i.value then some ⟨above, p⟩
    else some ⟨if below % 2 = 0 then below else above, p⟩

/-- The decimal with the fewest digits inside the interval, looked for among those of at most
`count` digits more than the coarsest grid. -/
def shortestFrom (i : Interval) (p : Int) : Nat → Decimal
  | 0 => ⟨i.value.stepsBelow p, p⟩
  | count + 1 => (i.onGrid? p).getD (i.shortestFrom (p - 1) count)

def shortest (i : Interval) : Decimal := i.shortestFrom (i.value.magnitude + 1) 18

end Interval

/-- The binary float `m * 2 ^ q` behind a finite float, without its sign. -/
def binary (x : Float) : Nat × Int :=
  let bits : Nat := x.toBits.toNat
  let mantissa : Nat := bits % word52
  let field : Nat := bits / word52 % 2048
  if field = 0 then (mantissa, -1074) else (mantissa + word52, (field : Int) - 1075)

/-- The shortest decimal that reads back as the absolute value of `x`, which is finite and not
zero. -/
def shortest (x : Float) : Decimal :=
  let (m, q) := binary x
  (Interval.ofBinary m q (m = word52 ∧ q ≠ -1074)).shortest

/-- Digits without the zeros at their end, and how many there were. -/
def trimZeros : List Char → List Char × Nat
  | ds =>
    let zeros := ds.reverse.takeWhile (· = '0')
    (ds.take (ds.length - zeros.length), zeros.length)

/-- How floats are written: always with a fraction or an exponent, positional when the leading
digit stands for at least `10 ^ low` and less than `10 ^ high`. -/
structure FloatFormat where
  low : Int
  high : Int

namespace FloatFormat

def exponentText (e : Int) : List Char :=
  if e < 0 then '-' :: Nat.toDigits 10 e.natAbs else '+' :: Nat.toDigits 10 e.natAbs

/-- The digits `ds`, the first of which stands for `10 ^ e`. -/
def layout (f : FloatFormat) (ds : List Char) (e : Int) : List Char :=
  if f.low ≤ e ∧ e < f.high then
    if e < 0 then '0' :: '.' :: (List.replicate (-e - 1).toNat '0' ++ ds)
    else
      let whole := e.toNat + 1
      if ds.length ≤ whole then ds ++ List.replicate (whole - ds.length) '0' ++ ['.', '0']
      else ds.take whole ++ '.' :: ds.drop whole
  else
    match ds with
    | [d] => d :: 'e' :: exponentText e
    | d :: rest => d :: '.' :: (rest ++ 'e' :: exponentText e)
    | [] => []

/-- The text of a finite float. -/
def render (f : FloatFormat) (x : Float) : String :=
  let negative := half64 ≤ x.toBits.toNat
  let body :=
    if x == 0 then ['0', '.', '0']
    else
      let d := shortest x
      let ds := Nat.toDigits 10 d.digits
      f.layout (trimZeros ds).1 (d.exponent + ds.length - 1)
  String.ofList (if negative then '-' :: body else body)

end FloatFormat

/-- The text of a finite float without an exponent, and without a fraction when it is whole. -/
def positional (x : Float) : String :=
  let cs := (FloatFormat.render ⟨-400, 400⟩ x).toList
  let ending := cs.drop (cs.length - 2)
  String.ofList (if ending = ['.', '0'] then cs.take (cs.length - 2) else cs)

end Workflow.Number
