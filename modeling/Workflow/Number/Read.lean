namespace Workflow.Number

/-- The number that a run of decimal digits stands for. -/
def ofDigits (ds : List Char) : Nat := ds.foldl (fun n c => 10 * n + (c.toNat - '0'.toNat)) 0

/-- The digits at the front of a text, and what follows them. -/
def takeDigits (cs : List Char) : List Char × List Char := (cs.takeWhile Char.isDigit, cs.dropWhile Char.isDigit)

/-- The float nearest to `n * 10 ^ e`, an exact half going to the even one. -/
def nearest (n : Nat) (e : Int) : Float :=
  let lead := ((Nat.toDigits 10 n).length : Int) + e
  if n = 0 ∨ lead < -400 then 0
  else if 400 < lead then 1.0 / 0.0
  else if e ≥ 0 then Float.ofScientific (n * Nat.pow 10 e.toNat) false 0
  else Float.ofScientific n true (-e).toNat

/-- Whether a text is an unsigned decimal number with an optional fraction and exponent, of which
either the whole part or the fraction may be missing; its digits and the exponent of the last. -/
def decimal? (cs : List Char) : Option (Nat × Int) :=
  let (whole, rest) := takeDigits cs
  let (fraction, rest) :=
    match rest with
    | '.' :: rest => takeDigits rest
    | _ => ([], rest)
  if whole.isEmpty ∧ fraction.isEmpty then none
  else
    let base : Int := -fraction.length
    let n := ofDigits (whole ++ fraction)
    match rest with
    | [] => some (n, base)
    | c :: rest =>
      if c = 'e' ∨ c = 'E' then
        let (negative, rest) :=
          match rest with
          | '-' :: rest => (true, rest)
          | '+' :: rest => (false, rest)
          | _ => (false, rest)
        let (ds, rest) := takeDigits rest
        if ds.isEmpty ∨ ¬ rest.isEmpty then none
        else some (n, if negative then base - ofDigits ds else base + ofDigits ds)
      else none

/-- The float nearest to a decimal number with an optional sign. -/
def float? (cs : List Char) : Option Float :=
  match cs with
  | '-' :: rest => (decimal? rest).map (fun d => -(nearest d.1 d.2))
  | '+' :: rest => (decimal? rest).map (fun d => nearest d.1 d.2)
  | _ => (decimal? cs).map (fun d => nearest d.1 d.2)

/-- A power of ten as a float. -/
def powerOfTen (e : Nat) : Float := Float.ofScientific (Nat.pow 10 e) false 0

/-- `x * 10 ^ e` by multiplying or dividing by powers of ten up to `10 ^ 308`, each step rounded;
nothing when the result is too large. -/
def scale? (x : Float) (e : Int) : Option Float :=
  if x == 0 then some x
  else if e > 308 then none
  else if e ≥ 0 then
    let y := x * powerOfTen e.toNat
    if y.isFinite then some y else none
  else if e ≥ -308 then some (x / powerOfTen (-e).toNat)
  else if e ≥ -616 then some (x / powerOfTen 308 / powerOfTen (-e - 308).toNat)
  else some (x / powerOfTen 308 / powerOfTen 308)

end Workflow.Number
