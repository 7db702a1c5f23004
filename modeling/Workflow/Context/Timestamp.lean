import Workflow.Number.Read

namespace Workflow

/-- A moment: minutes since the start of 1970 in universal time, seconds of the minute, of which a
leap second is the sixtieth, and nanoseconds of the second. -/
structure Timestamp where
  minutes : Int
  seconds : Nat
  nanos : Nat
  deriving DecidableEq

namespace Timestamp

open Number

def isLeapYear (y : Nat) : Bool := y % 4 = 0 ∧ (y % 100 ≠ 0 ∨ y % 400 = 0)

def daysOfMonth (y m : Nat) : Nat :=
  if m = 2 then if isLeapYear y then 29 else 28
  else if m = 4 ∨ m = 6 ∨ m = 9 ∨ m = 11 then 30
  else 31

/-- Days from the start of 1970 to a day of the proleptic Gregorian calendar. Years are counted from
March, so that a leap day is the last of its year. -/
def daysOfCivil (y : Int) (m d : Nat) : Int :=
  let y := if m ≤ 2 then y - 1 else y
  let era := y.fdiv 400
  let yearOfEra := y - era * 400
  let monthOfYear : Int := if m > 2 then m - 3 else m + 9
  let dayOfYear := (153 * monthOfYear + 2) / 5 + d - 1
  let dayOfEra := yearOfEra * 365 + yearOfEra / 4 - yearOfEra / 100 + dayOfYear
  era * 146097 + dayOfEra - 719468

/-- Year, month and day of a number of days since the start of 1970. -/
def civilOfDays (days : Int) : Int × Nat × Nat :=
  let z := days + 719468
  let era := z.fdiv 146097
  let dayOfEra := z - era * 146097
  let yearOfEra := (dayOfEra - dayOfEra / 1460 + dayOfEra / 36524 - dayOfEra / 146096) / 365
  let dayOfYear := dayOfEra - (365 * yearOfEra + yearOfEra / 4 - yearOfEra / 100)
  let monthOfYear := (5 * dayOfYear + 2) / 153
  let d := dayOfYear - (153 * monthOfYear + 2) / 5 + 1
  let m := if monthOfYear < 10 then monthOfYear + 3 else monthOfYear - 9
  let y := yearOfEra + era * 400
  (if m ≤ 2 then y + 1 else y, m.toNat, d.toNat)

/-- A number of exactly `count` digits. -/
def number? (count : Nat) (cs : List Char) : Option (Nat × List Char) :=
  let ds := cs.take count
  if ds.length = count ∧ ds.all Char.isDigit then some (ofDigits ds, cs.drop count) else none

def expect? (p : Char → Bool) : List Char → Option (List Char)
  | c :: rest => if p c then some rest else none
  | [] => none

def date? (cs : List Char) : Option (List Char) := do
  let (y, rest) ← number? 4 cs
  let rest ← expect? (· = '-') rest
  let (m, rest) ← number? 2 rest
  let rest ← expect? (· = '-') rest
  let (d, rest) ← number? 2 rest
  if 1 ≤ m ∧ m ≤ 12 ∧ 1 ≤ d ∧ d ≤ daysOfMonth y m then some rest else none

/-- The fraction of a second in nanoseconds; digits after the ninth do not count. -/
def fraction? (cs : List Char) : Option (Nat × List Char) :=
  match cs with
  | '.' :: rest =>
    let (ds, rest) := takeDigits rest
    if ds.isEmpty then none
    else
      let kept := ds.take 9
      some (ofDigits kept * Nat.pow 10 (9 - kept.length), rest)
  | _ => some (0, cs)

/-- Minutes east of universal time. -/
def offset? (cs : List Char) : Option (Int × List Char) :=
  match cs with
  | 'Z' :: rest => some (0, rest)
  | 'z' :: rest => some (0, rest)
  | sign :: rest => do
    let west ←
      if sign = '+' then some false
      else if sign = '-' ∨ sign = '\u2212' then some true
      else none
    let (h, rest) ← number? 2 rest
    let rest ← expect? (· = ':') rest
    let (m, rest) ← number? 2 rest
    if h < 24 ∧ m < 60 then
      let total : Int := h * 60 + m
      some (if west then -total else total, rest)
    else none
  | [] => none

/-- Read date, time of day and offset: `2025-03-01T12:00:00.5+01:00`. -/
def parse? (s : String) : Option Timestamp := do
  let (y, rest) ← number? 4 s.toList
  let rest ← expect? (· = '-') rest
  let (mo, rest) ← number? 2 rest
  let rest ← expect? (· = '-') rest
  let (d, rest) ← number? 2 rest
  let rest ← expect? (fun c => c = 'T' ∨ c = 't' ∨ c = ' ') rest
  let (h, rest) ← number? 2 rest
  let rest ← expect? (· = ':') rest
  let (mi, rest) ← number? 2 rest
  let rest ← expect? (· = ':') rest
  let (sec, rest) ← number? 2 rest
  let (nanos, rest) ← fraction? rest
  let (off, rest) ← offset? rest
  if 1 ≤ mo ∧ mo ≤ 12 ∧ 1 ≤ d ∧ d ≤ daysOfMonth y mo ∧ h < 24 ∧ mi < 60 ∧ sec ≤ 60 ∧ rest.isEmpty then
    some ⟨daysOfCivil y mo d * 1440 + h * 60 + mi - off, sec, nanos⟩
  else none

/-- A number with zeros in front up to `width` digits. -/
def padded (width n : Nat) : List Char :=
  let ds := Nat.toDigits 10 n
  List.replicate (width - ds.length) '0' ++ ds

def yearText (y : Int) : List Char :=
  if 0 ≤ y ∧ y ≤ 9999 then padded 4 y.toNat
  else (if y < 0 then '-' else '+') :: padded 4 y.natAbs

/-- A fraction of a second in thousandths, millionths or billionths, whichever suffices first. -/
def fractionText (nanos : Nat) : List Char :=
  if nanos = 0 then []
  else if nanos % 1000000 = 0 then '.' :: padded 3 (nanos / 1000000)
  else if nanos % 1000 = 0 then '.' :: padded 6 (nanos / 1000)
  else '.' :: padded 9 nanos

def render (t : Timestamp) : String :=
  let days := t.minutes.fdiv 1440
  let minute := (t.minutes - days * 1440).toNat
  let (y, m, d) := civilOfDays days
  String.ofList (yearText y ++ '-' :: padded 2 m ++ '-' :: padded 2 d ++ 'T' :: padded 2 (minute / 60)
    ++ ':' :: padded 2 (minute % 60) ++ ':' :: padded 2 t.seconds ++ fractionText t.nanos
    ++ ['+', '0', '0', ':', '0', '0'])

def ofNanos (n : Nat) : Timestamp :=
  let seconds := n / 1000000000
  ⟨(seconds / 60 : Nat), seconds % 60, n % 1000000000⟩

end Timestamp

end Workflow
