namespace Workflow.Command

/-- The hexadecimal digits of a number, from the left, the last `count` of them. -/
def hexDigits (count n : Nat) : List Char :=
  ((List.range count).map (fun i => Nat.digitChar (n / Nat.pow 16 i % 16))).reverse

/-- An identifier that sorts by time: 48 bits of milliseconds, the version, and 74 random bits around
the variant. -/
def identifier (ms random : Nat) : String :=
  let time := hexDigits 12 ms
  let first := hexDigits 3 random
  let second := hexDigits 4 (0x8000 + random / 0x1000 % 0x4000)
  let last := hexDigits 12 (random / 0x4000000)
  "-".intercalate ([time.take 8, time.drop 8, '7' :: first, second, last].map String.ofList)

end Workflow.Command
