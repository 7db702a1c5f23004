namespace Workflow.Number

/-- The first number that 32 bits do not hold. -/
def word32 : Nat := 0x100000000

/-- The first number that 64 bits do not hold. -/
def word64 : Nat := 0x10000000000000000

/-- The first number that 63 bits do not hold. -/
def half64 : Nat := 0x8000000000000000

/-- The first number that 52 bits do not hold. -/
def word52 : Nat := 0x10000000000000

/-- The sum of numbers. -/
def total (ns : List Nat) : Nat := ns.foldr (· + ·) 0

end Workflow.Number
