import Workflow.Context.Timestamp

namespace Workflow.Toml

open Timestamp

/-- What follows a time of day, which may end in a leap second. -/
def timeOfDay? (cs : List Char) : Option (List Char) := do
  let (h, rest) ← number? 2 cs
  let rest ← expect? (· = ':') rest
  let (m, rest) ← number? 2 rest
  let rest ← expect? (· = ':') rest
  let (s, rest) ← number? 2 rest
  if h < 24 ∧ m < 60 ∧ s ≤ 60 then (fraction? rest).map Prod.snd else none

def moment? (cs : List Char) : Option (List Char) :=
  match date? cs with
  | none => timeOfDay? cs
  | some rest =>
    match (expect? (fun c => c = 'T' ∨ c = 't' ∨ c = ' ') rest).bind timeOfDay? with
    | none => some rest
    | some after => some (((offset? after).map Prod.snd).getD after)

end Workflow.Toml
