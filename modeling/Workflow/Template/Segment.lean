import Workflow.Text.Cut

namespace Workflow.Template

/-- The marks around the holes of a template. -/
structure Marks where
  opening : List Char
  closing : List Char
  opening_ne : opening ≠ [] := by decide
  closing_ne : closing ≠ [] := by decide

/-- A piece of a template: literal text, or what stands between two marks. -/
inductive Segment where
  | text (cs : List Char)
  | hole (body : List Char)
  deriving DecidableEq

/-- The first hole of a text: what stands before it, what it holds, and what follows it. It opens at the first
opening mark and ends at the first closing mark after that one. -/
def Marks.hole? (m : Marks) (cs : List Char) : Option (List Char × List Char × List Char) :=
  (Text.cut? m.opening cs).bind fun (before, rest) =>
    (Text.cut? m.closing rest).map fun (body, after) => (before, body, after)

theorem Marks.hole?_eq_some_iff {m : Marks} {cs before body after : List Char} :
    m.hole? cs = some (before, body, after) ↔ ∃ rest, Text.cut? m.opening cs = some (before, rest) ∧
      Text.cut? m.closing rest = some (body, after) := by
  constructor
  · intro h
    obtain ⟨⟨before', rest⟩, ho, h⟩ := Option.bind_eq_some_iff.mp h
    obtain ⟨⟨body', after'⟩, hc, he⟩ := Option.map_eq_some_iff.mp h
    cases he
    exact ⟨rest, ho, hc⟩
  · rintro ⟨rest, ho, hc⟩
    exact Option.bind_eq_some_iff.mpr ⟨_, ho, Option.map_eq_some_iff.mpr ⟨_, hc, rfl⟩⟩

theorem Marks.length_of_hole? {m : Marks} {cs before body after : List Char}
    (h : m.hole? cs = some (before, body, after)) : after.length < cs.length := by
  obtain ⟨rest, ho, hc⟩ := Marks.hole?_eq_some_iff.mp h
  have := Text.length_of_cut? m.opening_ne ho
  have := Text.length_of_cut? m.closing_ne hc
  omega

/-- The pieces of a template; an opening mark without a closing one is literal text, with all that follows. -/
def segments (m : Marks) (cs : List Char) : List Segment :=
  match h : m.hole? cs with
  | none => [.text cs]
  | some (before, body, after) =>
    have := Marks.length_of_hole? h
    .text before :: .hole body :: segments m after
termination_by cs.length

def holes : List Segment → List (List Char)
  | [] => []
  | .text _ :: rest => holes rest
  | .hole body :: rest => body :: holes rest

def fill (value : List Char → List Char) : List Segment → List Char
  | [] => []
  | .text cs :: rest => cs ++ fill value rest
  | .hole body :: rest => value body ++ fill value rest

end Workflow.Template
