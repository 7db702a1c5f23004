namespace Workflow.Text

variable {α : Type}

/-- What stands before the first occurrence of `mark` in a text, and what follows it. -/
def cut? [BEq α] (mark : List α) : List α → Option (List α × List α)
  | [] => if mark.isEmpty then some ([], []) else none
  | c :: rest =>
    if mark.isPrefixOf (c :: rest) then some ([], (c :: rest).drop mark.length)
    else (cut? mark rest).map (fun p => (c :: p.1, p.2))

/-- The parts of a text between the occurrences of `sep`; there is always one. -/
def split [BEq α] (sep : α) : List α → List (List α)
  | [] => [[]]
  | c :: rest =>
    if c == sep then [] :: split sep rest
    else
      match split sep rest with
      | [] => [[c]]
      | part :: parts => (c :: part) :: parts

def occurs [BEq α] (part text : List α) : Bool := (cut? part text).isSome

theorem length_of_cut? [BEq α] {mark text before after : List α} (hm : mark ≠ [])
    (h : cut? mark text = some (before, after)) :
    before.length + after.length < text.length := by
  induction text generalizing before with
  | nil => simp [cut?, hm] at h
  | cons c rest ih =>
    unfold cut? at h
    split at h
    · simp only [Option.some.injEq, Prod.mk.injEq] at h
      obtain ⟨rfl, rfl⟩ := h
      have : 0 < mark.length := List.length_pos_iff.2 hm
      simp only [List.length_nil, List.length_drop, List.length_cons]
      omega
    · obtain ⟨p, hp, he⟩ := Option.map_eq_some_iff.1 h
      obtain ⟨b, a⟩ := p
      simp only [Prod.mk.injEq] at he
      obtain ⟨rfl, rfl⟩ := he
      have := ih hp
      simp only [List.length_cons]
      omega

end Workflow.Text
