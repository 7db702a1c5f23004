import Workflow.Text.Cut

namespace Workflow.Text

variable {α : Type} {sep : α}

theorem intercalate_cons (part : List α) (parts : List (List α)) :
    [sep].intercalate (part :: parts) = part ++ parts.flatMap (sep :: ·) := by
  induction parts generalizing part with
  | nil => simp
  | cons next parts ih => simp [List.intercalate_cons_cons, ih]

variable [BEq α]

theorem split_eq_splitOn (cs : List α) : split sep cs = cs.splitOn sep := by
  induction cs with
  | nil => rfl
  | cons c rest ih =>
    rw [split, List.splitOn_cons_eq_if_modifyHead, ih]
    cases hr : rest.splitOn sep with
    | nil => exact absurd hr (List.splitOn_ne_nil sep rest)
    | cons part parts => rfl

variable [LawfulBEq α]

/-- What stands before a mark, the mark, and what follows it make up the text. -/
theorem eq_of_cut? {mark text before after : List α} (h : cut? mark text = some (before, after)) :
    text = before ++ mark ++ after := by
  induction text generalizing before with
  | nil =>
    rw [cut?] at h
    split at h
    · next hm =>
      cases h
      rw [List.isEmpty_iff.mp hm]
      rfl
    · cases h
  | cons c rest ih =>
    rw [cut?] at h
    split at h
    · next hm =>
      obtain ⟨tail, ht⟩ := List.isPrefixOf_iff_prefix.mp hm
      cases h
      rw [← ht, List.drop_left, List.nil_append]
    · obtain ⟨⟨b, a⟩, hp, he⟩ := Option.map_eq_some_iff.mp h
      cases he
      rw [ih hp]
      rfl

/-- A mark stands in a text, and nowhere before that place. -/
structure Cuts (mark text before after : List α) : Prop where
  eq : text = before ++ (mark ++ after)
  first : ∀ front back, text = front ++ (mark ++ back) → before.length ≤ front.length

theorem cuts_of_cut? {mark text before after : List α} (h : cut? mark text = some (before, after)) :
    Cuts mark text before after := by
  refine ⟨(eq_of_cut? h).trans (List.append_assoc _ _ _), ?_⟩
  induction text generalizing before with
  | nil =>
    rw [cut?] at h
    split at h
    · cases h
      exact fun front back _ => Nat.zero_le _
    · cases h
  | cons c rest ih =>
    rw [cut?] at h
    split at h
    · cases h
      exact fun front back _ => Nat.zero_le _
    · next hm =>
      obtain ⟨⟨b, a⟩, hp, he⟩ := Option.map_eq_some_iff.mp h
      cases he
      intro front back htext
      cases front with
      | nil => exact absurd (List.isPrefixOf_iff_prefix.mpr ⟨back, htext.symm⟩) hm
      | cons x front => exact Nat.succ_le_succ (ih hp front back (List.cons.inj htext).2)

theorem ne_of_cut?_eq_none {mark text : List α} (h : cut? mark text = none) (front back : List α) :
    text ≠ front ++ (mark ++ back) := by
  induction text generalizing front with
  | nil =>
    rw [cut?] at h
    split at h
    · cases h
    · next hm =>
      intro htext
      have hnil := (List.append_eq_nil_iff.mp (List.append_eq_nil_iff.mp htext.symm).2).1
      exact hm (List.isEmpty_iff.mpr hnil)
  | cons c rest ih =>
    rw [cut?] at h
    split at h
    · cases h
    · next hm =>
      intro htext
      cases front with
      | nil => exact hm (List.isPrefixOf_iff_prefix.mpr ⟨back, htext.symm⟩)
      | cons x front => exact ih (Option.map_eq_none_iff.mp h) front (List.cons.inj htext).2

/-- A text is cut at the first place where the mark stands. -/
theorem cut?_eq_some_iff {mark text before after : List α} :
    cut? mark text = some (before, after) ↔ Cuts mark text before after := by
  refine ⟨cuts_of_cut?, fun h => ?_⟩
  cases hc : cut? mark text with
  | none => exact absurd h.eq (ne_of_cut?_eq_none hc before after)
  | some p =>
    obtain ⟨b, a⟩ := p
    have hcuts := cuts_of_cut? hc
    have hle := h.first b a hcuts.eq
    have hge := hcuts.first before after h.eq
    obtain ⟨hb, ha⟩ := List.append_inj (hcuts.eq.symm.trans h.eq) (Nat.le_antisymm hge hle)
    rw [hb, List.append_cancel_left ha]

/-- A mark whose first letter does not stand in a text is found right after it. -/
theorem cut?_append {c : α} {before : List α} (h : c ∉ before) (mark after : List α) :
    cut? (c :: mark) (before ++ (c :: mark ++ after)) = some (before, after) := by
  induction before with
  | nil => simp [cut?]
  | cons x before ih =>
    simp only [List.mem_cons, not_or] at h
    have hm : ¬ (c :: mark).isPrefixOf (x :: (before ++ (c :: mark ++ after))) = true := by simp [h.1]
    rw [List.cons_append, cut?, if_neg hm, ih h.2, Option.map_some]

theorem cuts_singleton_iff {mark : α} {text before after : List α} :
    Cuts [mark] text before after ↔ text = before ++ mark :: after ∧ mark ∉ before := by
  constructor
  · intro h
    refine ⟨h.eq, fun hm => ?_⟩
    obtain ⟨front, back, rfl⟩ := List.append_of_mem hm
    have hle := h.first front (back ++ mark :: after) (by simp [h.eq])
    simp only [List.length_append, List.length_cons] at hle
    omega
  · rintro ⟨rfl, hm⟩
    exact cuts_of_cut? (cut?_append hm [] after)

theorem exists_cuts_of_mem {mark : α} {text : List α} (h : mark ∈ text) :
    ∃ before after, Cuts [mark] text before after := by
  cases hc : cut? [mark] text with
  | none =>
    obtain ⟨front, back, rfl⟩ := List.append_of_mem h
    exact absurd rfl (ne_of_cut?_eq_none hc front back)
  | some p => exact ⟨p.1, p.2, cuts_of_cut? hc⟩

/-- The parts of a text, with the separator before all but the first, are the text. -/
theorem join_split {cs part : List α} {parts : List (List α)} (h : split sep cs = part :: parts) :
    part ++ parts.flatMap (sep :: ·) = cs := by
  rw [← intercalate_cons, ← h, split_eq_splitOn, List.intercalate_splitOn]

theorem split_join {part : List α} {parts : List (List α)} (hp : sep ∉ part)
    (hs : ∀ g ∈ parts, sep ∉ g) : split sep (part ++ parts.flatMap (sep :: ·)) = part :: parts := by
  rw [← intercalate_cons, split_eq_splitOn]
  exact List.splitOn_intercalate sep (List.forall_mem_cons.mpr ⟨hp, hs⟩) (List.cons_ne_nil _ _)

end Workflow.Text
