import Mathlib.Data.List.DropRight
import Workflow.Proofs.Text.Split
import Workflow.Template.Key

namespace Workflow.Text

/-- What is left of a text without the blanks around it. -/
def Trims (body name : List Char) : Prop :=
  ∃ left right, body = left ++ (name ++ right) ∧ (∀ c ∈ left, isBlank c = true) ∧
    (∀ c ∈ right, isBlank c = true) ∧ ∀ c, name.head? = some c ∨ name.getLast? = some c → isBlank c = false

theorem dropWhile_eq_self_of_head? {p : Char → Bool} {cs : List Char}
    (h : ∀ c, cs.head? = some c → p c = false) : cs.dropWhile p = cs := by
  cases cs with
  | nil => rfl
  | cons c cs => simp [h c rfl]

theorem trims_trim (body : List Char) : Trims body (trim body) := by
  let inner := body.dropWhile isBlank
  have hinner : trim body ++ (inner.reverse.takeWhile isBlank).reverse = inner := by
    rw [trim, ← List.reverse_append, List.takeWhile_append_dropWhile, List.reverse_reverse]
  refine ⟨body.takeWhile isBlank, (inner.reverse.takeWhile isBlank).reverse, ?_, ?_, ?_, ?_⟩
  · rw [hinner, List.takeWhile_append_dropWhile]
  · exact fun c hc => List.mem_takeWhile_imp hc
  · exact fun c hc => List.mem_takeWhile_imp (List.mem_reverse.mp hc)
  · rintro c (hc | hc)
    · have hhead : inner.head? = some c := by rw [← hinner, List.head?_append, hc, Option.some_or]
      have hnot := List.head?_dropWhile_not isBlank body
      rw [show body.dropWhile isBlank = inner from rfl, hhead] at hnot
      exact hnot
    · rw [trim, List.getLast?_reverse] at hc
      have hnot := List.head?_dropWhile_not isBlank inner.reverse
      rw [hc] at hnot
      exact hnot

/-- Trimming takes away all blanks around a text, and nothing else. -/
theorem trim_eq_iff {body name : List Char} : trim body = name ↔ Trims body name := by
  constructor
  · rintro rfl
    exact trims_trim body
  · rintro ⟨left, right, rfl, hleft, hright, hname⟩
    have hinner : (left ++ (name ++ right)).dropWhile isBlank = (name ++ right).dropWhile isBlank :=
      List.dropWhile_append_of_pos hleft
    rw [trim, hinner]
    cases hn : name with
    | nil =>
      have hnil : right.dropWhile isBlank = [] := List.dropWhile_eq_nil_iff.mpr hright
      simp [hnil]
    | cons c cs =>
      have hstart : (name ++ right).dropWhile isBlank = name ++ right :=
        dropWhile_eq_self_of_head? fun x hx => hname x (.inl (by simpa [hn] using hx))
      have hend : name.reverse.dropWhile isBlank = name.reverse :=
        dropWhile_eq_self_of_head? fun x hx => hname x (.inr (by simpa using hx))
      have hblank : ∀ x ∈ right.reverse, isBlank x = true := fun x hx => hright x (List.mem_reverse.mp hx)
      rw [← hn, hstart, List.reverse_append, List.dropWhile_append_of_pos hblank, hend, List.reverse_reverse]

end Workflow.Text

namespace Workflow.Template

section Marks

variable {m : Marks} {cs before rest body after : List Char}

theorem segments_of_none (h : m.hole? cs = none) : segments m cs = [.text cs] := by
  rw [segments]
  split
  · rfl
  · next h' => cases h.symm.trans h'

theorem segments_of_some (h : m.hole? cs = some (before, body, after)) :
    segments m cs = .text before :: .hole body :: segments m after := by
  rw [segments]
  split
  · next h' => cases h.symm.trans h'
  · next h' =>
    cases h.symm.trans h'
    rfl

/-- The pieces of a template: literal text up to the first mark that opens, what stands between it and the first
mark that closes after it, and so on. A mark that is not closed any more is literal text, with all that follows. -/
inductive Parts (m : Marks) : List Char → List Segment → Prop
  | text {cs : List Char} (h : ∀ before rest, Text.Cuts m.opening cs before rest →
      ∀ body after, ¬ Text.Cuts m.closing rest body after) : Parts m cs [.text cs]
  | hole {cs before rest body after : List Char} {segs : List Segment} (ho : Text.Cuts m.opening cs before rest)
      (hc : Text.Cuts m.closing rest body after) (h : Parts m after segs) :
      Parts m cs (.text before :: .hole body :: segs)

theorem hole?_eq_some_iff_cuts : m.hole? cs = some (before, body, after) ↔
    ∃ rest, Text.Cuts m.opening cs before rest ∧ Text.Cuts m.closing rest body after := by
  simp only [Marks.hole?_eq_some_iff, Text.cut?_eq_some_iff]

theorem parts_segments (m : Marks) (cs : List Char) : Parts m cs (segments m cs) := by
  fun_induction segments m cs with
  | case1 cs h =>
    refine .text fun before rest ho body after hc => ?_
    cases h.symm.trans (hole?_eq_some_iff_cuts.mpr ⟨rest, ho, hc⟩)
  | case2 cs before body after h hlt ih =>
    obtain ⟨rest, ho, hc⟩ := hole?_eq_some_iff_cuts.mp h
    exact .hole ho hc ih

/-- A template has pieces in one way only. -/
theorem parts_iff {segs : List Segment} : Parts m cs segs ↔ segments m cs = segs := by
  constructor
  · intro h
    induction h with
    | @text cs h =>
      refine segments_of_none (Option.eq_none_iff_forall_ne_some.mpr fun ⟨before, body, after⟩ hs => ?_)
      obtain ⟨rest, ho, hc⟩ := hole?_eq_some_iff_cuts.mp hs
      exact h before rest ho body after hc
    | hole ho hc _ ih => rw [segments_of_some (hole?_eq_some_iff_cuts.mpr ⟨_, ho, hc⟩), ih]
  · rintro rfl
    exact parts_segments m cs

/-- A hole as it is written. -/
def Marks.enclose (m : Marks) (body : List Char) : List Char := m.opening ++ (body ++ m.closing)

/-- The pieces of a template make it up, in order. -/
theorem Parts.fill_enclose {segs : List Segment} (h : Parts m cs segs) : fill m.enclose segs = cs := by
  induction h with
  | text _ => exact List.append_nil _
  | hole ho hc _ ih =>
    rw [fill, fill, ih, Marks.enclose, ho.eq, hc.eq]
    simp only [List.append_assoc]

end Marks

/-- How a key template is read: literal text up to a brace that opens, what stands between it and the next
brace that closes, and so on. A brace that is not closed any more is literal text, with all that follows. -/
inductive Reads : List Char → List Segment → Prop
  | text {cs : List Char} (h : ∀ before after, cs = before ++ '\x7b' :: after → '\x7d' ∉ after) :
      Reads cs [.text cs]
  | hole {cs body rest : List Char} {segs : List Segment} (hc : '\x7b' ∉ cs) (hb : '\x7d' ∉ body)
      (h : Reads rest segs) :
      Reads (cs ++ '\x7b' :: (body ++ '\x7d' :: rest)) (.text cs :: .hole body :: segs)

theorem Parts.reads {cs : List Char} {segs : List Segment} (h : Parts keyMarks cs segs) : Reads cs segs := by
  induction h with
  | @text cs h =>
    refine .text fun before after he hm => ?_
    obtain ⟨first, rest, ho⟩ := Text.exists_cuts_of_mem (show '\x7b' ∈ cs by simp [he])
    have hafter : after <:+ cs := he ▸ (List.suffix_cons _ _).trans (List.suffix_append _ _)
    have hrest : rest <:+ cs := ho.eq ▸ (List.suffix_cons _ _).trans (List.suffix_append _ _)
    -- any brace that opens is the first one or stands after it
    have hle : after.length ≤ rest.length := by
      have hlen := congrArg List.length (he.symm.trans ho.eq)
      have hfirst := ho.first before after he
      simp only [List.length_append, List.length_cons, List.length_nil] at hlen
      omega
    have hsuffix : after <:+ rest := List.suffix_of_suffix_length_le hafter hrest hle
    obtain ⟨body, back, hc⟩ := Text.exists_cuts_of_mem (hsuffix.subset hm)
    exact h first rest ho body back hc
  | hole ho hc _ ih =>
    obtain ⟨rfl, hcs⟩ := Text.cuts_singleton_iff.mp ho
    obtain ⟨rfl, hbody⟩ := Text.cuts_singleton_iff.mp hc
    exact .hole hcs hbody ih

theorem Reads.parts {cs : List Char} {segs : List Segment} (h : Reads cs segs) : Parts keyMarks cs segs := by
  induction h with
  | text h => exact .text fun before rest ho body after hc => h before rest ho.eq (by simp [hc.eq, keyMarks])
  | hole hc hb _ ih =>
    exact .hole (Text.cuts_singleton_iff.mpr ⟨rfl, hc⟩) (Text.cuts_singleton_iff.mpr ⟨rfl, hb⟩) ih

/-- A key template is read in one way only. -/
theorem segments_eq_iff {cs : List Char} {segs : List Segment} : segments keyMarks cs = segs ↔ Reads cs segs :=
  parts_iff.symm.trans ⟨Parts.reads, Reads.parts⟩

section Fill

variable {segs : List Segment} {f g : List Char → List Char}

theorem fill_congr (h : ∀ body ∈ holes segs, f body = g body) : fill f segs = fill g segs := by
  induction segs with
  | nil => rfl
  | cons seg segs ih =>
    cases seg with
    | text cs => rw [fill, fill, ih h]
    | hole body =>
      obtain ⟨hbody, h⟩ := List.forall_mem_cons.mp h
      rw [fill, fill, hbody, ih h]

theorem length_fill_le (h : ∀ body ∈ holes segs, (f body).length ≤ (g body).length) :
    (fill f segs).length ≤ (fill g segs).length := by
  induction segs with
  | nil => exact Nat.le_refl _
  | cons seg segs ih =>
    cases seg with
    | text cs =>
      rw [fill, fill, List.length_append, List.length_append]
      exact Nat.add_le_add_left (ih h) _
    | hole body =>
      obtain ⟨hbody, h⟩ := List.forall_mem_cons.mp h
      rw [fill, fill, List.length_append, List.length_append]
      exact Nat.add_le_add hbody (ih h)

/-- When no hole is filled with more in the one text than in the other, and the texts are the same, then every
hole is filled with the same in both. -/
theorem eq_of_fill_eq (hle : ∀ body ∈ holes segs, (f body).length ≤ (g body).length)
    (h : fill f segs = fill g segs) : ∀ body ∈ holes segs, f body = g body := by
  induction segs with
  | nil => exact fun body hbody => absurd hbody List.not_mem_nil
  | cons seg segs ih =>
    cases seg with
    | text cs => exact ih hle (List.append_cancel_left h)
    | hole body =>
      obtain ⟨hbody, hrest⟩ := List.forall_mem_cons.mp hle
      have hlen : (f body).length + (fill f segs).length = (g body).length + (fill g segs).length := by
        rw [← List.length_append, ← List.length_append]
        exact congrArg List.length h
      have hfill := length_fill_le hrest
      obtain ⟨hhead, htail⟩ := List.append_inj h (by omega)
      exact List.forall_mem_cons.mpr ⟨hhead, ih hrest htail⟩

end Fill

end Workflow.Template
