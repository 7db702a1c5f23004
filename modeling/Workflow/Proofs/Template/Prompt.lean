import Workflow.Proofs.Template.Reading
import Workflow.Template.Prompt

namespace Workflow.Template

variable {root v : Json} {segs : List Segment} {cs body out p b r : List Char}

/-- What a prompt comes to for a value: its literal text as it is, and for each reference the value at its path,
or the reference as it is written if there is none. -/
inductive Renders (root : Json) : List Segment → List Char → Prop
  | nil : Renders root [] []
  | text (cs : List Char) {segs : List Segment} {out : List Char} (h : Renders root segs out) :
      Renders root (.text cs :: segs) (cs ++ out)
  | found {body : List Char} {v : Json} {segs : List Segment} {out : List Char}
      (hv : root.lookupChars? (Text.trim body) = some v) (h : Renders root segs out) :
      Renders root (.hole body :: segs) (v.display.toList ++ out)
  | missing {body : List Char} {segs : List Segment} {out : List Char}
      (hv : root.lookupChars? (Text.trim body) = none) (h : Renders root segs out) :
      Renders root (.hole body :: segs) (promptMarks.enclose body ++ out)

theorem reference_of_some (hv : root.lookupChars? (Text.trim body) = some v) :
    reference root body = v.display.toList := by
  rw [reference, hv]

theorem reference_of_none (hv : root.lookupChars? (Text.trim body) = none) :
    reference root body = promptMarks.enclose body := by
  rw [reference, hv, Marks.enclose, ← List.append_assoc]

theorem renders_fill (root : Json) (segs : List Segment) : Renders root segs (fill (reference root) segs) := by
  induction segs with
  | nil => exact .nil
  | cons seg segs ih =>
    cases seg with
    | text cs => exact .text cs ih
    | hole body =>
      rw [fill]
      cases hv : root.lookupChars? (Text.trim body) with
      | some v => exact reference_of_some hv ▸ .found hv ih
      | none => exact reference_of_none hv ▸ .missing hv ih

theorem renderChars_eq_self (h : ∀ body ∈ holes (segments promptMarks cs),
    root.lookupChars? (Text.trim body) = none) : renderChars root cs = cs := by
  rw [renderChars, fill_congr fun body hbody => reference_of_none (h body hbody)]
  exact (parts_segments promptMarks cs).fill_enclose

theorem renderChars_append (hp : '\x7b' ∉ p) (hb : '\x7d' ∉ b) :
    renderChars root (p ++ (promptMarks.enclose b ++ r)) = p ++ (reference root b ++ renderChars root r) := by
  have ho : Text.cut? promptMarks.opening (p ++ (promptMarks.enclose b ++ r)) =
      some (p, b ++ (promptMarks.closing ++ r)) := by
    rw [Marks.enclose, List.append_assoc, List.append_assoc]
    exact Text.cut?_append hp _ _
  have hc : Text.cut? promptMarks.closing (b ++ (promptMarks.closing ++ r)) = some (b, r) :=
    Text.cut?_append hb _ _
  rw [renderChars, segments_of_some (Marks.hole?_eq_some_iff.mpr ⟨_, ho, hc⟩), fill, fill, renderChars]

theorem toList_render (root : Json) (template : String) :
    (render root template).toList = renderChars root template.toList := String.toList_ofList

theorem toList_enclose (p b r : String) : (p ++ "\x7b\x7b" ++ b ++ "\x7d\x7d" ++ r).toList =
    p.toList ++ (promptMarks.enclose b.toList ++ r.toList) := by
  simp [Marks.enclose, promptMarks]

/-- How prompts are rendered with a value. A template without a path to something stays as it is. Where something
stands in place of the first reference, the template goes on after that reference, whatever that something is.
And a template is made up of its pieces, which are the same for all values: what is rendered has them in order,
each literal text as it is and each reference by itself. -/
structure Rendering (root : Json) : Prop where
  unresolved : ∀ template : String, (∀ segs, Parts promptMarks template.toList segs →
    ∀ body ∈ holes segs, root.lookupChars? (Text.trim body) = none) → render root template = template
  found : ∀ (p b r : String) (v : Json), '\x7b' ∉ p.toList → '\x7d' ∉ b.toList →
    root.lookupChars? (Text.trim b.toList) = some v →
    render root (p ++ "\x7b\x7b" ++ b ++ "\x7d\x7d" ++ r) = p ++ v.display ++ render root r
  missing : ∀ p b r : String, '\x7b' ∉ p.toList → '\x7d' ∉ b.toList →
    root.lookupChars? (Text.trim b.toList) = none →
    render root (p ++ "\x7b\x7b" ++ b ++ "\x7d\x7d" ++ r) =
      p ++ "\x7b\x7b" ++ b ++ "\x7d\x7d" ++ render root r
  pieces : ∀ template : String, ∃ segs, (∀ xs, Parts promptMarks template.toList xs ↔ xs = segs) ∧
    fill promptMarks.enclose segs = template.toList ∧
    ∀ out, render root template = out ↔ Renders root segs out.toList

theorem Renders.eq_fill (h : Renders root segs out) : fill (reference root) segs = out := by
  induction h with
  | nil => rfl
  | text cs _ ih => rw [fill, ih]
  | found hv _ ih => rw [fill, reference_of_some hv, ih]
  | missing hv _ ih => rw [fill, reference_of_none hv, ih]

theorem render_eq_iff {template text : String} : render root template = text ↔
    Renders root (segments promptMarks template.toList) text.toList := by
  rw [← String.toList_inj, toList_render, renderChars]
  exact ⟨fun h => h ▸ renders_fill root _, Renders.eq_fill⟩

theorem rendering (root : Json) : Rendering root where
  unresolved := fun template h => by
    rw [← String.toList_inj, toList_render]
    exact renderChars_eq_self (h _ (parts_segments promptMarks _))
  found := fun p b r v hp hb hv => by
    rw [← String.toList_inj, toList_render, toList_enclose, renderChars_append hp hb, reference_of_some hv,
      String.toList_append, String.toList_append, toList_render, List.append_assoc]
  missing := fun p b r hp hb hv => by
    rw [← String.toList_inj, toList_render, toList_enclose, renderChars_append hp hb, reference_of_none hv,
      toList_enclose, toList_render]
  pieces := fun template => ⟨segments promptMarks template.toList, fun xs => parts_iff.trans eq_comm,
    (parts_segments promptMarks _).fill_enclose, fun out => render_eq_iff⟩

/-- What a value has between marks is left as it is. -/
example : render (.obj [("a", .str "\x7b\x7bb\x7d\x7d"), ("b", .int 1)])
    "\x7b\x7b a \x7d\x7d+\x7b\x7bb\x7d\x7d\x7b\x7b" = "\x7b\x7bb\x7d\x7d+1\x7b\x7b" := by
  with_unfolding_all rfl

end Workflow.Template
