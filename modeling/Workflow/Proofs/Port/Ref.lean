import Workflow.Port.Ref
import Workflow.Proofs.Text.Split

namespace Workflow

/-- A name that can stand on one side of the point in a port reference. -/
def IsPlainName (name : String) : Prop := name ≠ "" ∧ '.' ∉ name.toList

theorem isPlainName_ofList {cs : List Char} : IsPlainName (String.ofList cs) ↔ cs ≠ [] ∧ '.' ∉ cs := by
  rw [IsPlainName, String.toList_ofList, ne_eq, String.ofList_eq_empty_iff]

namespace Endpoint

theorem name_ofName (name : String) : (Endpoint.ofName name).name = name := by
  unfold ofName
  split
  · next h => exact h.symm
  · split
    · next h => exact h.symm
    · rfl

theorem ofName_eq_node_iff {name id : String} :
    ofName name = .node id ↔ name = id ∧ id ≠ inputName ∧ id ≠ outputName := by
  constructor
  · intro h
    obtain rfl : name = id := by rw [← name_ofName name, h, Endpoint.name]
    constructor
    · rfl
    · constructor <;> rintro rfl <;> cases h
  · rintro ⟨rfl, hi, ho⟩
    rw [ofName, if_neg hi, if_neg ho]

theorem ofName_name {e : Endpoint} (h : ∀ id, e = .node id → id ≠ inputName ∧ id ≠ outputName) :
    ofName e.name = e := by
  cases e with
  | input | output => rfl
  | node id => exact ofName_eq_node_iff.mpr ⟨rfl, h id rfl⟩

end Endpoint

namespace PortRef

variable {s t : String} {r : PortRef}

/-- A port reference with a written form of its own: its names can be told apart from the point, and the
node from the two sides of the run. -/
structure Proper (r : PortRef) : Prop where
  port : IsPlainName r.port
  node : ∀ id, r.endpoint = .node id →
    IsPlainName id ∧ id ≠ Endpoint.inputName ∧ id ≠ Endpoint.outputName

/-- A text is read as a port reference where its only point parts two names. -/
theorem parse?_eq_some_iff_parts : parse? s = some r ↔ ∃ name port : List Char,
    s.toList = name ++ '.' :: port ∧ (name ≠ [] ∧ '.' ∉ name) ∧ (port ≠ [] ∧ '.' ∉ port) ∧
      r = ⟨.ofName (String.ofList name), String.ofList port⟩ := by
  constructor
  · intro h
    simp only [parse?, Option.bind_eq_bind, Option.bind_eq_some_iff, Option.ite_none_left_eq_some, not_or,
      List.isEmpty_iff] at h
    obtain ⟨⟨name, port⟩, hcut, ⟨hne, hpe, hp⟩, hr⟩ := h
    obtain ⟨hs, hn⟩ := Text.cuts_singleton_iff.mp (Text.cuts_of_cut? hcut)
    exact ⟨name, port, hs, ⟨hne, hn⟩, ⟨hpe, hp⟩, (Option.some.inj hr).symm⟩
  · rintro ⟨name, port, hs, ⟨hne, hn⟩, ⟨hpe, hp⟩, rfl⟩
    have hcut : Text.cut? ['.'] s.toList = some (name, port) := hs ▸ Text.cut?_append hn [] port
    simp [parse?, hcut, hp, hne, hpe]

/-- Reading and writing port references undo each other. -/
theorem parse?_eq_some_iff : parse? s = some r ↔ r.Proper ∧ r.render = s := by
  rw [parse?_eq_some_iff_parts]
  constructor
  · rintro ⟨name, port, hs, hn, hp, rfl⟩
    refine ⟨⟨isPlainName_ofList.mpr hp, fun id hid => ?_⟩, ?_⟩
    · obtain ⟨rfl, hne⟩ := Endpoint.ofName_eq_node_iff.mp hid
      exact ⟨isPlainName_ofList.mpr hn, hne⟩
    · rw [render, Endpoint.name_ofName, ← String.toList_inj, hs]
      simp
  · rintro ⟨hr, rfl⟩
    have hname : IsPlainName r.endpoint.name := by
      cases he : r.endpoint with
      | input | output => exact ⟨by decide, by decide⟩
      | node id => exact (hr.node id he).1
    refine ⟨r.endpoint.name.toList, r.port.toList, by simp [render], ?_, ?_, ?_⟩
    · exact isPlainName_ofList.mp (by rwa [String.ofList_toList])
    · exact isPlainName_ofList.mp (by rw [String.ofList_toList]; exact hr.port)
    · rw [String.ofList_toList, String.ofList_toList, Endpoint.ofName_name fun id he => (hr.node id he).2]

theorem render_of_parse? (h : parse? s = some r) : r.render = s := (parse?_eq_some_iff.mp h).2

theorem eq_of_parse? (hs : parse? s = some r) (ht : parse? t = some r) : s = t :=
  (render_of_parse? hs).symm.trans (render_of_parse? ht)

theorem exists_parse?_iff : (∃ r, parse? s = some r) ↔ s.toList.count '.' = 1 ∧
    ∃ name port, name ≠ [] ∧ port ≠ [] ∧ s.toList = name ++ '.' :: port := by
  constructor
  · rintro ⟨r, hr⟩
    obtain ⟨name, port, hs, ⟨hne, hn⟩, ⟨hpe, hp⟩, -⟩ := parse?_eq_some_iff_parts.mp hr
    refine ⟨?_, name, port, hne, hpe, hs⟩
    rw [hs, List.count_append, List.count_cons_self, List.count_eq_zero_of_not_mem hn,
      List.count_eq_zero_of_not_mem hp]
  · rintro ⟨hc, name, port, hne, hpe, hs⟩
    rw [hs, List.count_append, List.count_cons_self] at hc
    have hn : '.' ∉ name := List.count_eq_zero.mp (by omega)
    have hp : '.' ∉ port := List.count_eq_zero.mp (by omega)
    exact ⟨_, parse?_eq_some_iff_parts.mpr ⟨name, port, hs, ⟨hne, hn⟩, ⟨hpe, hp⟩, rfl⟩⟩

end PortRef

end Workflow
