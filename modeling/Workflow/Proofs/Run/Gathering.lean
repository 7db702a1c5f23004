import Workflow.Proofs.Assoc
import Workflow.Proofs.Plan.Typed
import Workflow.Run.Progress

namespace Workflow.Progress

variable {p : Plan} {s : Progress} {r : PortRef} {v : Json} {e i : Nat} {id name : String} {n : Node}
variable {links : List Nat}

/-- A link to a port has delivered a value. -/
def Arrived (p : Plan) (s : Progress) (r : PortRef) (e : Nat) (v : Json) : Prop :=
  ∃ l, p.flow.links[e]? = some l ∧ l.target = r ∧ s.links[e]? = some (.delivered v)

/-- A value arrives at a port that the first link there has delivered of all that have delivered any. -/
def First (p : Plan) (s : Progress) (r : PortRef) (v : Json) : Prop :=
  ∃ e, Arrived p s r e v ∧ ∀ e' < e, ∀ w, ¬ Arrived p s r e' w

/-- What a link delivers to the ports of a name. -/
def arrival? (p : Plan) (s : Progress) (name : String) (e : Nat) : Option Json :=
  match p.flow.links[e]?, s.valueOf? e with
  | some l, some v => if l.target.port = name then some v else none
  | _, _ => none

theorem valueOf?_eq_some_iff : s.valueOf? e = some v ↔ s.links[e]? = some (.delivered v) := by
  unfold valueOf?
  split
  · next w hw => simp [hw]
  · next hne =>
    constructor
    · intro h
      cases h
    · intro h
      exact absurd h (hne v)

theorem arrival?_eq_some_iff : arrival? p s name e = some v ↔
    ∃ l, p.flow.links[e]? = some l ∧ l.target.port = name ∧ s.links[e]? = some (.delivered v) := by
  rw [← valueOf?_eq_some_iff]
  unfold arrival?
  constructor
  · intro h
    split at h
    · next l w hl hw =>
      simp only [Option.ite_none_right_eq_some, Option.some.injEq] at h
      obtain ⟨hname, rfl⟩ := h
      exact ⟨l, hl, hname, hw⟩
    · cases h
  · rintro ⟨l, hl, rfl, hw⟩
    simp only [hl, hw, if_true]

theorem get?_delivered (links : List Nat) (name : String) :
    (s.delivered p links).get? name = links.findSome? (arrival? p s name) := by
  have hacc : ∀ values : Assoc Json, (links.foldl (fun values e =>
      match p.flow.links[e]?, s.valueOf? e with
      | some l, some v => values.insertNew l.target.port v
      | _, _ => values) values).get? name =
        (values.get? name).or (links.findSome? (arrival? p s name)) := by
    induction links with
    | nil => exact fun values => (Option.or_none).symm
    | cons e links ih =>
      intro values
      rw [List.foldl_cons, ih, List.findSome?_cons]
      cases hl : p.flow.links[e]? with
      | none => simp only [arrival?, hl]
      | some l =>
        cases hw : s.valueOf? e with
        | none => simp only [arrival?, hl, hw]
        | some w =>
          simp only [arrival?, hl, hw, Assoc.get?_insertNew, Option.or_assoc]
          split
          · rw [Option.some_or]
          · rw [Option.none_or]
  exact hacc []

/-- Of the links of a list that lead to a port, in document order, the first that has delivered counts. -/
theorem get?_delivered_iff (hs : links.Pairwise (· < ·))
    (hm : ∀ e, e ∈ links ↔ ∃ l, p.flow.links[e]? = some l ∧ l.target.endpoint = r.endpoint) :
    (s.delivered p links).get? r.port = some v ↔ First p s r v := by
  have harrived : ∀ e w, (e ∈ links ∧ arrival? p s r.port e = some w) ↔ Arrived p s r e w := by
    intro e w
    rw [hm, arrival?_eq_some_iff]
    constructor
    · rintro ⟨⟨l, hl, he⟩, l', hl', hport, hw⟩
      cases hl.symm.trans hl'
      exact ⟨l, hl, congrArg₂ PortRef.mk he hport, hw⟩
    · rintro ⟨l, hl, rfl, hw⟩
      exact ⟨⟨l, hl, rfl⟩, l, hl, rfl, hw⟩
  rw [get?_delivered, List.findSome?_eq_some_iff]
  constructor
  · rintro ⟨before, e, after, rfl, hv, hnone⟩
    refine ⟨e, (harrived e v).mp ⟨List.mem_append_right _ List.mem_cons_self, hv⟩, fun e' he' w hw => ?_⟩
    obtain ⟨hmem, harr⟩ := (harrived e' w).mpr hw
    have hbefore : e' ∈ before := by
      refine (List.mem_append.mp hmem).resolve_right fun hafter => ?_
      rcases List.mem_cons.mp hafter with rfl | hafter
      · exact Nat.lt_irrefl _ he'
      · have hlt := (List.pairwise_cons.mp (List.pairwise_append.mp hs).2.1).1 e' hafter
        exact Nat.lt_asymm he' hlt
    rw [hnone e' hbefore] at harr
    cases harr
  · rintro ⟨e, hv, hmin⟩
    obtain ⟨hmem, harr⟩ := (harrived e v).mpr hv
    obtain ⟨before, after, rfl⟩ := List.append_of_mem hmem
    refine ⟨before, e, after, rfl, harr, fun e' he' => ?_⟩
    rw [Option.eq_none_iff_forall_ne_some]
    intro w hw
    have hlt := (List.pairwise_append.mp hs).2.2 e' he' e List.mem_cons_self
    exact hmin e' hlt w ((harrived e' w).mp ⟨List.mem_append_left _ he', hw⟩)

theorem mem_delivered {x : String × Json} (h : x ∈ s.delivered p links) :
    ∃ e ∈ links, ∃ l, p.flow.links[e]? = some l ∧ l.target.port = x.1 ∧
      s.links[e]? = some (.delivered x.2) := by
  have hacc : ∀ values : Assoc Json, x ∈ links.foldl (fun values e =>
      match p.flow.links[e]?, s.valueOf? e with
      | some l, some v => values.insertNew l.target.port v
      | _, _ => values) values → x ∈ values ∨ ∃ e ∈ links, arrival? p s x.1 e = some x.2 := by
    clear h
    induction links with
    | nil => exact fun values => .inl
    | cons e links ih =>
      intro values hx
      rw [List.foldl_cons] at hx
      rcases ih _ hx with hx | ⟨e', he', hv⟩
      · split at hx
        · next l w hl hw =>
          rcases Assoc.mem_of_mem_insertNew hx with rfl | hx
          · exact .inr ⟨e, List.mem_cons_self, by simp [arrival?, hl, hw]⟩
          · exact .inl hx
        · exact .inl hx
      · exact .inr ⟨e', List.mem_cons_of_mem _ he', hv⟩
  obtain ⟨e, he, hv⟩ := (hacc [] h).resolve_left List.not_mem_nil
  exact ⟨e, he, arrival?_eq_some_iff.mp hv⟩

end Workflow.Progress
