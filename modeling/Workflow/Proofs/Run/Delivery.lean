import Workflow.Proofs.Except
import Workflow.Proofs.Plan.Typed
import Workflow.Proofs.Port.Coercion
import Workflow.Run.Progress

namespace Workflow

namespace Plan

variable {p : Plan} {ctx : Context} {i e : Nat} {l : Link} {n : Node} {q : Port} {v w output : Json}

theorem checkOutput_eq_ok (h : p.checkOutput i q v = .ok ()) :
    (v = .null ∧ q.optional = true) ∨ q.check (p.schema? i q.name) v = .ok () := by
  unfold checkOutput at h
  split at h
  · next hnull =>
    refine .inl ⟨?_, hnull.2⟩
    cases v with
    | null => rfl
    | bool | int | float | str | arr | obj => cases hnull.1
  · exact .inr h

theorem checkMembers_eq_ok {fields : Assoc Json} {ports : List Port}
    (h : p.checkMembers i fields ports = .ok ()) (hq : q ∈ ports) :
    (fields.get? q.name = none ∧ q.optional = true) ∨
      ∃ v, fields.get? q.name = some v ∧ p.checkOutput i q v = .ok () := by
  induction ports with
  | nil => cases hq
  | cons port ports ih =>
    unfold checkMembers at h
    split at h
    · next v hv =>
      cases hc : p.checkOutput i port v with
      | error reason =>
        rw [hc] at h
        cases h
      | ok _ =>
        rw [hc] at h
        rcases List.mem_cons.mp hq with rfl | hq
        · exact .inr ⟨v, hv, hc⟩
        · exact ih h hq
    · next hnone =>
      split at h
      · next hopt =>
        rcases List.mem_cons.mp hq with rfl | hq
        · exact .inl ⟨hnone, hopt⟩
        · exact ih h hq
      · cases h

/-- An output that fits the ports of a node has at each of them a value that fits it, or none when the
port may be without. -/
theorem valueAt?_of_validate (h : p.validate i n output = .ok ()) (hq : q ∈ n.outputs) :
    (n.valueAt? output q.name = none ∧ q.optional = true) ∨
      ∃ v, n.valueAt? output q.name = some v ∧ p.checkOutput i q v = .ok () := by
  unfold validate at h
  unfold Node.valueAt?
  split at h
  · next hnil =>
    rw [hnil] at hq
    cases hq
  · next only honly =>
    rw [honly] at hq
    obtain rfl := List.mem_singleton.mp hq
    rw [honly]
    exact .inr ⟨output, if_pos rfl, h⟩
  · next ports hnil hone =>
    split
    · next only honly => exact absurd honly (hone only)
    · split at h
      · exact checkMembers_eq_ok h hq
      · cases h

theorem checkTarget_of_deliver (h : p.deliver ctx l e v output = .ok (some w)) :
    p.checkTarget l e w = .ok () := by
  obtain ⟨pass, _, h⟩ := exists_of_bind_eq_ok h
  cases pass with
  | false => cases h
  | true =>
    obtain ⟨_, _, h⟩ := exists_of_bind_eq_ok h
    split at h
    · cases h
    · obtain ⟨_, _, h⟩ := exists_of_bind_eq_ok h
      obtain ⟨_, hcheck, h⟩ := exists_of_bind_eq_ok h
      cases h
      exact hcheck

/-- What becomes of a value is delivered when the condition of the link holds and the port admits it. -/
theorem deliver_of_passes {u : Json} (hp : passes l e (Expr.linkScope l.source.port v output ctx) = .ok true)
    (ht : transformed l e (Expr.linkScope l.source.port v output ctx) v = .ok w) (hw : w.isNull = false)
    (ha : l.coercion.apply w = .ok u) (hu : p.checkTarget l e u = .ok ()) :
    p.deliver ctx l e v output = .ok (some u) := by
  simp only [deliver, hp, ht, bind, Except.bind, hw, ha, Except.mapError, hu]
  rfl

section Plain

variable (hc : l.condition = none) (ht : l.transform = none)
include hc ht

theorem deliver_null : p.deliver ctx l e .null output = .ok none := by
  simp only [deliver, passes, transformed, hc, ht]
  rfl

theorem deliver_of_error {err : CoercionError} (hv : v.isNull = false)
    (ha : l.coercion.apply v = .error err) :
    p.deliver ctx l e v output = .error (linkError l e .invocation err.message) := by
  simp only [deliver, passes, transformed, hc, ht, bind, Except.bind, hv, ha]
  rfl

theorem deliver_of_apply (hv : v.isNull = false) (ha : l.coercion.apply v = .ok w)
    (hw : p.checkTarget l e w = .ok ()) : p.deliver ctx l e v output = .ok (some w) :=
  deliver_of_passes (by rw [passes, hc]) (by rw [transformed, ht]) hv ha hw

end Plain

end Plan

end Workflow
