import Workflow.Port.Coercion

namespace Workflow.PortKind

variable {k l : PortKind} {c : Coercion} {v : Json}

theorem accepts_null (k : PortKind) : k.accepts .null = false := by
  cases k <;> rfl

theorem isNull_of_accepts (h : k.accepts v = true) : v.isNull = false := by
  cases v with
  | null =>
    rw [accepts_null] at h
    cases h
  | bool | int | float | str | arr | obj => rfl

theorem exists_rows (h : table.accepts v = true) :
    ∃ rows, v = .arr rows ∧ ∀ row ∈ rows, object.accepts row = true := by
  cases v with
  | arr rows => exact ⟨rows, rfl, List.all_eq_true.mp h⟩
  | null | bool | int | float | str | obj => cases h

theorem accepts_array (h : table.accepts v = true ∨ embedding.accepts v = true) :
    array.accepts v = true := by
  cases v with
  | arr items => rfl
  | null | bool | int | float | str | obj => rcases h with h | h <;> cases h

theorem exists_documentOfText (h : string.accepts v = true) :
    ∃ w, Coercion.documentOfText v = .ok w ∧ document.accepts w = true := by
  cases v with
  | str s => exact ⟨_, rfl, rfl⟩
  | null | bool | int | float | arr | obj => cases h

theorem exists_textOfDocument (h : document.accepts v = true) :
    ∃ w, Coercion.textOfDocument v = .ok w ∧ string.accepts w = true := by
  cases v with
  | str s => exact ⟨_, rfl, rfl⟩
  | obj fields =>
    have hcontent : (Assoc.get? fields "content").any Json.isString = true := h
    obtain ⟨x, hx, hs⟩ := (Option.any_eq_true _ _).mp hcontent
    cases x with
    | str s => exact ⟨.str s, by rw [Coercion.textOfDocument, hx], rfl⟩
    | null | bool | int | float | arr | obj => cases hs
  | null | bool | int | float | arr => cases h

theorem exists_stringifyValue (h : number.accepts v = true ∨ boolean.accepts v = true) :
    ∃ w, Coercion.stringifyValue v = .ok w ∧ string.accepts w = true := by
  cases v with
  | bool | int | float => exact ⟨_, rfl, rfl⟩
  | null | str | arr | obj => rcases h with h | h <;> cases h

/-- The kinds that can be connected, and how. -/
theorem cases_of_coercionTo (h : k.coercionTo l = some c) :
    (k = l ∧ c = .identity) ∨
      ((k = .table ∨ k = .embedding) ∧ l = .array ∧ c = .identity) ∨
      (k = .string ∧ l = .document ∧ c = .wrapDocument) ∨
      (k = .document ∧ l = .string ∧ c = .documentText) ∨
      ((k = .number ∨ k = .boolean) ∧ l = .string ∧ c = .stringify) ∨
      (k = .table ∧ l = .object ∧ c = .firstRow) := by
  cases k <;> cases l <;> cases h <;> simp

/-- On the way along a link a value of one kind becomes one of the other kind, but for a table without
rows, which has no object to give. -/
theorem apply_of_accepts (hc : k.coercionTo l = some c) (hv : k.accepts v = true) :
    (∃ w, c.apply v = .ok w ∧ l.accepts w = true) ∨
      (k = .table ∧ l = .object ∧ v = .arr [] ∧ c.apply v = .error .noRows) := by
  rcases cases_of_coercionTo hc with ⟨rfl, rfl⟩ | ⟨rfl | rfl, rfl, rfl⟩ | ⟨rfl, rfl, rfl⟩ |
    ⟨rfl, rfl, rfl⟩ | ⟨rfl | rfl, rfl, rfl⟩ | ⟨rfl, rfl, rfl⟩
  · exact .inl ⟨v, rfl, hv⟩
  · exact .inl ⟨v, rfl, accepts_array (.inl hv)⟩
  · exact .inl ⟨v, rfl, accepts_array (.inr hv)⟩
  · exact .inl (exists_documentOfText hv)
  · exact .inl (exists_textOfDocument hv)
  · exact .inl (exists_stringifyValue (.inl hv))
  · exact .inl (exists_stringifyValue (.inr hv))
  · obtain ⟨rows, rfl, hrows⟩ := exists_rows hv
    cases rows with
    | nil => exact .inr ⟨rfl, rfl, rfl, rfl⟩
    | cons row rows => exact .inl ⟨row, rfl, hrows row List.mem_cons_self⟩

/-- A text as a document. -/
def documentOf (s : String) : Json := .obj [("content", .str s)]

/-- What comes of a value on its way between two kinds of ports when it already is of the second one. It
stays as it is, but a text becomes a document, and no first row can be taken of an object. -/
inductive Retains (k l : PortKind) (v : Json) : Except CoercionError Json → Prop
  | same (hrow : k = .table → l ≠ .object) (htext : k = .string → l = .document → v.isString = false) :
      Retains k l v (.ok v)
  | wrapped {s : String} (hk : k = .string) (hl : l = .document) (hv : v = .str s) :
      Retains k l v (.ok (documentOf s))
  | notTable (hk : k = .table) (hl : l = .object) : Retains k l v (.error (.notTable v))

theorem Retains.accepts {w : Json} (h : Retains k l v (.ok w)) (hv : l.accepts v = true) :
    l.accepts w = true := by
  cases h with
  | same => exact hv
  | wrapped _ hl _ =>
    subst hl
    rfl

theorem retains_document (h : document.accepts v = true) :
    Retains .string .document v (Coercion.documentOfText v) := by
  cases v with
  | str s => exact .wrapped rfl rfl rfl
  | obj fields =>
    have hsome : ((Json.obj fields).get? "content").isSome = true := by
      obtain ⟨x, hx, _⟩ := (Option.any_eq_true _ _).mp h
      exact Option.isSome_iff_exists.mpr ⟨x, hx⟩
    rw [Coercion.documentOfText, if_pos hsome]
    · exact .same (fun h => by cases h) fun _ _ => rfl
    · exact fun s hs => by cases hs
  | null | bool | int | float | arr => cases h

theorem retains_of_accepts (hc : k.coercionTo l = some c) (hv : l.accepts v = true) :
    Retains k l v (c.apply v) := by
  rcases cases_of_coercionTo hc with ⟨rfl, rfl⟩ | ⟨hk, rfl, rfl⟩ | ⟨rfl, rfl, rfl⟩ | ⟨rfl, rfl, rfl⟩ |
    ⟨hk, rfl, rfl⟩ | ⟨rfl, rfl, rfl⟩
  · exact .same (fun hk hl => by cases hk.symm.trans hl) fun hk hl => by cases hk.symm.trans hl
  · exact .same (fun _ hl => by cases hl) fun _ hl => by cases hl
  · exact retains_document hv
  · cases v with
    | str s => exact .same (fun hk => by cases hk) fun hk => by cases hk
    | null | bool | int | float | arr | obj => cases hv
  · cases v with
    | str s => exact .same (fun _ hl => by cases hl) fun _ hl => by cases hl
    | null | bool | int | float | arr | obj => cases hv
  · cases v with
    | obj fields => exact .notTable rfl rfl
    | null | bool | int | float | str | arr => cases hv

/-- A coercion takes whatever already is of the kind where it ends, unless that is the first row of a
table. -/
theorem forall_retained_iff (hc : k.coercionTo l = some c) :
    (∀ v, l.accepts v = true → ∃ w, c.apply v = .ok w ∧ l.accepts w = true) ↔
      ¬ (k = .table ∧ l = .object) := by
  constructor
  · rintro h ⟨rfl, rfl⟩
    cases hc
    obtain ⟨w, hw, _⟩ := h (.obj []) rfl
    cases hw
  · intro hne v hv
    have hr := retains_of_accepts hc hv
    cases ha : c.apply v with
    | ok w => exact ⟨w, rfl, (ha ▸ hr).accepts hv⟩
    | error e =>
      rw [ha] at hr
      cases hr with
      | notTable hk hl => exact absurd ⟨hk, hl⟩ hne

end Workflow.PortKind
