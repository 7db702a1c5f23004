import Workflow.Proofs.Assoc
import Workflow.Tree.Resolve

namespace Workflow

/-- A value that comes back from the tree it is written as. -/
def Json.ReadsBack (v : Json) : Prop := (Tree.ofJson v).toJson? = some v

namespace Tree

/-- A member of a map whose name is text. -/
def named (e : String × Tree) : Tree × Tree := (.scalar (.text e.1), e.2)

theorem ofItems_eq_map (items : List Json) : ofItems items = items.map ofJson := by
  induction items with
  | nil => rfl
  | cons v items ih => rw [ofItems, ih, List.map_cons]

theorem ofFields_eq_map (fields : List (String × Json)) :
    ofFields fields = (Assoc.mapValues ofJson fields).map named := by
  induction fields with
  | nil => rfl
  | cons e fields ih =>
    obtain ⟨name, v⟩ := e
    rw [ofFields, ih]
    rfl

mutual

/-- There is nothing to resolve in a tree that a value is written as. -/
theorem resolve?_ofJson (v : Json) : (ofJson v).resolve? = some (ofJson v) := by
  cases v with
  | null => rfl
  | bool b => rfl
  | int n => rfl
  | float x => rfl
  | str s => rfl
  | arr items =>
    rw [ofJson, resolve?, resolveItems?_ofItems items]
    rfl
  | obj fields =>
    rw [ofJson, resolve?, resolveEntries?_ofFields fields]
    rfl

theorem resolveItems?_ofItems (items : List Json) :
    resolveItems? (ofItems items) = some (ofItems items) := by
  cases items with
  | nil => rfl
  | cons v items =>
    rw [ofItems, resolveItems?, resolve?_ofJson v, resolveItems?_ofItems items]
    rfl

theorem resolveEntries?_ofFields (fields : List (String × Json)) :
    resolveEntries? (ofFields fields) = some (ofFields fields) := by
  cases fields with
  | nil => rfl
  | cons e fields =>
    obtain ⟨name, v⟩ := e
    rw [ofFields, resolveEntries?, resolve?_ofJson v, resolveEntries?_ofFields fields]
    rfl

end

theorem itemsToJson?_ofItems {items : List Json} (h : ∀ v ∈ items, v.ReadsBack) :
    itemsToJson? (ofItems items) = some items := by
  induction items with
  | nil => rfl
  | cons v items ih =>
    rw [ofItems, itemsToJson?, h v List.mem_cons_self,
      ih fun u hu => h u (List.mem_cons_of_mem _ hu)]
    rfl

theorem entriesToJson?_ofFields {fields : List (String × Json)} (h : ∀ e ∈ fields, e.2.ReadsBack) :
    entriesToJson? (ofFields fields) = some fields := by
  induction fields with
  | nil => rfl
  | cons e fields ih =>
    obtain ⟨name, v⟩ := e
    rw [ofFields, entriesToJson?, h (name, v) List.mem_cons_self,
      ih fun d hd => h d (List.mem_cons_of_mem _ hd)]
    rfl

theorem readsBack_ofFloat (x : Float) : (Json.ofFloat x).ReadsBack := by
  unfold Json.ofFloat
  split
  · next h => exact congrArg some (if_pos h)
  · rfl

theorem readsBack_arr {items : List Json} (h : ∀ v ∈ items, v.ReadsBack) :
    (Json.arr items).ReadsBack := by
  rw [Json.ReadsBack, ofJson, toJson?, itemsToJson?_ofItems h]
  rfl

theorem readsBack_obj {fields : Assoc Json} (hs : fields.Sorted) (h : ∀ e ∈ fields, e.2.ReadsBack) :
    (Json.obj fields).ReadsBack := by
  rw [Json.ReadsBack, ofJson, toJson?, entriesToJson?_ofFields h]
  exact congrArg (fun t => some (Json.obj t)) hs.ofList_eq

theorem readsBack_of_scalar {s : Scalar} {v : Json} (h : (Tree.scalar s).toJson? = some v) :
    v.ReadsBack := by
  obtain ⟨s, -, hs⟩ := Option.bind_eq_some_iff.mp (h : (s.resolve?).bind _ = some v)
  cases s with
  | null | bool b | int n | text s =>
    cases hs
    rfl
  | float x =>
    cases hs
    exact readsBack_ofFloat x
  | written s style tag => cases hs

mutual

/-- Whatever tree a value was read from, writing it and reading it again gives the value. -/
theorem readsBack_of_toJson? {t : Tree} {v : Json} (h : t.toJson? = some v) : v.ReadsBack := by
  match t with
  | scalar s => exact readsBack_of_scalar h
  | list tag items =>
    rw [toJson?] at h
    split at h
    · cases h
    · obtain ⟨vs, hvs, rfl⟩ := Option.map_eq_some_iff.mp h
      exact readsBack_arr (readsBack_of_itemsToJson? hvs)
  | map tag entries =>
    rw [toJson?] at h
    split at h
    · cases h
    · obtain ⟨fields, hf, rfl⟩ := Option.map_eq_some_iff.mp h
      exact readsBack_obj (.ofList fields) fun e he =>
        readsBack_of_entriesToJson? hf e (Assoc.mem_of_mem_ofList he)

theorem readsBack_of_itemsToJson? {items : List Tree} {vs : List Json}
    (h : itemsToJson? items = some vs) : ∀ v ∈ vs, v.ReadsBack := by
  match items with
  | [] =>
    cases h
    exact fun v hv => absurd hv List.not_mem_nil
  | t :: rest =>
    simp only [itemsToJson?, Option.bind_eq_bind, Option.bind_eq_some_iff, Option.some.injEq] at h
    obtain ⟨u, hu, us, hus, rfl⟩ := h
    exact List.forall_mem_cons.mpr ⟨readsBack_of_toJson? hu, readsBack_of_itemsToJson? hus⟩

theorem readsBack_of_entriesToJson? {entries : List (Tree × Tree)} {fields : List (String × Json)}
    (h : entriesToJson? entries = some fields) : ∀ e ∈ fields, e.2.ReadsBack := by
  match entries with
  | [] =>
    cases h
    exact fun e he => absurd he List.not_mem_nil
  | (k, t) :: rest =>
    simp only [entriesToJson?, Option.bind_eq_bind, Option.bind_eq_some_iff, Option.some.injEq] at h
    obtain ⟨name, -, u, hu, us, hus, rfl⟩ := h
    exact List.forall_mem_cons.mpr ⟨readsBack_of_toJson? hu, readsBack_of_entriesToJson? hus⟩

end

end Tree

end Workflow
