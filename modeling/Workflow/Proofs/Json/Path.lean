import Mathlib.Data.List.Forall2
import Workflow.Json.Path
import Workflow.Proofs.Text.Split

namespace Workflow.Json

variable {v w : Json} {segment : List Char}

/-- A step into a value: to the member of an object by its name, or to the item of a list by its place. Places
have 64 bits, as no list has more items than these can count. -/
inductive Step where
  | member (name : String)
  | item (place : UInt64)

/-- A step as it is written in a path: the name, or the decimal digits of the place. -/
def Step.text : Step → String
  | member name => name
  | item place => place.toNat.repr

/-- The path of steps, with points between them. -/
def pathOf (steps : List Step) : String := ".".intercalate (steps.map Step.text)

/-- A piece of a path that stands for a step: the name of a member, or a number for the place of an item. -/
inductive Spells : List Char → Step → Prop
  | member (name : String) : Spells name.toList (.member name)
  | item {segment : List Char} {place : UInt64} (h : index? segment = some place.toNat) :
      Spells segment (.item place)

/-- A step leads from a value to a part of it. -/
inductive Leads : Json → Step → Json → Prop
  | member {fields : Assoc Json} {name : String} {v : Json} (h : fields.get? name = some v) :
      Leads (.obj fields) (.member name) v
  | item {items : List Json} {place : UInt64} {v : Json} (h : items[place.toNat]? = some v) :
      Leads (.arr items) (.item place) v

/-- Steps lead from a value to a value inside it, one after the other. -/
inductive Reaches : Json → List Step → Json → Prop
  | here (v : Json) : Reaches v [] v
  | step {v u w : Json} {s : Step} {rest : List Step} (h : Leads v s u) (hr : Reaches u rest w) :
      Reaches v (s :: rest) w

theorem lt_word64_of_index? {n : Nat} (h : index? segment = some n) : n < Number.word64 := by
  unfold index? at h
  simp only [Option.ite_none_left_eq_some, Option.ite_none_right_eq_some, Option.some.injEq] at h
  obtain ⟨-, hlt, rfl⟩ := h
  exact hlt

/-- The decimal digits of a number are read as the place with that number. -/
theorem index?_toDigits {n : Nat} (h : n < Number.word64) : index? (Nat.toDigits 10 n) = some n := by
  have hdigit : ∀ c ∈ Nat.toDigits 10 n, c.isDigit = true := fun c hc =>
    Nat.isDigit_of_mem_toDigits (by decide) (by decide) hc
  have hvalue : Number.ofDigits (Nat.toDigits 10 n) = n := Nat.ofDigitChars_ten_toDigits
  unfold index?
  extract_lets ds place
  have hds : ds = Nat.toDigits 10 n := by
    unfold ds
    split
    · next rest hplus => cases hdigit '+' (by simp [hplus])
    · rfl
  have hplace : place = n := by rw [← hvalue, ← hds]
  have hdigits : ¬ (ds.isEmpty = true ∨ ¬ ds.all Char.isDigit = true) := by
    rw [hds]
    simpa [Nat.toDigits_ne_nil] using hdigit
  rw [if_neg hdigits, hplace, if_pos h]

theorem step?_eq_some_iff : v.step? segment = some w ↔ ∃ s, Spells segment s ∧ Leads v s w := by
  constructor
  · intro h
    cases v with
    | obj fields =>
      have hs := Spells.member (String.ofList segment)
      rw [String.toList_ofList] at hs
      exact ⟨_, hs, .member h⟩
    | arr items =>
      obtain ⟨n, hn, hw⟩ := Option.bind_eq_some_iff.mp h
      have hplace : (UInt64.ofNat n).toNat = n := UInt64.toNat_ofNat_of_lt (lt_word64_of_index? hn)
      exact ⟨.item (.ofNat n), .item (hplace.symm ▸ hn), .item (hplace.symm ▸ hw)⟩
    | null | bool | int | float | str => cases h
  · rintro ⟨s, hs, hl⟩
    cases hl with
    | member h =>
      cases hs
      simpa [step?] using h
    | item h =>
      cases hs with
      | item hi => simpa [step?, hi] using h

theorem follow?_eq_some_iff {segments : List (List Char)} : v.follow? segments = some w ↔
    ∃ steps, List.Forall₂ Spells segments steps ∧ v.Reaches steps w := by
  induction segments generalizing v with
  | nil =>
    constructor
    · rintro ⟨⟩
      exact ⟨[], .nil, .here _⟩
    · rintro ⟨_, ⟨⟩, ⟨⟩⟩
      rfl
  | cons segment rest ih =>
    simp only [follow?, Option.bind_eq_some_iff, step?_eq_some_iff, ih]
    constructor
    · rintro ⟨u, ⟨s, hs, hl⟩, steps, hsteps, hr⟩
      exact ⟨s :: steps, .cons hs hsteps, .step hl hr⟩
    · rintro ⟨_, ⟨⟩ | ⟨hs, hsteps⟩, hr⟩
      cases hr with
      | step hl hr => exact ⟨_, ⟨_, hs, hl⟩, _, hsteps, hr⟩

theorem lookup?_eq_some_iff {path : String} : v.lookup? path = some w ↔ path ≠ "" ∧
    ∃ steps, List.Forall₂ Spells (Text.split '.' path.toList) steps ∧ v.Reaches steps w := by
  rw [lookup?, lookupChars?, Option.ite_none_left_eq_some, follow?_eq_some_iff, List.isEmpty_iff,
    String.toList_eq_nil_iff]

theorem lookup?_append {p q : String} (hp : p ≠ "") (hq : q ≠ "") :
    v.lookup? (p ++ "." ++ q) = (v.lookup? p).bind (fun u => u.lookup? q) := by
  have hsplit : Text.split '.' (p.toList ++ '.' :: q.toList) =
      Text.split '.' p.toList ++ Text.split '.' q.toList := by
    simp only [Text.split_eq_splitOn, List.splitOn_append_cons_self]
  simp [lookup?, lookupChars?, hp, hq, hsplit, follow?_append]

theorem spells_text (s : Step) : Spells s.text.toList s := by
  cases s with
  | member name => exact .member name
  | item place =>
    refine .item ?_
    rw [Step.text, Nat.toList_repr]
    exact index?_toDigits place.toNat_lt

theorem Step.item_text_notMem (place : UInt64) : '.' ∉ (Step.item place).text.toList := by
  rw [Step.text, Nat.toList_repr]
  intro h
  cases Nat.isDigit_of_mem_toDigits (by decide) (by decide) h

theorem pathOf_ne_empty {steps : List Step} (hne : steps ≠ []) (hm : steps ≠ [.member ""]) :
    pathOf steps ≠ "" := by
  match steps with
  | [] => exact absurd rfl hne
  | [.member name] =>
    rw [pathOf, List.map_singleton, String.intercalate_singleton]
    rintro (rfl : name = "")
    exact hm rfl
  | [.item place] =>
    rw [pathOf, List.map_singleton, String.intercalate_singleton]
    exact Nat.repr_ne_empty
  | s :: t :: rest =>
    rw [pathOf, List.map_cons, List.map_cons, String.intercalate_cons_cons, ne_eq, ← String.toList_eq_nil_iff]
    simp

theorem split_pathOf {steps : List Step} (hne : steps ≠ [])
    (h : ∀ name, .member name ∈ steps → '.' ∉ name.toList) :
    Text.split '.' (pathOf steps).toList = steps.map (fun s => s.text.toList) := by
  have hdot : ∀ piece ∈ steps.map (fun s => s.text.toList), '.' ∉ piece := by
    intro piece hp
    obtain ⟨s, hs, rfl⟩ := List.mem_map.mp hp
    cases s with
    | member name => exact h name hs
    | item place => exact Step.item_text_notMem place
  rw [Text.split_eq_splitOn, pathOf, String.toList_intercalate, List.map_map]
  exact List.splitOn_intercalate '.' hdot (by simpa using hne)

theorem lookup?_pathOf {steps : List Step} (hr : v.Reaches steps w) (hne : steps ≠ [])
    (hm : steps ≠ [.member ""]) (h : ∀ name, .member name ∈ steps → '.' ∉ name.toList) :
    v.lookup? (pathOf steps) = some w := by
  refine lookup?_eq_some_iff.mpr ⟨pathOf_ne_empty hne hm, steps, ?_, hr⟩
  rw [split_pathOf hne h, List.forall₂_map_left_iff, List.forall₂_same]
  exact fun s _ => spells_text s

/-- A path is looked up one part after the other. It finds every value inside a value that steps with names
without points lead to, where it is written with points between the steps, unless that leaves it empty; and
whatever a path finds is what steps lead to that it stands for. -/
theorem lookup_exact (root : Json) :
    (∀ p q : String, p ≠ "" → q ≠ "" →
      root.lookup? (p ++ "." ++ q) = (root.lookup? p).bind (fun v => v.lookup? q)) ∧
    (∀ steps v, root.Reaches steps v → steps ≠ [] → steps ≠ [.member ""] →
      (∀ name, .member name ∈ steps → '.' ∉ name.toList) → root.lookup? (pathOf steps) = some v) ∧
    ∀ path v, root.lookup? path = some v ↔ path ≠ "" ∧
      ∃ steps, List.Forall₂ Spells (Text.split '.' path.toList) steps ∧ root.Reaches steps v :=
  ⟨fun _ _ => lookup?_append, fun _ _ => lookup?_pathOf, fun _ _ => lookup?_eq_some_iff⟩

/-- A list with an object in it, whose only member has a number for a name. -/
def numbered : Json := .obj [("rows", .arr [.null, .obj [("1", .str "x")]])]

/-- The same piece is a place in the list, and a name in its item. -/
theorem lookup_exact_numbered : numbered.Reaches [.member "rows", .item 1, .member "1"] (.str "x") ∧
    numbered.lookup? "rows.1.1" = some (.str "x") ∧
    (numbered.lookup? "rows").bind (fun v => v.lookup? "1.1") = some (.str "x") := by
  have hr : numbered.Reaches [.member "rows", .item 1, .member "1"] (.str "x") :=
    .step (.member rfl) (.step (.item rfl) (.step (.member rfl) (.here _)))
  have hpath : pathOf [.member "rows", .item 1, .member "1"] = "rows.1.1" := by decide +kernel
  have hl : numbered.lookup? "rows.1.1" = some (.str "x") := by
    rw [← hpath]
    refine (lookup_exact numbered).2.1 _ _ hr (by simp) (by simp) ?_
    simp
  have hc := (lookup_exact numbered).1 "rows" "1.1" (by decide) (by decide)
  exact ⟨hr, hl, hc.symm.trans hl⟩

end Workflow.Json
