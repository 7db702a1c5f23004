import Workflow.Assoc

namespace Workflow.Assoc

variable {α : Type} {a b : String}

theorem insert_cons (k : String) (v x : α) (t : Assoc α) :
    Assoc.insert ((k, v) :: t) a x =
      if k = a then (a, x) :: t else if a < k then (a, x) :: (k, v) :: t else (k, v) :: t.insert a x :=
  rfl

theorem insert_comm_of_lt (h : a < b) (t : Assoc α) (x y : α) :
    (t.insert a x).insert b y = (t.insert b y).insert a x := by
  have hab : a ≠ b := String.ne_of_lt h
  have hba : ¬ b < a := String.lt_asymm h
  induction t with
  | nil => rw [insert, insert, insert_cons, insert_cons, if_neg hab, if_neg hba, if_neg hab.symm,
      if_pos h, insert]
  | cons e t ih =>
    obtain ⟨k, v⟩ := e
    by_cases hka : k = a
    · subst hka
      rw [insert_cons, if_pos rfl, insert_cons, if_neg hab, if_neg hba, insert_cons, if_neg hab,
        if_neg hba, insert_cons, if_pos rfl]
    by_cases hak : a < k
    · rw [insert_cons, if_neg hka, if_pos hak, insert_cons, if_neg hab, if_neg hba]
      rw [insert_cons k v y]
      split
      · rw [insert_cons, if_neg hab.symm, if_pos h]
      · split
        · rw [insert_cons, if_neg hab.symm, if_pos h]
        · rw [insert_cons, if_neg hka, if_pos hak]
    · have hkb : k < b := Std.lt_of_le_of_lt (String.not_lt.mp hak) h
      have hkb' : k ≠ b := String.ne_of_lt hkb
      have hbk : ¬ b < k := String.lt_asymm hkb
      rw [insert_cons, if_neg hka, if_neg hak, insert_cons, if_neg hkb', if_neg hbk, insert_cons,
        if_neg hkb', if_neg hbk, insert_cons, if_neg hka, if_neg hak, ih]

/-- It does not matter which of two names is put into a table first. -/
theorem insert_comm (h : a ≠ b) (t : Assoc α) (x y : α) :
    (t.insert a x).insert b y = (t.insert b y).insert a x := by
  by_cases hab : a < b
  · exact insert_comm_of_lt hab t x y
  · have hba : b < a := String.not_le.mp fun hle =>
      h (String.le_antisymm hle (String.not_lt.mp hab))
    exact (insert_comm_of_lt hba t y x).symm

theorem get?_insert (t : Assoc α) (a b : String) (x : α) :
    (t.insert a x).get? b = if a = b then some x else t.get? b := by
  split
  · next h => rw [h, get?_insert_self]
  · next h => exact get?_insert_of_ne t x h

/-- A name that is taken keeps its value. -/
theorem get?_insertNew (t : Assoc α) (a b : String) (x : α) :
    (t.insertNew a x).get? b = (t.get? b).or (if a = b then some x else none) := by
  unfold insertNew contains
  cases ha : t.get? a with
  | some y =>
    rw [Option.isSome_some, if_pos rfl]
    split
    · next h => rw [← h, ha, Option.some_or]
    · rw [Option.or_none]
  | none =>
    rw [Option.isSome_none, if_neg Bool.false_ne_true, get?_insert]
    split
    · next h => rw [← h, ha, Option.none_or]
    · rw [Option.or_none]

theorem mem_of_mem_insert {t : Assoc α} {x : α} {e : String × α} (h : e ∈ t.insert a x) :
    e = (a, x) ∨ e ∈ t := by
  induction t with
  | nil => exact .inl (List.mem_singleton.mp h)
  | cons d t ih =>
    obtain ⟨k, v⟩ := d
    rw [insert_cons] at h
    split at h
    · exact (List.mem_cons.mp h).imp_right (List.mem_cons_of_mem _)
    · split at h
      · exact List.mem_cons.mp h
      · rcases List.mem_cons.mp h with rfl | h
        · exact .inr List.mem_cons_self
        · exact (ih h).imp_right (List.mem_cons_of_mem _)

theorem mem_of_mem_insertNew {t : Assoc α} {x : α} {e : String × α} (h : e ∈ t.insertNew a x) :
    e = (a, x) ∨ e ∈ t := by
  unfold insertNew at h
  split at h
  · exact .inr h
  · exact mem_of_mem_insert h

theorem get?_erase (t : Assoc α) (a b : String) :
    (t.erase a).get? b = if a = b then none else t.get? b := by
  induction t with
  | nil => simp [erase]
  | cons e t ih =>
    obtain ⟨k, v⟩ := e
    by_cases hk : k = a
    · rw [erase, List.filter_cons_of_neg (by simpa using hk), ← erase, ih, get?, hk]
      split <;> rfl
    · rw [erase, List.filter_cons_of_pos (by simpa using hk), ← erase, get?, get?, ih]
      by_cases hkb : k = b
      · rw [if_pos hkb, if_pos hkb, if_neg fun h => hk (hkb.trans h.symm)]
      · rw [if_neg hkb, if_neg hkb]

theorem erase_erase (t : Assoc α) (a : String) : (t.erase a).erase a = t.erase a := by
  rw [erase, erase, List.filter_filter]
  simp only [Bool.and_self]

theorem erase_comm (t : Assoc α) (a b : String) : (t.erase a).erase b = (t.erase b).erase a := by
  rw [erase, erase, erase, erase, List.filter_filter, List.filter_filter]
  exact List.filter_congr fun _ _ => Bool.and_comm ..

theorem erase_insert_self (t : Assoc α) (a : String) (x : α) : (t.insert a x).erase a = t.erase a := by
  have hnew : ∀ t : Assoc α, erase ((a, x) :: t) a = t.erase a := fun t =>
    List.filter_cons_of_neg (by simp)
  induction t with
  | nil => exact hnew []
  | cons e t ih =>
    obtain ⟨k, v⟩ := e
    rw [insert_cons]
    split
    · next hk =>
      subst hk
      exact (hnew t).trans (List.filter_cons_of_neg (by simp)).symm
    · next hk =>
      split
      · exact hnew _
      · have hkeep : ∀ t : Assoc α, erase ((k, v) :: t) a = (k, v) :: t.erase a := fun t =>
          List.filter_cons_of_pos (by simpa using hk)
        rw [hkeep, hkeep, ih]

@[simp] theorem get?_cons_self (a : String) (x : α) (t : Assoc α) : get? ((a, x) :: t) a = some x :=
  if_pos rfl

@[simp] theorem get?_cons_of_ne (h : b ≠ a) (x : α) (t : Assoc α) : get? ((b, x) :: t) a = t.get? a :=
  if_neg h

@[simp] theorem get?_append (s t : Assoc α) (a : String) :
    get? (s ++ t) a = (s.get? a).or (t.get? a) := by
  induction s with
  | nil => rfl
  | cons e s ih =>
    obtain ⟨k, v⟩ := e
    rw [List.cons_append, get?, get?]
    split
    · rfl
    · exact ih

theorem get?_eq_none_iff {t : Assoc α} : t.get? a = none ↔ a ∉ t.map Prod.fst := by
  induction t with
  | nil => simp
  | cons e t ih =>
    obtain ⟨k, v⟩ := e
    rw [get?, List.map_cons, List.mem_cons, not_or]
    split
    · next h => simp [h]
    · next h => exact ih.trans ⟨fun hm => ⟨Ne.symm h, hm⟩, And.right⟩

theorem mem_of_get? {t : Assoc α} {x : α} (h : t.get? a = some x) : (a, x) ∈ t := by
  induction t with
  | nil => cases h
  | cons e t ih =>
    obtain ⟨k, v⟩ := e
    rw [get?] at h
    split at h
    · next hk =>
      cases h
      rw [hk]
      exact List.mem_cons_self
    · exact List.mem_cons_of_mem _ (ih h)

theorem get?_mapEntries {β : Type} (f : String → α → β) (t : Assoc α) (a : String) :
    get? (t.map (fun e => (e.1, f e.1 e.2))) a = (t.get? a).map (f a) := by
  induction t with
  | nil => rfl
  | cons e t ih =>
    obtain ⟨k, v⟩ := e
    rw [List.map_cons, get?, get?, ih]
    split
    · next h => rw [h, Option.map_some]
    · rfl

theorem get?_mapValues {β : Type} (f : α → β) (t : Assoc α) (a : String) :
    (t.mapValues f).get? a = (t.get? a).map f := get?_mapEntries (fun _ => f) t a

theorem mem_of_mem_ofList {t : List (String × α)} {e : String × α} (h : e ∈ ofList t) : e ∈ t := by
  suffices hs : ∀ s : Assoc α, e ∈ t.foldl (fun s e => s.insert e.1 e.2) s → e ∈ s ∨ e ∈ t from
    (hs [] h).resolve_left List.not_mem_nil
  clear h
  induction t with
  | nil => exact fun s h => .inl h
  | cons d t ih =>
    intro s h
    rcases ih _ h with h | h
    · rcases mem_of_mem_insert h with rfl | h
      · exact .inr List.mem_cons_self
      · exact .inl h
    · exact .inr (List.mem_cons_of_mem _ h)

/-- A table looks up what the list it is made of holds, when no name stands there twice. -/
theorem get?_ofList {t : List (String × α)} (h : (t.map Prod.fst).Nodup) (a : String) :
    (ofList t).get? a = get? t a := by
  suffices hs : ∀ s : Assoc α, get? (t.foldl (fun s e => s.insert e.1 e.2) s) a =
      (get? t a).or (s.get? a) from (hs []).trans (Option.or_none)
  induction t with
  | nil => exact fun s => rfl
  | cons e t ih =>
    intro s
    obtain ⟨k, v⟩ := e
    obtain ⟨hk, ht⟩ := List.nodup_cons.mp h
    rw [List.foldl_cons, ih ht, get?, get?_insert]
    split
    · next hka =>
      rw [get?_eq_none_iff.mpr (hka ▸ hk)]
      rfl
    · rfl

/-- The names of a table increase. -/
def Sorted (t : Assoc α) : Prop := t.Pairwise (fun d e => d.1 < e.1)

namespace Sorted

variable {t : Assoc α}

theorem nil : Sorted ([] : Assoc α) := List.Pairwise.nil

theorem insert (h : t.Sorted) (a : String) (x : α) : (t.insert a x).Sorted := by
  induction t with
  | nil => exact List.pairwise_singleton _ _
  | cons e t ih =>
    obtain ⟨k, v⟩ := e
    obtain ⟨hk, ht⟩ := List.pairwise_cons.mp h
    rw [insert_cons]
    split
    · next hka =>
      subst hka
      exact List.pairwise_cons.mpr ⟨hk, ht⟩
    · next hka =>
      split
      · next hak =>
        refine List.pairwise_cons.mpr ⟨fun d hd => ?_, h⟩
        rcases List.mem_cons.mp hd with rfl | hd
        · exact hak
        · exact String.lt_trans hak (hk d hd)
      · next hak =>
        refine List.pairwise_cons.mpr ⟨fun d hd => ?_, ih ht⟩
        rcases mem_of_mem_insert hd with rfl | hd
        · exact Std.lt_of_le_of_ne (String.not_lt.mp hak) hka
        · exact hk d hd

theorem ofList (entries : List (String × α)) : (Assoc.ofList entries).Sorted := by
  suffices hs : ∀ s : Assoc α, s.Sorted → Sorted (entries.foldl (fun s e => s.insert e.1 e.2) s) from
    hs [] nil
  induction entries with
  | nil => exact fun s h => h
  | cons e entries ih => exact fun s h => ih _ (h.insert e.1 e.2)

theorem names_nodup (h : t.Sorted) : (t.map Prod.fst).Nodup :=
  List.pairwise_map.mpr (h.imp String.ne_of_lt)

theorem insert_last {a : String} (h : ∀ e ∈ t, e.1 < a) (x : α) : t.insert a x = t ++ [(a, x)] := by
  induction t with
  | nil => rfl
  | cons e t ih =>
    obtain ⟨k, v⟩ := e
    have hk : k < a := h (k, v) List.mem_cons_self
    rw [insert_cons, if_neg (String.ne_of_lt hk), if_neg (String.lt_asymm hk),
      ih fun e he => h e (List.mem_cons_of_mem _ he), List.cons_append]

/-- A table is made of its own entries. -/
theorem ofList_eq (h : t.Sorted) : Assoc.ofList t = t := by
  suffices hs : ∀ s : Assoc α, Sorted (s ++ t) → t.foldl (fun s e => s.insert e.1 e.2) s = s ++ t from
    hs [] h
  clear h
  induction t with
  | nil => exact fun s _ => (List.append_nil s).symm
  | cons e t ih =>
    intro s h
    obtain ⟨k, v⟩ := e
    have hlast : s.insert k v = s ++ [(k, v)] := insert_last
      (fun d hd => (List.pairwise_append.mp h).2.2 d hd (k, v) List.mem_cons_self) v
    rw [List.foldl_cons, hlast, ih _ (by rwa [List.append_assoc]), List.append_assoc]
    rfl

theorem filter (h : t.Sorted) (test : String × α → Bool) : Sorted (t.filter test) :=
  List.Pairwise.filter test h

theorem erase (h : t.Sorted) (a : String) : (t.erase a).Sorted := h.filter _

theorem get?_eq_some_iff (h : t.Sorted) {a : String} {x : α} : t.get? a = some x ↔ (a, x) ∈ t := by
  induction t with
  | nil => simp
  | cons e t ih =>
    obtain ⟨k, v⟩ := e
    obtain ⟨hk, ht⟩ := List.pairwise_cons.mp h
    rw [get?, List.mem_cons]
    split
    · next hka =>
      subst hka
      refine ⟨fun hv => .inl (Prod.ext rfl (Option.some.inj hv).symm), ?_⟩
      rintro (hx | hm)
      · rw [(Prod.mk.inj hx).2]
      · exact absurd (hk _ hm) (Std.lt_irrefl)
    · next hka =>
      rw [ih ht]
      refine ⟨.inr, fun hm => hm.resolve_left fun hx => hka (Prod.mk.inj hx).1.symm⟩

/-- To put in again what a table holds changes nothing. -/
theorem insert_self (h : t.Sorted) {a : String} {x : α} (ha : t.get? a = some x) : t.insert a x = t := by
  induction t with
  | nil => cases ha
  | cons e t ih =>
    obtain ⟨k, v⟩ := e
    obtain ⟨hk, ht⟩ := List.pairwise_cons.mp h
    rw [get?] at ha
    rw [insert_cons]
    split at ha
    · next hka =>
      cases ha
      rw [if_pos hka, hka]
    · next hka =>
      have hlt : k < a := hk (a, x) (mem_of_get? ha)
      rw [if_neg hka, if_neg (String.lt_asymm hlt), ih ht ha]

theorem filter_name (h : t.Sorted) {a : String} {x : α} (ha : t.get? a = some x) :
    List.filter (fun e => e.1 = a) t = [(a, x)] := by
  induction t with
  | nil => cases ha
  | cons e t ih =>
    obtain ⟨k, v⟩ := e
    obtain ⟨hk, ht⟩ := List.pairwise_cons.mp h
    rw [get?] at ha
    split at ha
    · next hka =>
      cases ha
      subst hka
      have hrest : t.filter (fun e => e.1 = k) = [] := List.filter_eq_nil_iff.mpr fun e he =>
        by simpa using (String.ne_of_lt (hk e he)).symm
      rw [List.filter_cons_of_pos (by simp), hrest]
    · next hka => rw [List.filter_cons_of_neg (by simpa using hka), ih ht ha]

/-- What a test takes out of a table it takes out of every look at it. -/
theorem get?_filter (h : t.Sorted) (test : String × α → Bool) (a : String) :
    get? (t.filter test) a = (t.get? a).filter (fun x => test (a, x)) := by
  refine Option.ext fun x => ?_
  rw [(h.filter test).get?_eq_some_iff, List.mem_filter, Option.filter_eq_some_iff,
    h.get?_eq_some_iff]

end Sorted

end Workflow.Assoc
