import Mathlib.Data.Set.Card
import Workflow.Engine.Registry
import Workflow.Proofs.Assoc

namespace Workflow

/-- How far a run is with leaving the registry: it has not begun to, it is off the list of its trace id, or
the list is gone as well if it was empty. -/
inductive Stage where
  | listed
  | withdrawn
  | removed
  deriving DecidableEq

namespace Registry

variable {g : Registry} {t u : String} {run : Nat} {runs : List Nat} {roll : List (String × Stage)}

theorem runsOf_register : (g.register t run).runsOf u =
    if t = u then g.runsOf t ++ [run] else g.runsOf u := by
  rw [runsOf, register, Assoc.get?_insert, runsOf, runsOf]
  split <;> rfl

theorem get?_retainOthers : (g.retainOthers t run).get? u =
    if t = u then (g.get? t).map (fun runs => runs.filter (· ≠ run)) else g.get? u := by
  unfold retainOthers
  split
  · next runs hruns =>
    rw [Assoc.get?_insert, hruns]
    rfl
  · next hnone =>
    split
    · next h => rw [← h, hnone, Option.map_none]
    · rfl

theorem runsOf_retainOthers : (g.retainOthers t run).runsOf u =
    if t = u then (g.runsOf t).filter (· ≠ run) else g.runsOf u := by
  rw [runsOf, get?_retainOthers, runsOf, runsOf]
  split
  · cases g.get? t <;> rfl
  · rfl

theorem get?_dropEmpty : (g.dropEmpty t).get? u =
    if t = u ∧ g.get? t = some [] then none else g.get? u := by
  unfold dropEmpty
  split
  · next hnil =>
    rw [Assoc.get?_erase]
    simp [hnil]
  · next hne => rw [if_neg fun h => hne h.2]

theorem runsOf_dropEmpty : (g.dropEmpty t).runsOf u = g.runsOf u := by
  rw [runsOf, get?_dropEmpty, runsOf]
  split
  · next h => rw [← h.1, h.2, Option.getD_none, Option.getD_some]
  · rfl

theorem exists_of_mem_runsOf (h : run ∈ g.runsOf t) : ∃ runs, g.get? t = some runs ∧ run ∈ runs := by
  unfold runsOf at h
  cases hg : g.get? t with
  | none =>
    rw [hg] at h
    cases h
  | some runs =>
    rw [hg] at h
    exact ⟨runs, rfl, h⟩

theorem count_eq_length (g : Registry) : g.count = (g.flatMap Prod.snd).length := by
  induction g with
  | nil => rfl
  | cons e g ih =>
    rw [List.flatMap_cons, List.length_append, ← ih]
    rfl

/-- A registry keeps a roll, which tells of every run its trace id and its stage. The runs that are listed
under a trace id are those that have not begun to leave. A list that has become empty is there only while
some run is still to remove it. -/
structure Keeps (g : Registry) (roll : List (String × Stage)) : Prop where
  sorted : Assoc.Sorted g
  nodup : ∀ t, (g.runsOf t).Nodup
  lists : ∀ t run, run ∈ g.runsOf t ↔ roll[run]? = some (t, .listed)
  lingers : ∀ t, g.get? t = some [] → ∃ run : Nat, roll[run]? = some (t, .withdrawn)

namespace Keeps

theorem nil : Keeps [] [] :=
  ⟨.nil, fun _ => List.nodup_nil, fun _ _ => by simp [runsOf], fun _ h => by cases h⟩

theorem register (h : g.Keeps roll) (t : String) :
    (g.register t roll.length).Keeps (roll ++ [(t, .listed)]) := by
  have hout : ∀ u, roll.length ∉ g.runsOf u := fun u hm => by
    rw [h.lists, List.getElem?_eq_none (Nat.le_refl _)] at hm
    cases hm
  have hold : ∀ {run : Nat} {e}, roll[run]? = some e → (roll ++ [(t, .listed)])[run]? = some e :=
    fun he => by rw [List.getElem?_append_left (List.getElem?_eq_some_iff.mp he).1, he]
  refine ⟨h.sorted.insert _ _, fun u => ?_, fun u run => ?_, fun u hu => ?_⟩
  · rw [runsOf_register]
    split
    · refine List.nodup_append.mpr ⟨h.nodup t, List.nodup_singleton _, fun a ha b hb => ?_⟩
      rw [List.mem_singleton.mp hb]
      exact fun hab => hout t (hab ▸ ha)
    · exact h.nodup u
  · rw [runsOf_register]
    by_cases hrun : run = roll.length
    · subst hrun
      rw [List.getElem?_concat_length]
      by_cases htu : t = u <;> simp [htu, hout]
    · have hget : (roll ++ [(t, Stage.listed)])[run]? = roll[run]? := by
        simp only [List.getElem?_append, List.getElem?_singleton]
        split
        · rfl
        · rw [if_neg (by omega), List.getElem?_eq_none (by omega)]
      rw [hget, ← h.lists]
      by_cases htu : t = u <;> simp [htu, hrun]
  · rw [Registry.register, Assoc.get?_insert] at hu
    split at hu
    · simp at hu
    · obtain ⟨run, hrun⟩ := h.lingers u hu
      exact ⟨run, hold hrun⟩

/-- A run comes off the list of its trace id. -/
theorem withdraw (h : g.Keeps roll) (hrun : roll[run]? = some (t, .listed)) :
    (g.retainOthers t run).Keeps (roll.set run (t, .withdrawn)) := by
  have hlt := (List.getElem?_eq_some_iff.mp hrun).1
  have hself : (roll.set run (t, .withdrawn))[run]? = some (t, .withdrawn) := by simp [hlt]
  have hother : ∀ {i : Nat}, i ≠ run → (roll.set run (t, .withdrawn))[i]? = roll[i]? :=
    fun hi => List.getElem?_set_ne (Ne.symm hi)
  refine ⟨?_, fun u => ?_, fun u i => ?_, fun u hu => ?_⟩
  · unfold retainOthers
    split
    · exact h.sorted.insert _ _
    · exact h.sorted
  · rw [runsOf_retainOthers]
    split
    · exact (h.nodup t).filter _
    · exact h.nodup u
  · rw [runsOf_retainOthers]
    by_cases hi : i = run
    · subst hi
      rw [hself]
      by_cases htu : t = u
      · simp [htu]
      · simp [htu, h.lists, hrun]
    · rw [hother hi, ← h.lists]
      by_cases htu : t = u <;> simp [htu, hi]
  · by_cases htu : t = u
    · exact ⟨run, htu ▸ hself⟩
    · rw [get?_retainOthers, if_neg htu] at hu
      obtain ⟨i, hi⟩ := h.lingers u hu
      refine ⟨i, (hother fun he => ?_).trans hi⟩
      rw [he, hrun] at hi
      cases hi

/-- The list of a trace id goes, if it is empty by now. -/
theorem remove (h : g.Keeps roll) (hrun : roll[run]? = some (t, .withdrawn)) :
    (g.dropEmpty t).Keeps (roll.set run (t, .removed)) := by
  have hlt := (List.getElem?_eq_some_iff.mp hrun).1
  have hother : ∀ {i : Nat}, i ≠ run → (roll.set run (t, .removed))[i]? = roll[i]? :=
    fun hi => List.getElem?_set_ne (Ne.symm hi)
  refine ⟨?_, fun u => ?_, fun u i => ?_, fun u hu => ?_⟩
  · unfold dropEmpty
    split
    · exact h.sorted.erase t
    · exact h.sorted
  · rw [runsOf_dropEmpty]
    exact h.nodup u
  · rw [runsOf_dropEmpty, h.lists]
    by_cases hi : i = run
    · subst hi
      rw [hrun, List.getElem?_set_self hlt]
      simp
    · rw [hother hi]
  · rw [get?_dropEmpty] at hu
    split at hu
    · cases hu
    · next hne =>
      obtain ⟨i, hi⟩ := h.lingers u hu
      refine ⟨i, (hother fun he => hne ?_).trans hi⟩
      -- another run has a list of its own to remove
      rw [he, hrun] at hi
      cases hi
      exact ⟨rfl, hu⟩

/-- A run that is not listed has nothing to leave, unless another is about to remove a list. -/
theorem unregister_eq_self (h : g.Keeps roll) (hrun : roll[run]? ≠ some (t, .listed))
    (hr : ∀ e ∈ roll, e.2 ≠ .withdrawn) : g.unregister t run = g := by
  have hout : run ∉ g.runsOf t := fun hm => hrun ((h.lists t run).mp hm)
  have hretain : g.retainOthers t run = g := by
    unfold retainOthers
    split
    · next runs hruns =>
      rw [runsOf, hruns, Option.getD_some] at hout
      have hfilter : runs.filter (· ≠ run) = runs := List.filter_eq_self.mpr fun i hi =>
        decide_eq_true fun he => hout (he ▸ hi)
      rw [hfilter, h.sorted.insert_self hruns]
    · rfl
  rw [unregister, hretain, dropEmpty]
  split
  · next hnil =>
    obtain ⟨i, hi⟩ := h.lingers t hnil
    exact absurd rfl (hr _ (List.mem_of_getElem? hi))
  · rfl

/-- There are as many runs in a registry as have not begun to leave. -/
theorem count_eq (h : g.Keeps roll) :
    (g.count : ℕ∞) = {run : Nat | ∃ t, roll[run]? = some (t, .listed)}.encard := by
  have hget : ∀ e ∈ g, e.2 = g.runsOf e.1 := fun e he => by
    rw [runsOf, h.sorted.get?_eq_some_iff.mpr he, Option.getD_some]
  have hnodup : (g.flatMap Prod.snd).Nodup := by
    refine List.nodup_flatMap.mpr ⟨fun e he => hget e he ▸ h.nodup e.1, ?_⟩
    refine (List.pairwise_map.mp h.sorted.names_nodup).imp_of_mem fun {d e} hd he hne run hrun hrun' => ?_
    rw [hget d hd, h.lists] at hrun
    rw [hget e he, h.lists, hrun] at hrun'
    exact hne (by simpa using hrun')
  have hset : {run : Nat | ∃ t, roll[run]? = some (t, .listed)} = ↑(g.flatMap Prod.snd).toFinset := by
    ext run
    rw [List.coe_toFinset]
    change (∃ t, roll[run]? = some (t, .listed)) ↔ run ∈ g.flatMap Prod.snd
    rw [List.mem_flatMap]
    constructor
    · rintro ⟨t, ht⟩
      obtain ⟨runs, hruns, hm⟩ := exists_of_mem_runsOf ((h.lists t run).mpr ht)
      exact ⟨(t, runs), Assoc.mem_of_get? hruns, hm⟩
    · rintro ⟨e, he, hm⟩
      exact ⟨e.1, (h.lists e.1 run).mp (hget e he ▸ hm)⟩
  rw [hset, Set.encard_coe_eq_coe_finsetCard, List.toFinset_card_of_nodup hnodup, count_eq_length]

/-- When all runs have left, nothing is left of them. -/
theorem eq_nil (h : g.Keeps roll) (hr : ∀ e ∈ roll, e.2 = .removed) : g = [] := by
  refine List.eq_nil_iff_forall_not_mem.mpr fun ⟨t, runs⟩ he => ?_
  have hget : g.get? t = some runs := h.sorted.get?_eq_some_iff.mpr he
  cases runs with
  | nil =>
    obtain ⟨run, hrun⟩ := h.lingers t hget
    cases hr _ (List.mem_of_getElem? hrun)
  | cons run runs =>
    have hrun : run ∈ g.runsOf t := by
      rw [runsOf, hget]
      exact List.mem_cons_self
    cases hr _ (List.mem_of_getElem? ((h.lists t run).mp hrun))

end Keeps

end Registry

end Workflow
