import Mathlib.Data.Set.Card
import Workflow.Engine.Permits

namespace Workflow

/-- How one stands to permits: without one and not asking, waiting for one, or with one. -/
inductive Standing where
  | outside
  | waiting
  | inside
  deriving DecidableEq

namespace Permits

variable {κ : Type} {p q : Permits κ} {cap : Nat} {st st' : κ → Standing}
variable {who next : κ}

/-- Of so many permits each is free or with one who is inside. Those who wait are in line, each once, and
no permit is free while there is a line. -/
structure Balanced (p : Permits κ) (cap : Nat) (st : κ → Standing) : Prop where
  inside : ∃ holders : Finset κ, (∀ k, k ∈ holders ↔ st k = .inside) ∧ p.free + holders.card = cap
  waiting : ∀ k, k ∈ p.waiting ↔ st k = .waiting
  nodup : p.waiting.Nodup
  full : p.waiting ≠ [] → p.free = 0

namespace Balanced

theorem new (cap : Nat) (h : ∀ k, st k = .outside) : Balanced ⟨cap, []⟩ cap st := by
  refine ⟨⟨∅, fun k => ?_, rfl⟩, fun k => ?_, List.nodup_nil, fun h => absurd rfl h⟩
  · simp [h]
  · simp [h]

theorem congr (h : p.Balanced cap st) (hst : ∀ k, st' k = st k) : p.Balanced cap st' :=
  (funext hst : st' = st) ▸ h

/-- As many permits are free or with someone inside as there are. -/
theorem encard (h : p.Balanced cap st) : (p.free : ℕ∞) + {k | st k = .inside}.encard = cap := by
  obtain ⟨holders, hmem, hcard⟩ := h.inside
  have hset : {k | st k = .inside} = ↑holders := Set.ext fun k => (hmem k).symm
  rw [hset, Set.encard_coe_eq_coe_finsetCard, ← hcard, Nat.cast_add]

theorem encard_le (h : p.Balanced cap st) : {k | st k = .inside}.encard ≤ cap :=
  h.encard ▸ le_add_self

/-- When all have left, all permits are free again. -/
theorem eq_new (h : p.Balanced cap st) (hst : ∀ k, st k = .outside) : p = ⟨cap, []⟩ := by
  obtain ⟨holders, hmem, hcard⟩ := h.inside
  have hnone : holders = ∅ := Finset.eq_empty_of_forall_notMem fun k hk => by
    cases (hst k).symm.trans ((hmem k).mp hk)
  have hline : p.waiting = [] := List.eq_nil_iff_forall_not_mem.mpr fun k hk => by
    cases (hst k).symm.trans ((h.waiting k).mp hk)
  rw [hnone, Finset.card_empty, Nat.add_zero] at hcard
  rw [← hcard, ← hline]

/-- While someone waits, someone is inside. -/
theorem exists_inside (h : p.Balanced cap st) (hcap : 0 < cap) (hw : st who = .waiting) :
    ∃ k, st k = .inside := by
  obtain ⟨holders, hmem, hcard⟩ := h.inside
  have hfree : p.free = 0 := h.full (List.ne_nil_of_mem ((h.waiting who).mpr hw))
  have hpos : 0 < holders.card := by omega
  obtain ⟨k, hk⟩ := Finset.card_pos.mp hpos
  exact ⟨k, (hmem k).mp hk⟩

variable [DecidableEq κ]

theorem acquire_taken (h : p.Balanced cap st) (hw : st who = .outside)
    (hq : p.acquire who = (true, q)) : q.Balanced cap (Function.update st who .inside) := by
  obtain ⟨holders, hmem, hcard⟩ := h.inside
  cases hfree : p.free with
  | zero => simp [acquire, hfree] at hq
  | succ n =>
    have hq' : q = { p with free := n } := by simpa [acquire, hfree, eq_comm] using hq
    have hnil : p.waiting = [] := by
      by_contra hne
      exact absurd (hfree.symm.trans (h.full hne)) (Nat.succ_ne_zero n)
    subst hq'
    refine ⟨⟨insert who holders, fun k => ?_, ?_⟩, fun k => ?_, h.nodup, fun hne => absurd hnil hne⟩
    · by_cases hk : k = who
      · simp [hk]
      · simp [hk, hmem]
    · have hout : who ∉ holders := fun hin => by cases hw.symm.trans ((hmem who).mp hin)
      rw [Finset.card_insert_of_notMem hout]
      dsimp only
      omega
    · by_cases hk : k = who
      · simp [hk, hnil]
      · simp [hk, h.waiting]

theorem acquire_queued (h : p.Balanced cap st) (hw : st who = .outside)
    (hq : p.acquire who = (false, q)) : q.Balanced cap (Function.update st who .waiting) := by
  obtain ⟨holders, hmem, hcard⟩ := h.inside
  cases hfree : p.free with
  | succ n => simp [acquire, hfree] at hq
  | zero =>
    have hq' : q = { p with waiting := p.waiting ++ [who] } := by
      simpa [acquire, hfree, eq_comm] using hq
    subst hq'
    refine ⟨⟨holders, fun k => ?_, hcard⟩, fun k => ?_, ?_, fun _ => hfree⟩
    · by_cases hk : k = who
      · simp [hk, hmem, hw]
      · simp [hk, hmem]
    · by_cases hk : k = who
      · simp [hk]
      · simp [hk, h.waiting]
    · have hout : who ∉ p.waiting := fun hin => by cases hw.symm.trans ((h.waiting who).mp hin)
      exact List.nodup_append.mpr ⟨h.nodup, List.nodup_singleton who, fun a ha b hb => by
        rw [List.mem_singleton.mp hb]
        exact fun hab => hout (hab ▸ ha)⟩

theorem release_none (h : p.Balanced cap st) (hw : st who = .inside) (hq : p.release = (none, q)) :
    q.Balanced cap (Function.update st who .outside) := by
  obtain ⟨holders, hmem, hcard⟩ := h.inside
  have hin : who ∈ holders := (hmem who).mpr hw
  cases hline : p.waiting with
  | cons first rest => simp [release, hline] at hq
  | nil =>
    have hq' : q = { p with free := p.free + 1 } := by simpa [release, hline, eq_comm] using hq
    subst hq'
    refine ⟨⟨holders.erase who, fun k => ?_, ?_⟩, fun k => ?_, h.nodup, fun hne => absurd hline hne⟩
    · by_cases hk : k = who
      · simp [hk]
      · simp [hk, hmem]
    · have hsub := Finset.card_erase_add_one hin
      dsimp only
      omega
    · by_cases hk : k = who
      · simp [hk, hline]
      · simp [hk, h.waiting]

/-- A permit that is given back goes to the first in line. -/
theorem release_some (h : p.Balanced cap st) (hw : st who = .inside)
    (hq : p.release = (some next, q)) : st next = .waiting ∧
      q.Balanced cap (Function.update (Function.update st who .outside) next .inside) := by
  obtain ⟨holders, hmem, hcard⟩ := h.inside
  have hin : who ∈ holders := (hmem who).mpr hw
  cases hline : p.waiting with
  | nil => simp [release, hline] at hq
  | cons first rest =>
    obtain ⟨rfl, rfl⟩ : next = first ∧ q = { p with waiting := rest } := by
      simpa [release, hline, eq_comm] using hq
    have hwaits : st next = .waiting := (h.waiting next).mp (hline ▸ List.mem_cons_self)
    obtain ⟨hnext, hrest⟩ := List.nodup_cons.mp (hline ▸ h.nodup)
    have hout : next ∉ holders := fun hn => by cases hwaits.symm.trans ((hmem next).mp hn)
    have hne : next ≠ who := fun he => hout (he ▸ hin)
    refine ⟨hwaits, ⟨insert next (holders.erase who), fun k => ?_, ?_⟩, fun k => ?_, hrest,
      fun _ => h.full (hline ▸ List.cons_ne_nil next rest)⟩
    · by_cases hk : k = next
      · simp [hk]
      · by_cases hk' : k = who
        · simp [hk', hne.symm]
        · simp [hk, hk', hmem]
    · have hsub := Finset.card_erase_add_one hin
      rw [Finset.card_insert_of_notMem fun hn => hout (Finset.mem_of_mem_erase hn)]
      dsimp only
      omega
    · by_cases hk : k = next
      · simp [hk, hnext]
      · have hmem' := h.waiting k
        rw [hline, List.mem_cons, or_iff_right hk] at hmem'
        by_cases hk' : k = who
        · have hnot : who ∉ rest := fun hr => by cases hw.symm.trans (hk' ▸ hmem'.mp (hk' ▸ hr))
          simp [hk', hne.symm, hnot]
        · simp [hk, hk', hmem']

theorem leave (h : p.Balanced cap st) (hw : st who = .waiting) :
    (p.leave who).Balanced cap (Function.update st who .outside) := by
  obtain ⟨holders, hmem, hcard⟩ := h.inside
  refine ⟨⟨holders, fun k => ?_, hcard⟩, fun k => ?_, h.nodup.filter _, fun hne => h.full ?_⟩
  · by_cases hk : k = who
    · simp [hk, hmem, hw]
    · simp [hk, hmem]
  · by_cases hk : k = who
    · simp [Permits.leave, hk]
    · simp [Permits.leave, hk, h.waiting]
  · rintro hnil
    exact hne (by rw [Permits.leave, hnil, List.filter_nil])

end Balanced

end Permits

end Workflow
