import Mathlib.Data.List.Induction
import Workflow.State.Store

namespace Workflow

/-- What can be asked of a store. Times to live are whole seconds. -/
inductive StoreCall where
  | set (key : String) (value : Json) (ttlSecs : Option Nat)
  | get (key : String)
  | delete (key : String)
  | purge

namespace StoreCall

/-- Whether a call decides what stands under a key from then on. -/
def Writes (c : StoreCall) (key : String) : Prop :=
  match c with
  | set k _ _ => k = key
  | delete k => k = key
  | get _ => False
  | purge => False

def isWrite : StoreCall → Bool
  | set _ _ _ => true
  | delete _ => true
  | get _ => false
  | purge => false

theorem not_writes_of_isWrite_eq_false {c : StoreCall} {key : String} (h : c.isWrite = false) :
    ¬ c.Writes key := by
  cases c with
  | get _ | purge => exact id
  | set _ _ _ | delete _ => cases h

end StoreCall

/-- Calls with their times, in the order in which they are made. -/
abbrev Calls := List (Nat × StoreCall)

namespace Calls

/-- The last call that writes a key sets it. -/
def LastSet (h : Calls) (key : String) (since : Nat) (v : Json) (ttlSecs : Option Nat) : Prop :=
  ∃ before after, h = before ++ (since, .set key v ttlSecs) :: after ∧ ∀ c ∈ after, ¬ c.2.Writes key

/-- What a key holds at a time: the value that it was set to last, until its time to live is over. -/
def Holds (h : Calls) (key : String) (now : Nat) (v : Json) : Prop :=
  ∃ since ttlSecs, h.LastSet key since v ttlSecs ∧ ∀ secs, ttlSecs = some secs → now < since + 1000 * secs

/-- Calls come one after the other, while the clocks run, and the values that they set can be read back
from their texts. -/
structure Timely (h : Calls) : Prop where
  ordered : h.Pairwise (fun c d => c.1 ≤ d.1)
  inTime : ∀ c ∈ h, c.1 < TableStore.lastTime
  readable : ∀ c ∈ h, ∀ key v ttlSecs, c.2 = .set key v ttlSecs → Json.parse? v.compact = some v

variable {h : Calls} {c : Nat × StoreCall} {key : String} {now since : Nat} {v : Json}
variable {ttlSecs : Option Nat}

theorem lastSet_concat_iff : LastSet (h ++ [c]) key since v ttlSecs ↔
    c = (since, .set key v ttlSecs) ∨ ¬ c.2.Writes key ∧ h.LastSet key since v ttlSecs := by
  constructor
  · rintro ⟨before, after, heq, hafter⟩
    rcases List.eq_nil_or_concat after with rfl | ⟨after, d, rfl⟩
    · exact .inl (List.append_inj_right' heq rfl |> List.singleton_inj.mp)
    · rw [List.concat_eq_append, ← List.cons_append, ← List.append_assoc] at heq
      obtain ⟨rfl, hd⟩ := List.append_inj' heq rfl
      obtain rfl := List.singleton_inj.mp hd
      rw [List.concat_eq_append] at hafter
      exact .inr ⟨hafter c (List.mem_append_right _ List.mem_cons_self),
        before, after, rfl, fun e he => hafter e (List.mem_append_left _ he)⟩
  · rintro (rfl | ⟨hc, before, after, rfl, hafter⟩)
    · exact ⟨h, [], rfl, fun e he => absurd he List.not_mem_nil⟩
    · refine ⟨before, after ++ [c], by simp, fun e he => ?_⟩
      rcases List.mem_append.mp he with he | he
      · exact hafter e he
      · exact List.mem_singleton.mp he ▸ hc

theorem holds_concat_set {k : String} {w : Json} (hk : k = key) :
    Holds (h ++ [(since, .set k w ttlSecs)]) key now v ↔
      w = v ∧ ∀ secs, ttlSecs = some secs → now < since + 1000 * secs := by
  subst hk
  constructor
  · rintro ⟨since', ttlSecs', hl, hnow⟩
    rcases lastSet_concat_iff.mp hl with heq | ⟨hne, _⟩
    · cases heq
      exact ⟨rfl, hnow⟩
    · exact absurd rfl hne
  · rintro ⟨rfl, hnow⟩
    exact ⟨since, ttlSecs, lastSet_concat_iff.mpr (.inl rfl), hnow⟩

theorem not_holds_concat_delete {k : String} (hk : k = key) :
    ¬ Holds (h ++ [(since, .delete k)]) key now v := by
  rintro ⟨since', ttlSecs', hl, _⟩
  rcases lastSet_concat_iff.mp hl with heq | ⟨hne, _⟩
  · cases heq
  · exact hne hk

theorem holds_concat_of_not_writes (hc : ¬ c.2.Writes key) :
    Holds (h ++ [c]) key now v ↔ h.Holds key now v := by
  refine exists_congr fun since => exists_congr fun ttlSecs => and_congr_left fun _ => ?_
  rw [lastSet_concat_iff]
  refine ⟨fun hl => (hl.resolve_left ?_).2, fun hl => .inr ⟨hc, hl⟩⟩
  rintro rfl
  exact hc rfl

/-- The calls that write. -/
def writes (h : Calls) : Calls := h.filter (fun c => c.2.isWrite)

theorem lastSet_writes_iff : h.writes.LastSet key since v ttlSecs ↔ h.LastSet key since v ttlSecs := by
  induction h using List.reverseRecOn with
  | nil => rfl
  | append_singleton h c ih =>
    rw [writes, List.filter_append, List.filter_cons, List.filter_nil, ← writes]
    cases hw : c.2.isWrite with
    | true => rw [if_pos rfl, lastSet_concat_iff, lastSet_concat_iff, ih]
    | false =>
      rw [if_neg Bool.false_ne_true, List.append_nil, ih, lastSet_concat_iff, or_iff_right,
        and_iff_right (StoreCall.not_writes_of_isWrite_eq_false hw)]
      rintro rfl
      cases hw

/-- Reads and sweeps have no part in what a key holds. -/
theorem holds_writes_iff : h.writes.Holds key now v ↔ h.Holds key now v :=
  exists_congr fun _ => exists_congr fun _ => and_congr_left fun _ => lastSet_writes_iff

end Calls

end Workflow
