import Workflow.Proofs.Assoc
import Workflow.Proofs.State.Calls

namespace Workflow

variable {key k : String} {now t : Nat} {v : Json} {ttl : Option Nat}

/-- Whether a value with a time to live, in milliseconds, is out of date. -/
def isOverdue (since : Nat) (ttl : Option Nat) (now : Nat) : Bool := ttl.any (fun ms => since + ms ≤ now)

/-- What is out of date stays so. -/
theorem any_le_mono {at? : Option Nat} (h : t ≤ now) (ha : at?.any (· ≤ t) = true) :
    at?.any (· ≤ now) = true := by
  cases at? with
  | none => cases ha
  | some a =>
    rw [Option.any_some, decide_eq_true_eq] at ha ⊢
    exact Nat.le_trans ha h

namespace MemoryStore

variable {s : MemoryStore}

/-- A time beyond the end of the clock is beyond every time that the clock shows. -/
theorem isExpired_expiry (h : now < TableStore.lastTime) :
    Entry.isExpired ⟨v, expiry t ttl⟩ now = isOverdue t ttl now := by
  cases ttl with
  | none => rfl
  | some ms =>
    by_cases hms : t + ms < clockEnd
    · simp [Entry.isExpired, expiry, isOverdue, Option.filter, hms]
    · have hnow : ¬ t + ms ≤ now := by
        unfold clockEnd at hms
        unfold TableStore.lastTime at h
        omega
      simp [Entry.isExpired, expiry, isOverdue, Option.filter, hms, hnow]

theorem live?_set (h : now < TableStore.lastTime) : (s.set t k v ttl).live? now key =
    if k = key then (if isOverdue t ttl now then none else some v) else s.live? now key := by
  rw [live?, set, Assoc.get?_insert]
  split
  · rw [Option.bind_some, isExpired_expiry h]
  · rfl

theorem live?_delete : (s.delete k).live? now key = if k = key then none else s.live? now key := by
  rw [live?, delete, Assoc.get?_erase]
  split <;> rfl

/-- What is expired when it is taken away could not be read later either. -/
theorem live?_removeIfExpired (h : t ≤ now) :
    (s.removeIfExpired t k).live? now key = s.live? now key := by
  unfold removeIfExpired
  split
  · next hexp =>
    rw [live?, Assoc.get?_erase]
    split
    · next heq =>
      subst heq
      cases he : Assoc.get? s k with
      | none => rw [live?, he]
      | some e =>
        rw [he, Option.any_some] at hexp
        have hlate : e.isExpired now = true := any_le_mono h hexp
        rw [live?, he, Option.bind_some, if_pos hlate, Option.bind_none]
    · rfl
  · rfl

theorem live?_purge (hs : s.Sorted) (h : t ≤ now) : (s.purge t).live? now key = s.live? now key := by
  rw [live?, purge, hs.get?_filter, live?]
  cases he : Assoc.get? s key with
  | none => rfl
  | some e =>
    cases hexp : e.isExpired t with
    | false => simp [Option.filter, hexp]
    | true =>
      have hlate : e.isExpired now = true := any_le_mono h hexp
      simp [Option.filter, hexp, hlate]

end MemoryStore

namespace TableStore

variable {s : TableStore}

/-- The last time of a row is beyond every time that the clock shows. -/
theorem isExpired_expiry {text : String} (h : now < lastTime) :
    Row.isExpired ⟨text, expiry t ttl⟩ now = isOverdue t ttl now := by
  cases ttl with
  | none => rfl
  | some ms =>
    simp only [Row.isExpired, expiry, isOverdue, Option.map_some, Option.any_some, decide_eq_decide]
    omega

theorem get_set (h : now < lastTime) (hv : Json.parse? v.compact = some v) :
    (s.set t k v ttl).get now key =
      if k = key then .ok (if isOverdue t ttl now then none else some v) else s.get now key := by
  by_cases hk : k = key
  · rw [get, set, Assoc.get?_insert, if_pos hk, if_pos hk]
    have hexp : Row.isExpired ⟨v.compact, expiry t ttl⟩ now = isOverdue t ttl now := isExpired_expiry h
    cases ho : isOverdue t ttl now <;> simp [Option.filter, hexp, ho, hv]
  · rw [get, set, Assoc.get?_insert, if_neg hk, if_neg hk, ← get]

theorem get_delete : (s.delete k).get now key = if k = key then .ok none else s.get now key := by
  by_cases hk : k = key
  · rw [get, delete, Assoc.get?_erase, if_pos hk, if_pos hk]
    rfl
  · rw [get, delete, Assoc.get?_erase, if_neg hk, if_neg hk, ← get]

theorem get_purge (hs : s.Sorted) (h : t ≤ now) : (s.purge t).get now key = s.get now key := by
  rw [get, purge, hs.get?_filter, get]
  cases he : Assoc.get? s key with
  | none => rfl
  | some r =>
    cases hexp : r.isExpired t with
    | false => simp [Option.filter, hexp]
    | true =>
      have hlate : r.isExpired now = true := any_le_mono h hexp
      simp [Option.filter, hexp, hlate]

end TableStore

namespace Store

variable {s : Store}

/-- What a store gives for a key at a time. -/
def read (s : Store) (now : Nat) (key : String) : Except StoreError (Option Json) := (s.get now key).1

/-- No key stands in a store twice. -/
def Sorted : Store → Prop
  | memory s => Assoc.Sorted s
  | table s => Assoc.Sorted s

theorem read_set (h : now < TableStore.lastTime) (hv : Json.parse? v.compact = some v) :
    (s.set t k v ttl).read now key =
      if k = key then .ok (if isOverdue t ttl now then none else some v) else s.read now key := by
  cases s with
  | memory s =>
    refine (congrArg Except.ok (MemoryStore.live?_set h)).trans ?_
    split <;> rfl
  | table s => exact TableStore.get_set h hv

theorem read_delete : (s.delete k).read now key = if k = key then .ok none else s.read now key := by
  cases s with
  | memory s =>
    refine (congrArg Except.ok MemoryStore.live?_delete).trans ?_
    split <;> rfl
  | table s => exact TableStore.get_delete

/-- Reading takes away only what could not be read later. -/
theorem read_get (h : t ≤ now) : (s.get t k).2.read now key = s.read now key := by
  cases s with
  | memory s => exact congrArg Except.ok (MemoryStore.live?_removeIfExpired h)
  | table s => rfl

/-- Sweeping takes away only what could not be read later. -/
theorem read_purge (hs : s.Sorted) (h : t ≤ now) : (s.purge t).read now key = s.read now key := by
  cases s with
  | memory s => exact congrArg Except.ok (MemoryStore.live?_purge hs h)
  | table s => exact TableStore.get_purge hs h

/-- Do what is asked: the answer, if it is a read, and the store from then on. -/
def answer (s : Store) (c : Nat × StoreCall) : Option (Except StoreError (Option Json)) × Store :=
  match c with
  | (now, .set key v ttlSecs) => (none, s.set now key v (ttlSecs.map (1000 * ·)))
  | (now, .get key) => (some (s.get now key).1, (s.get now key).2)
  | (_, .delete key) => (none, s.delete key)
  | (now, .purge) => (none, s.purge now)

/-- A store after calls. -/
def after (s : Store) (h : Calls) : Store := h.foldl (fun s c => (s.answer c).2) s

/-- The answers to the reads among calls. -/
def answers (s : Store) : Calls → List (Except StoreError (Option Json))
  | [] => []
  | c :: h => (s.answer c).1.toList ++ (s.answer c).2.answers h

theorem Sorted.answer (h : s.Sorted) (c : Nat × StoreCall) : (s.answer c).2.Sorted := by
  obtain ⟨t, c⟩ := c
  cases s with
  | memory s =>
    cases c with
    | set key v ttlSecs => exact Assoc.Sorted.insert h _ _
    | get key =>
      show Assoc.Sorted (s.removeIfExpired t key)
      unfold MemoryStore.removeIfExpired
      split
      · exact Assoc.Sorted.erase h key
      · exact h
    | delete key => exact Assoc.Sorted.erase h key
    | purge => exact Assoc.Sorted.filter h _
  | table s =>
    cases c with
    | set key v ttlSecs => exact Assoc.Sorted.insert h _ _
    | get key => exact h
    | delete key => exact Assoc.Sorted.erase h key
    | purge => exact Assoc.Sorted.filter h _

/-- From a time on a store gives for every key what calls left there. -/
structure Keeps (s : Store) (h : Calls) (since : Nat) : Prop where
  sorted : s.Sorted
  read : ∀ key now, since ≤ now → now < TableStore.lastTime →
    ∃ held, s.read now key = .ok held ∧ ∀ v, held = some v ↔ h.Holds key now v

namespace Keeps

variable {h : Calls} {since : Nat}

theorem of_isEmpty (hs : s = memory [] ∨ s = table []) : s.Keeps [] 0 := by
  have hnone : ∀ key now v, ¬ Calls.Holds [] key now v := by
    rintro key now v ⟨since, ttlSecs, ⟨before, after, heq, _⟩, _⟩
    simp at heq
  rcases hs with rfl | rfl
  all_goals exact ⟨Assoc.Sorted.nil, fun key now _ _ =>
    ⟨none, rfl, fun v => iff_of_false (by simp) (hnone key now v)⟩⟩

/-- A call that does not write a key leaves what is read there as it was. -/
theorem read_of_not_writes {c : StoreCall} (hs : s.Sorted) (hc : ¬ c.Writes key)
    (hv : ∀ key v ttlSecs, c = .set key v ttlSecs → Json.parse? v.compact = some v)
    (ht : t ≤ now) (hnow : now < TableStore.lastTime) :
    (s.answer (t, c)).2.read now key = s.read now key := by
  cases c with
  | set k v ttlSecs => exact (read_set hnow (hv k v ttlSecs rfl)).trans (if_neg hc)
  | get k => exact read_get ht
  | delete k => exact read_delete.trans (if_neg hc)
  | purge => exact read_purge hs ht

/-- The step: of all keys a call changes at most the one that it writes. -/
theorem answer (hk : s.Keeps h since) {c : StoreCall} (ht : since ≤ t)
    (hv : ∀ key v ttlSecs, c = .set key v ttlSecs → Json.parse? v.compact = some v) :
    (s.answer (t, c)).2.Keeps (h ++ [(t, c)]) t := by
  refine ⟨hk.sorted.answer _, fun key now hnow hend => ?_⟩
  by_cases hc : c.Writes key
  · cases c with
    | get _ | purge => exact absurd hc id
    | set k v ttlSecs =>
      refine ⟨_, (read_set hend (hv k v ttlSecs rfl)).trans (if_pos hc), fun w => ?_⟩
      rw [Calls.holds_concat_set hc]
      cases ttlSecs with
      | none => simp [isOverdue]
      | some secs =>
        simp only [isOverdue, Option.map_some, Option.any_some, decide_eq_true_eq, Option.some.injEq]
        by_cases hd : t + 1000 * secs ≤ now
        · simp [hd]
        · simp [hd]
          omega
    | delete k =>
      refine ⟨none, read_delete.trans (if_pos hc), fun w => ?_⟩
      exact iff_of_false (by simp) (Calls.not_holds_concat_delete hc)
  · obtain ⟨held, hread, hheld⟩ := hk.read key now (Nat.le_trans ht hnow) hend
    refine ⟨held, (read_of_not_writes hk.sorted hc hv hnow hend).trans hread, fun w => ?_⟩
    rw [hheld, Calls.holds_concat_of_not_writes hc]

/-- The run: after any calls an empty store gives for every key what they left there. -/
theorem of_after {empty : Store} (hs : empty = memory [] ∨ empty = table []) (hh : h.Timely)
    (hl : ∀ c ∈ h, c.1 ≤ t) : (empty.after h).Keeps h t := by
  induction h using List.reverseRecOn generalizing t with
  | nil =>
    have hk := of_isEmpty hs
    exact ⟨hk.sorted, fun key now _ => hk.read key now (Nat.zero_le now)⟩
  | append_singleton h c ih =>
    obtain ⟨hord, hin, hread⟩ := hh
    obtain ⟨hord, _, hlast⟩ := List.pairwise_append.mp hord
    have hk := ih ⟨hord, fun d hd => hin d (List.mem_append_left _ hd),
      fun d hd => hread d (List.mem_append_left _ hd)⟩ fun d hd => hlast d hd c List.mem_cons_self
    have hc : c ∈ h ++ [c] := List.mem_append_right _ List.mem_cons_self
    have hstep := hk.answer (Nat.le_refl c.1) (hread c hc)
    rw [after, List.foldl_append]
    exact ⟨hstep.sorted, fun key now hnow => hstep.read key now (Nat.le_trans (hl c hc) hnow)⟩

end Keeps

theorem answers_concat (s : Store) (h : Calls) (c : Nat × StoreCall) :
    s.answers (h ++ [c]) = s.answers h ++ ((s.after h).answer c).1.toList := by
  induction h generalizing s with
  | nil => simp [answers, after]
  | cons d h ih => rw [List.cons_append, answers, ih, answers, List.append_assoc]; rfl

end Store

namespace Calls

variable {h : Calls}

theorem Timely.of_append {after : Calls} (hh : (h ++ after).Timely) : h.Timely :=
  ⟨(List.pairwise_append.mp hh.ordered).1, fun c hc => hh.inTime c (List.mem_append_left _ hc),
    fun c hc => hh.readable c (List.mem_append_left _ hc)⟩

theorem Timely.writes (hh : h.Timely) : h.writes.Timely :=
  ⟨hh.ordered.filter _, fun c hc => hh.inTime c ((List.mem_filter.mp hc).1),
    fun c hc => hh.readable c ((List.mem_filter.mp hc).1)⟩

end Calls

namespace Store

/-- A read gives what the calls before it left under its key, whichever store it is, and also when of
these calls only those that write are made. -/
theorem read_after {h : Calls} (hh : Calls.Timely (h ++ [(now, .get key)])) :
    ∃ held, (∀ v, held = some v ↔ h.Holds key now v) ∧
      ∀ empty, empty = memory [] ∨ empty = table [] →
        (empty.after h).read now key = .ok held ∧ (empty.after h.writes).read now key = .ok held := by
  have hnow : now < TableStore.lastTime := hh.inTime _ (List.mem_append_right _ List.mem_cons_self)
  have hl : ∀ c ∈ h, c.1 ≤ now := fun c hc =>
    (List.pairwise_append.mp hh.ordered).2.2 c hc _ List.mem_cons_self
  have hread : ∀ {empty : Store}, empty = memory [] ∨ empty = table [] → ∃ held,
      (empty.after h).read now key = .ok held ∧ ∀ v, held = some v ↔ h.Holds key now v := fun hs =>
    (Keeps.of_after hs hh.of_append hl).read key now (Nat.le_refl now) hnow
  obtain ⟨held, -, hheld⟩ := hread (.inl rfl)
  refine ⟨held, hheld, fun empty hs => ⟨?_, ?_⟩⟩
  · obtain ⟨held', hr, hheld'⟩ := hread hs
    rw [hr, Option.ext fun v => (hheld' v).trans (hheld v).symm]
  · obtain ⟨held', hr, hheld'⟩ := (Keeps.of_after hs hh.of_append.writes fun c hc =>
      hl c ((List.mem_filter.mp hc).1)).read key now (Nat.le_refl now) hnow
    rw [hr, Option.ext fun v => (hheld' v).trans (Calls.holds_writes_iff.trans (hheld v).symm)]

/-- Both stores answer all reads alike: a key holds the value that it was set to last, unless it was
deleted since or its time to live is over. Earlier reads and sweeps change no answer. -/
theorem stores_agree {h : Calls} (hh : h.Timely) :
    (memory []).answers h = (table []).answers h ∧
      ∀ before now key after, h = before ++ (now, .get key) :: after →
        ∃ held, (∀ v, held = some v ↔ before.Holds key now v) ∧
          ∀ empty, empty = memory [] ∨ empty = table [] →
            (empty.after before).read now key = .ok held ∧
              (empty.after before.writes).read now key = .ok held := by
  constructor
  · induction h using List.reverseRecOn with
    | nil => rfl
    | append_singleton h c ih =>
      rw [answers_concat, answers_concat, ih hh.of_append]
      obtain ⟨now, c⟩ := c
      cases c with
      | get key =>
        obtain ⟨held, _, hread⟩ := read_after hh
        exact congrArg (_ ++ [·]) ((hread _ (.inl rfl)).1.trans (hread _ (.inr rfl)).1.symm)
      | set _ _ _ | delete _ | purge => rfl
  · rintro before now key after rfl
    rw [List.append_cons] at hh
    exact read_after hh.of_append

/-- One key keeps its value although its time to live is more than either clock can count; another one
loses it at the very millisecond, and gets a new one to keep. -/
def visits : Calls :=
  [(0, .set "kept" (.bool true) (some (Number.word64 - 1))), (5, .set "short" .null (some 1)),
    (1004, .get "short"), (1005, .get "short"), (1005, .purge), (2000, .set "short" (.bool false) none),
    (9000, .get "short"), (9000, .get "kept"), (9001, .delete "kept"), (9001, .get "kept")]

theorem stores_agree_visits : visits.Timely ∧ (memory []).answers visits = (table []).answers visits ∧
    (memory []).answers visits =
      [.ok (some .null), .ok none, .ok (some (.bool false)), .ok (some (.bool true)), .ok none] := by
  have hh : visits.Timely := by
    refine ⟨by decide, by decide, fun c hc key v ttlSecs heq => ?_⟩
    simp only [visits, List.mem_cons, List.not_mem_nil, or_false] at hc
    rcases hc with rfl | rfl | rfl | rfl | rfl | rfl | rfl | rfl | rfl | rfl <;> cases heq <;> rfl
  exact ⟨hh, (stores_agree hh).1, rfl⟩

end Store

end Workflow
