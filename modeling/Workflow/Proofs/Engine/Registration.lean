import Workflow.Proofs.Engine.Limits
import Workflow.Proofs.Engine.Presence

namespace Workflow

variable {μ : Type}

/-- What cancellation knows of a run: its trace id, and whether it was cancelled. -/
def Run.notice (r : Run μ) : String × Bool := (r.context.traceId, r.cancelled)

namespace Schedule

variable {s t : Schedule μ} {run : Nat} {f : Run μ → Run μ} {traceId : String}

def traceIds (s : Schedule μ) : List String := s.runs.map fun r => r.context.traceId

def notices (s : Schedule μ) : List (String × Bool) := s.runs.map Run.notice

theorem notices_change {g : String × Bool → String × Bool} (h : ∀ r, (f r).notice = g r.notice) :
    (s.change run f).notices = s.notices.modify run g := by
  refine List.ext_getElem? fun j => ?_
  simp only [notices, change, List.getElem?_map, List.getElem?_modify]
  cases s.runs[j]? with
  | none => rfl
  | some r => by_cases hj : run = j <;> simp [hj, h]

theorem notices_change_same (h : ∀ r, (f r).notice = r.notice) : (s.change run f).notices = s.notices := by
  rw [notices_change (g := id) h, List.modify_id]

theorem notices_wake (job : Job) : (s.wake job).notices = s.notices := by
  unfold wake
  split <;> rfl

theorem notices_stopNodes (run : Nat) : (s.stopNodes run).notices = s.notices := by
  unfold stopNodes
  split
  · rfl
  · split
    · rfl
    · exact List.foldlRecOn (motive := fun t : Schedule μ => t.notices = s.notices) _ _
        (notices_change_same fun _ => rfl) fun t ht j _ => (notices_wake _).trans ht

/-- The runs that are listed under a trace id are cancelled, and no others. -/
theorem notices_cancel (s : Schedule μ) (traceId : String) (run : Nat) :
    (s.cancel traceId).2.notices[run]? = (s.notices[run]?).map (fun notice =>
      (notice.1, notice.2 || decide (run ∈ s.registry.runsOf traceId))) := by
  unfold cancel
  dsimp only
  generalize s.registry.runsOf traceId = runs
  induction runs generalizing s with
  | nil => simp
  | cons i runs ih =>
    rw [List.foldl_cons, ih]
    split
    · next hcancelled =>
      cases hrun : s.runs[run]? with
      | none => simp [notices, hrun]
      | some r =>
        by_cases hi : run = i
        · have hc : r.cancelled = true := by simpa [← hi, hrun] using hcancelled
          simp [notices, hrun, Run.notice, hc]
        · simp [notices, hrun, hi]
    · rw [notices_wake, notices_change (g := fun notice => (notice.1, true)) fun _ => rfl, notices_stopNodes,
        List.getElem?_modify]
      cases s.notices[run]? with
      | none => rfl
      | some notice => by_cases hi : i = run <;> simp [hi, Ne.symm]

/-- How runs come and go, with the roll of them, in steps of any order. A run that is put under way is
listed. It leaves in two steps, and others may have theirs in between. Runs are cancelled by their trace
ids, and whatever else happens leaves the registry alone. -/
inductive Rolled : Schedule μ → List (String × Stage) → Prop
  | opened {s : Schedule μ} (hr : s.runs = []) (hg : s.registry = []) : Rolled s []
  | enrol {s : Schedule μ} {roll : List (String × Stage)} (h : Rolled s roll) (r : Run μ) :
      Rolled (s.enrol r).2 (roll ++ [(r.context.traceId, .listed)])
  | withdraw {s : Schedule μ} {roll : List (String × Stage)} {run : Nat} {traceId : String}
      (h : Rolled s roll) (hrun : roll[run]? = some (traceId, .listed)) :
      Rolled { s with registry := s.registry.retainOthers traceId run } (roll.set run (traceId, .withdrawn))
  | remove {s : Schedule μ} {roll : List (String × Stage)} {run : Nat} {traceId : String}
      (h : Rolled s roll) (hrun : roll[run]? = some (traceId, .withdrawn)) :
      Rolled { s with registry := s.registry.dropEmpty traceId } (roll.set run (traceId, .removed))
  | cancel {s : Schedule μ} {roll : List (String × Stage)} (h : Rolled s roll) (traceId : String) :
      Rolled (s.cancel traceId).2 roll
  | other {s t : Schedule μ} {roll : List (String × Stage)} (h : Rolled s roll)
      (hg : t.registry = s.registry)
      (ht : t.traceIds = s.traceIds) : Rolled t roll

/-- What a registry tells of the runs on a roll. A run that has not begun to leave is found under its trace
id, and is cancelled by it; no other run is. As many are counted as have not begun to leave, and when all
have left nothing is left of them. -/
structure Tracks (s : Schedule μ) (roll : List (String × Stage)) : Prop where
  traceIds : s.traceIds = roll.map Prod.fst
  listed : ∀ traceId run, run ∈ s.registry.runsOf traceId ↔ roll[run]? = some (traceId, .listed)
  found : ∀ traceId, (s.cancel traceId).1 = true ↔ ∃ run : Nat, roll[run]? = some (traceId, .listed)
  cancelled : ∀ traceId (run : Nat) r, s.runs[run]? = some r →
    ∃ r', (s.cancel traceId).2.runs[run]? = some r' ∧
      (r'.cancelled = true ↔ r.cancelled = true ∨ roll[run]? = some (traceId, .listed))
  active : (s.registry.count : ℕ∞) = {run : Nat | ∃ traceId, roll[run]? = some (traceId, .listed)}.encard
  empty : (∀ e ∈ roll, e.2 = .removed) → s.registry = []

theorem traceIds_eq_map (s : Schedule μ) : s.traceIds = s.roll.map Prod.fst := by
  rw [Schedule.roll, List.map_map]
  rfl

theorem Quiet.traceIds (h : Quiet s t) : t.traceIds = s.traceIds := by
  rw [traceIds_eq_map, traceIds_eq_map, h.roll]

theorem map_fst_set {roll : List (String × Stage)} {stage : Stage}
    (h : roll[run]? = some (traceId, stage)) (stage' : Stage) :
    (roll.set run (traceId, stage')).map Prod.fst = roll.map Prod.fst := by
  refine List.ext_getElem? fun j => ?_
  rw [List.getElem?_map, List.getElem?_map, List.getElem?_set]
  split
  · next hj =>
    subst hj
    rw [if_pos (List.getElem?_eq_some_iff.mp h).1, h]
    rfl
  · rfl

namespace Rolled

variable {roll : List (String × Stage)}

theorem traceIds_eq (h : Rolled s roll) : s.traceIds = roll.map Prod.fst := by
  induction h with
  | opened hr hg =>
    rw [Schedule.traceIds, hr]
    rfl
  | enrol h r ih =>
    rw [List.map_append, ← ih]
    exact List.map_append
  | withdraw h hrun ih | remove h hrun ih => exact ih.trans (map_fst_set hrun _).symm
  | cancel h traceId ih => exact ((Quiet.refl _).cancel traceId).traceIds.trans ih
  | other h hg ht ih => exact ht.trans ih

theorem keeps (h : Rolled s roll) : s.registry.Keeps roll := by
  induction h with
  | opened hr hg =>
    rw [hg]
    exact .nil
  | @enrol s roll h r ih =>
    have hlen : s.runs.length = roll.length := by
      simpa [Schedule.traceIds] using congrArg List.length h.traceIds_eq
    have hregister := ih.register r.context.traceId
    rw [← hlen] at hregister
    exact hregister
  | withdraw h hrun ih => exact ih.withdraw hrun
  | remove h hrun ih => exact ih.remove hrun
  | @cancel s roll h traceId ih =>
    rw [((Quiet.refl s).cancel traceId).registry]
    exact ih
  | other h hg ht ih =>
    rw [hg]
    exact ih

end Rolled

/-- However runs come and go, the registry tells of them rightly. -/
theorem Rolled.tracks {roll : List (String × Stage)} (h : Rolled s roll) : Tracks s roll := by
  have hk := h.keeps
  refine ⟨h.traceIds_eq, hk.lists, fun traceId => ?_, fun traceId run r hr => ?_, hk.count_eq, hk.eq_nil⟩
  · simp only [← hk.lists]
    rw [Schedule.cancel, Bool.not_eq_true', List.isEmpty_eq_false_iff_exists_mem]
  · have hnotice : s.notices[run]? = some r.notice := by rw [notices, List.getElem?_map, hr, Option.map_some]
    have hcancel := notices_cancel s traceId run
    rw [hnotice, Option.map_some, notices, List.getElem?_map] at hcancel
    obtain ⟨r', hr', heq⟩ := Option.map_eq_some_iff.mp hcancel
    refine ⟨r', hr', ?_⟩
    have hc : r'.cancelled = (r.cancelled || decide (run ∈ s.registry.runsOf traceId)) := congrArg Prod.snd heq
    rw [hc, ← hk.lists]
    simp

theorem roll_enrol (s : Schedule μ) (r : Run μ) : (s.enrol r).2.roll = s.roll ++ [r.entry] :=
  List.map_append

theorem getElem?_roll {r : Run μ} (hr : s.runs[run]? = some r) : s.roll[run]? = some r.entry := by
  rw [roll, List.getElem?_map, hr, Option.map_some]

theorem roll_close {r : Run μ} (hr : s.runs[run]? = some r) :
    (s.close run r).roll = s.roll.set run (r.context.traceId, .removed) := by
  obtain ⟨hlt, hget⟩ := List.getElem?_eq_some_iff.mp hr
  refine List.ext_getElem? fun i => ?_
  by_cases hi : run = i
  · subst hi
    simp [roll, close, change, Run.entry, hlt, hget]
  · simp [roll, close, change, hi]

theorem roll_ne_withdrawn (s : Schedule μ) : ∀ e ∈ s.roll, e.2 ≠ .withdrawn := by
  intro e he
  obtain ⟨r, -, rfl⟩ := List.mem_map.mp he
  cases hended : r.ended <;> simp [Run.entry, hended]

/-- To close a run is to take it off its list and to remove the list. If it has ended before, that changes
nothing. -/
theorem Rolled.close (h : Rolled s s.roll) {r : Run μ} (hr : s.runs[run]? = some r) :
    Rolled (s.close run r) (s.close run r).roll := by
  have hroll := roll_close hr
  have hentry := getElem?_roll hr
  have hlt := (List.getElem?_eq_some_iff.mp hentry).1
  have hids : (s.close run r).traceIds = s.traceIds := by
    rw [traceIds_eq_map, traceIds_eq_map, hroll, map_fst_set hentry]
  rw [hroll]
  cases hended : r.ended with
  | false =>
    have hlisted : s.roll[run]? = some (r.context.traceId, .listed) := by
      rw [hentry, Run.entry, hended]
      rfl
    have hleft := (h.withdraw hlisted).remove (List.getElem?_set_self hlt)
    rw [List.set_set] at hleft
    exact hleft.other rfl hids
  | true =>
    have hremoved : s.roll[run]? = some (r.context.traceId, .removed) := by
      rw [hentry, Run.entry, hended]
      rfl
    have hset : s.roll.set run (r.context.traceId, .removed) = s.roll := by
      rw [← (List.getElem?_eq_some_iff.mp hremoved).2, List.set_getElem_self]
    have hregistry : (s.close run r).registry = s.registry :=
      h.keeps.unregister_eq_self (by simp [hremoved]) s.roll_ne_withdrawn
    rw [hset]
    exact h.other hregistry hids

end Schedule

open Schedule

variable {e : Engine μ} {s t : Schedule μ} {ev : Event} {es : List Event} {traceId : String} {run : Nat}

/-- Whatever happens in an engine, its runs come and go in these steps, and a run has left when it has
ended. -/
theorem Happens.rolled (hs : Happens e s ev t) (h : Rolled s s.roll) : Rolled t t.roll := by
  have hquiet : ∀ {u : Schedule μ}, Quiet s u → Rolled u u.roll := fun hu => by
    rw [hu.roll]
    exact h.other hu.registry hu.traceIds
  cases hs with
  | begin _ _ =>
    rw [roll_enrol]
    exact h.enrol _
  | start => exact hquiet ((Quiet.refl s).startReady _)
  | close hr _ _ _ => exact h.close hr
  | look _ _ _ => exact hquiet ((Quiet.refl s).look _ _)
  | work run place => exact hquiet ((Quiet.refl s).turnNode run place)
  | cancel => exact hquiet ((Quiet.refl s).cancel _)
  | rest _ _ hg hr _ _ => exact hquiet ((Quiet.refl s).of_eq hg hr)

theorem Leads.rolled (hr : s.runs = []) (hg : s.registry = []) (h : Leads e s es t) :
    Rolled t t.roll := by
  induction h with
  | refl =>
    rw [roll, hr]
    exact .opened hr hg
  | step _ hs ih => exact hs.rolled ih

/-- At any time the runs that are listed under a trace id are those that have not ended. -/
theorem Leads.mem_runsOf_iff (hr : s.runs = []) (hg : s.registry = []) (h : Leads e s es t) :
    run ∈ t.registry.runsOf traceId ↔
      ∃ r, t.runs[run]? = some r ∧ r.context.traceId = traceId ∧ r.ended = false := by
  rw [(h.rolled hr hg).keeps.lists, roll, List.getElem?_map, Option.map_eq_some_iff]
  refine exists_congr fun r => and_congr_right fun _ => ?_
  cases hended : r.ended <;> simp [Run.entry, hended]

namespace Schedule

/-- Two runs share a trace id. The second one is registered while the first one leaves. -/
def relayed : Schedule Unit :=
  let first := (idle.enrol (.ofPrepared reportEngine.config 0 (reportReady 1))).2
  let leaving := { first with registry := first.registry.retainOthers "trace" 0 }
  let second := (leaving.enrol (.ofPrepared reportEngine.config 0 (reportReady 1))).2
  { second with registry := second.registry.dropEmpty "trace" }

theorem tracks_relayed : Rolled relayed [("trace", .removed), ("trace", .listed)] ∧
    Tracks relayed [("trace", .removed), ("trace", .listed)] ∧ (relayed.cancel "trace").1 = true := by
  have hfirst : Rolled _ [("trace", .listed)] :=
    (Rolled.opened (s := idle) rfl rfl).enrol (.ofPrepared reportEngine.config 0 (reportReady 1))
  have hlisted : [("trace", Stage.listed)][0]? = some ("trace", .listed) := rfl
  have hleaving := hfirst.withdraw hlisted
  have hsecond := hleaving.enrol (.ofPrepared reportEngine.config 0 (reportReady 1))
  have hrolled : Rolled relayed [("trace", .removed), ("trace", .listed)] :=
    hsecond.remove (show [("trace", Stage.withdrawn), ("trace", .listed)][0]? = _ from rfl)
  exact ⟨hrolled, hrolled.tracks, (hrolled.tracks.found "trace").mpr ⟨1, rfl⟩⟩

end Schedule

end Workflow
