import Workflow.Proofs.Engine.Attempts
import Workflow.Proofs.Engine.Registry

namespace Workflow

variable {μ : Type}

/-- Where a run stands with the registry: it leaves as soon as it has ended. -/
def Run.entry (r : Run μ) : String × Stage :=
  (r.context.traceId, if r.ended then .removed else .listed)

namespace Schedule

variable {s t u : Schedule μ} {run n since : Nat} {f : Run μ → Run μ}
variable {x : Execution (World μ)} {b : Backoff} {site : Site μ}

/-- The roll of the runs of an engine. -/
def roll (s : Schedule μ) : List (String × Stage) := s.runs.map Run.entry

/-- No run has come to be registered, and none has ended. -/
structure Quiet (s t : Schedule μ) : Prop where
  registry : t.registry = s.registry
  roll : t.roll = s.roll

namespace Quiet

theorem refl (s : Schedule μ) : Quiet s s := ⟨rfl, rfl⟩

theorem of_eq (h : Quiet s t) (hg : u.registry = t.registry) (hr : u.runs = t.runs) : Quiet s u := by
  refine ⟨hg.trans h.registry, ?_⟩
  rw [Schedule.roll, hr]
  exact h.roll

theorem wake (h : Quiet s t) (job : Job) : Quiet s (t.wake job) := by
  unfold Schedule.wake
  split
  · exact h
  · exact h.of_eq rfl rfl

theorem change (h : Quiet s t) (run : Nat) (hf : ∀ r, (f r).entry = r.entry) :
    Quiet s (t.change run f) := by
  refine ⟨h.registry, Eq.trans (List.ext_getElem? fun i => ?_) h.roll⟩
  simp only [Schedule.roll, Schedule.change, List.getElem?_map, List.getElem?_modify]
  cases t.runs[i]? with
  | none => rfl
  | some r => by_cases hi : run = i <;> simp [hi, hf]

theorem put (h : Quiet s t) (run : Nat) (x : Execution (World μ)) : Quiet s (t.put run x) :=
  h.change run fun _ => rfl

theorem grant (h : Quiet s t) (run place : Nat) : Quiet s (t.grant run place) :=
  (h.change run fun _ => by rfl).wake _

theorem releaseLimit (h : Quiet s t) (run place : Nat) : Quiet s (t.releaseLimit run place) := by
  unfold Schedule.releaseLimit
  split
  · exact h
  · dsimp only
    split
    · refine grant (h.of_eq ?_ ?_) _ _ <;> rfl
    · exact h.of_eq rfl rfl

theorem releaseRun (h : Quiet s t) (run : Nat) : Quiet s (t.releaseRun run) := by
  unfold Schedule.releaseRun
  split
  · exact h
  · dsimp only
    split
    · exact grant (h.change run fun _ => by rfl) _ _
    · exact h.change run fun _ => by rfl

theorem leaveLimit (h : Quiet s t) (run place : Nat) : Quiet s (t.leaveLimit run place) := by
  unfold Schedule.leaveLimit
  split
  · exact h
  · exact h.of_eq rfl rfl

theorem releaseAll (h : Quiet s t) (run : Nat) (x : Execution (World μ)) : Quiet s (t.releaseAll run x) := by
  unfold Schedule.releaseAll
  split
  · exact h
  · split
    · exact h.releaseLimit _ _
    · exact h.leaveLimit _ _
  · split
    · exact (h.releaseRun _).releaseLimit _ _
    · exact releaseLimit (h.change run fun _ => by rfl) _ _
  · exact (h.releaseLimit _ _).releaseRun _

theorem finish (h : Quiet s t) (run : Nat) (x : Execution (World μ)) (outcome : Outcome)
    (attempts : Nat) (started : Bool) (since : Nat) :
    Quiet s (t.finish run x outcome attempts started since) :=
  ((h.releaseAll run x).change run fun _ => by rfl).wake _

theorem finishCancelled (h : Quiet s t) (run : Nat) (x : Execution (World μ)) :
    Quiet s (t.finishCancelled run x) := by
  unfold Schedule.finishCancelled
  split
  all_goals exact h.finish ..

theorem tried (h : Quiet s t) (ht : Tried t run x n u) : Quiet s u := by
  cases ht with
  | ended world phase => refine finish (h.of_eq ?_ ?_) .. <;> rfl
  | rests world phase => exact of_eq (put (t := { t with world }) (h.of_eq rfl rfl) _ _) rfl rfl

theorem rested (h : Quiet s t) (ht : Rested t run x u) : Quiet s u := by
  cases ht with
  | still => exact h
  | again world phase => exact of_eq (put (t := { t with world }) (h.of_eq rfl rfl) _ _) rfl rfl

theorem enterRun (h : Quiet s t) : Quiet s (Schedule.enterRun b site x since t) := by
  unfold Schedule.enterRun
  split
  · exact h
  · split
    dsimp only
    split
    · exact tried (h.change site.run fun _ => by rfl) .begin
    · exact put (h.change site.run fun _ => by rfl) _ _

theorem enter (h : Quiet s t) : Quiet s (Schedule.enter b site x t) := by
  unfold Schedule.enter
  dsimp only
  split
  · exact enterRun (h.of_eq rfl rfl)
  · split
    · exact enterRun (h.of_eq rfl rfl)
    · refine put (h.of_eq ?_ ?_) _ _ <;> rfl

theorem turnNode (h : Quiet s t) (run place : Nat) : Quiet s (t.turnNode b run place) := by
  unfold Schedule.turnNode
  split
  · split
    · exact h
    · next x _ =>
      split
      · exact h.finishCancelled _ _
      · split
        · exact h.enter
        · exact h.enterRun
        · exact h.tried .begin
        · exact h
        · next hphase =>
          rcases Tried.resume (s := t) (x := x) (by rw [hphase]; rfl) with ⟨u, hu, ht⟩ | ⟨-, ht⟩
          · exact (h.rested hu).tried ht
          · exact h.rested ht
        · split
          · exact h.tried (.attempt _ _ (by omega))
          · exact h
  · exact h

theorem stopNodes (h : Quiet s t) (run : Nat) : Quiet s (t.stopNodes run) := by
  unfold Schedule.stopNodes
  split
  · exact h
  · split
    · exact h
    · exact List.foldlRecOn (motive := fun u => Quiet s u) _ _ (h.change run fun _ => by rfl)
        fun _ hu _ _ => hu.wake _

theorem cancel (h : Quiet s t) (traceId : String) : Quiet s (t.cancel traceId).2 := by
  unfold Schedule.cancel
  refine List.foldlRecOn (motive := fun u => Quiet s u) _ _ h fun u hu i _ => ?_
  split
  · exact hu
  · exact ((hu.stopNodes i).change i fun _ => by rfl).wake _

theorem abort (h : Quiet s t) (run : Nat) (err : RunError) : Quiet s (t.abort run err) :=
  stopNodes (h.change run fun _ => by rfl) run

theorem look (h : Quiet s t) (run : Nat) (r : Run μ) : Quiet s (t.look run r) := by
  unfold Schedule.look
  split
  · exact h.abort run _
  · split
    · exact h.abort run _
    · split
      · dsimp only
        split
        · exact stopNodes (h.change run fun _ => by rfl) run
        · exact h.change run fun _ => by rfl
      · split
        · exact h
        · exact of_eq (h.change (f := fun r => { r with alarm := _ }) run fun _ => by rfl) rfl rfl

theorem launch (h : Quiet s t) (run : Nat) (started : List (Nat × Inputs)) :
    Quiet s (t.launch run started) := by
  unfold Schedule.launch
  refine List.foldlRecOn (motive := fun u => Quiet s u) _ _ h fun u hu p _ => ?_
  split
  · refine (change (hu.of_eq ?_ ?_) run fun _ => ?_).wake _ <;> rfl
  · exact (hu.change run fun _ => by rfl).wake _

theorem startReady (h : Quiet s t) (run : Nat) : Quiet s (t.startReady run) := by
  unfold Schedule.startReady
  split
  · exact h
  · exact launch (h.change run fun _ => by rfl) _ _

end Quiet

end Schedule

end Workflow
