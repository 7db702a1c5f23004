import Workflow.Engine.Execute
import Workflow.Proofs.Engine.Permits

namespace Workflow

variable {μ : Type}

/-- How an execution stands to the permits behind a gate. It asks for those of its run when it has that of
its node, and executes when it has both. -/
def Phase.standing {σ : Type} : Phase σ → Gate → Standing
  | .fresh, _ => .outside
  | .queued _ .node granted, .node => if granted then .inside else .waiting
  | .queued _ .node _, .run => .outside
  | .queued _ .run _, .node => .inside
  | .queued _ .run granted, .run => if granted then .inside else .waiting
  | .attempting .., _ => .inside
  | .pausing .., _ => .inside

theorem Phase.standing_granted {σ : Type} (since : Nat) (gate : Gate) :
    (Phase.queued since gate true : Phase σ).standing =
      Function.update (Phase.queued since gate false : Phase σ).standing gate .inside := by
  funext g
  cases gate <;> cases g <;> rfl

theorem Phase.standing_eq_waiting_iff {σ : Type} {phase : Phase σ} {gate : Gate} :
    phase.standing gate = .waiting ↔ ∃ since, phase = .queued since gate false := by
  cases phase with
  | queued since other granted => cases other <;> cases gate <;> cases granted <;> simp [standing]
  | fresh | attempting | pausing => simp [standing]

/-- What an execution is doing once it is told that it was given the permit that it waits for. -/
def Phase.granted {σ : Type} : Phase σ → Phase σ
  | .queued since gate _ => .queued since gate true
  | phase => phase

namespace Run

variable {r : Run μ} {i : Nat}

/-- What the execution of a node is doing, if it is under way. -/
def phase? (r : Run μ) (i : Nat) : Option (Phase (World μ)) := (r.execution? i).map Execution.phase

theorem place_of_execution? {x : Execution (World μ)} (h : r.execution? i = some x) : x.place = i := by
  simpa using List.find?_some h

/-- What is done to the execution of one node alone, without moving it to another. -/
theorem execution?_mapAt {f : Execution (World μ) → Execution (World μ)} {j : Nat}
    (hf : ∀ x : Execution (World μ), x.place = j → (f x).place = j) (i : Nat) :
    { r with executions := r.executions.map (fun x : Execution (World μ) =>
      if x.place = j then f x else x) }.execution? i =
      if i = j then (r.execution? i).map f else r.execution? i := by
  have hplace : ∀ x : Execution (World μ), (if x.place = j then f x else x).place = x.place := by
    intro x
    split
    · next h => exact (hf x h).trans h.symm
    · rfl
  rw [execution?, List.find?_map]
  simp only [Function.comp_def, hplace]
  rw [← execution?]
  cases hx : r.execution? i with
  | none => simp
  | some x =>
    rw [Option.map_some, place_of_execution? hx, Option.map_some]
    split <;> rfl

theorem execution?_put (x : Execution (World μ)) (i : Nat) :
    (r.put x).execution? i = if i = x.place then (r.execution? i).map (fun _ => x) else r.execution? i :=
  execution?_mapAt (fun _ _ => rfl) i

theorem execution?_drop (j i : Nat) : (r.drop j).execution? i = if i = j then none else r.execution? i := by
  rw [drop, execution?, List.find?_filter, execution?]
  split
  · next h =>
    subst h
    rw [List.find?_eq_none]
    intro x _
    simp
  · next h =>
    congr 1
    funext x
    by_cases hx : x.place = i <;> simp [hx, h]

theorem execution?_concat (x : Execution (World μ)) (i : Nat) :
    { r with executions := r.executions ++ [x] }.execution? i =
      (r.execution? i).or (if x.place = i then some x else none) := by
  rw [execution?, List.find?_append, execution?]
  congr 1
  by_cases hx : x.place = i <;> simp [hx]

theorem phase?_mapAt {f : Execution (World μ) → Execution (World μ)} {j : Nat}
    (hf : ∀ x : Execution (World μ), x.place = j → (f x).place = j) (i : Nat) :
    { r with executions := r.executions.map (fun x : Execution (World μ) =>
      if x.place = j then f x else x) }.phase? i =
      if i = j then (r.execution? i).map (fun x => (f x).phase) else r.phase? i := by
  rw [phase?, execution?_mapAt hf, phase?]
  split
  · rw [Option.map_map]
    rfl
  · rfl

theorem phase?_put (x : Execution (World μ)) (i : Nat) :
    (r.put x).phase? i = if i = x.place then (r.phase? i).map (fun _ => x.phase) else r.phase? i := by
  refine (phase?_mapAt (fun _ _ => rfl) i).trans ?_
  rw [phase?, Option.map_map]
  rfl

theorem phase?_drop (j i : Nat) : (r.drop j).phase? i = if i = j then none else r.phase? i := by
  rw [phase?, execution?_drop, phase?]
  split <;> rfl

theorem phase?_concat (x : Execution (World μ)) (i : Nat) :
    { r with executions := r.executions ++ [x] }.phase? i =
      (r.phase? i).or (if x.place = i then some x.phase else none) := by
  rw [phase?, execution?_concat, phase?]
  cases r.execution? i with
  | some y => rfl
  | none =>
    rw [Option.none_or, Option.map_none, Option.none_or]
    split <;> rfl

end Run

namespace Schedule

variable {s t : Schedule μ} {run place : Nat} {k : Nat × Nat} {f : Run μ → Run μ}
variable {x : Execution (World μ)}

/-- What the execution of a node of a run is doing, if it is under way. -/
def phase? (s : Schedule μ) (k : Nat × Nat) : Option (Phase (World μ)) :=
  (s.runs[k.1]?).bind (fun r => r.phase? k.2)

theorem phase?_of_execution? {r : Run μ} (hr : s.runs[run]? = some r) (hx : r.execution? place = some x) :
    s.phase? (run, place) = some x.phase := by
  rw [phase?, hr, Option.bind_some, Run.phase?, hx, Option.map_some]

theorem phase?_congr (h : t.runs = s.runs) : t.phase? = s.phase? := by
  funext k
  rw [phase?, h]
  rfl

theorem phase?_change {phase : Option (Phase (World μ))}
    (h : ∀ r, s.runs[run]? = some r → (f r).phase? place = phase ∧
      ∀ i ≠ place, (f r).phase? i = r.phase? i) (hn : s.runs[run]? = none → phase = none) :
    (s.change run f).phase? = Function.update s.phase? (run, place) phase := by
  funext k
  obtain ⟨i, j⟩ := k
  simp only [phase?, change, List.getElem?_modify]
  by_cases hi : run = i
  · subst hi
    cases hr : s.runs[run]? with
    | none =>
      by_cases hj : j = place
      · subst hj
        rw [Function.update_self, hn hr]
        rfl
      · rw [Function.update_of_ne (fun he => hj (Prod.mk.inj he).2)]
        simp [phase?, hr]
    | some r =>
      obtain ⟨hself, hother⟩ := h r hr
      by_cases hj : j = place
      · subst hj
        rw [Function.update_self, ← hself]
        simp
      · rw [Function.update_of_ne (fun he => hj (Prod.mk.inj he).2)]
        simp [phase?, hr, hother j hj]
  · rw [Function.update_of_ne (fun he => hi (Prod.mk.inj he).1.symm)]
    simp [phase?, hi]

theorem phase?_change_same (h : ∀ r, (f r).executions = r.executions) :
    (s.change run f).phase? = s.phase? := by
  funext k
  simp only [phase?, change, List.getElem?_modify]
  by_cases hi : run = k.1
  · cases hr : s.runs[k.1]? with
    | none => simp
    | some r => simp [hi, Run.phase?, Run.execution?, h]
  · simp [hi]

@[simp] theorem phase?_wake (job : Job) : (s.wake job).phase? = s.phase? := by
  unfold wake
  split <;> rfl

theorem phase?_put (run : Nat) (x : Execution (World μ)) : (s.put run x).phase? =
    Function.update s.phase? (run, x.place) ((s.phase? (run, x.place)).map fun _ => x.phase) := by
  refine phase?_change (fun r hr => ⟨?_, fun i hi => ?_⟩) fun hr => ?_
  · rw [Run.phase?_put, if_pos rfl, phase?, hr]
    rfl
  · rw [Run.phase?_put, if_neg hi]
  · rw [phase?, hr]
    rfl

theorem phase?_put_of_isSome (h : (s.phase? (run, x.place)).isSome = true) :
    (s.put run x).phase? (run, x.place) = some x.phase := by
  obtain ⟨phase, hphase⟩ := Option.isSome_iff_exists.mp h
  rw [phase?_put, Function.update_self, hphase, Option.map_some]

theorem phase?_grant (run place : Nat) : (s.grant run place).phase? =
    Function.update s.phase? (run, place) ((s.phase? (run, place)).map Phase.granted) := by
  unfold grant
  dsimp only
  rw [phase?_wake]
  refine phase?_change (fun r hr => ⟨?_, fun i hi => ?_⟩) fun hr => ?_
  · refine (Run.phase?_mapAt (fun x hx => ?_) place).trans ?_
    · split <;> exact hx
    · rw [if_pos rfl, phase?, hr, Option.bind_some, Run.phase?, Option.map_map]
      congr 1
      funext x
      simp only [Function.comp_apply]
      cases hp : x.phase <;> simp [Phase.granted, hp]
  · refine (Run.phase?_mapAt (fun x hx => ?_) i).trans (if_neg hi)
    split <;> exact hx
  · rw [phase?, hr]
    rfl

theorem phase?_grant_isSome : ((s.grant run place).phase? k).isSome = (s.phase? k).isSome := by
  rw [phase?_grant]
  by_cases hk : k = (run, place)
  · rw [hk, Function.update_self, Option.isSome_map]
  · rw [Function.update_of_ne hk]

theorem phase?_drop (run place : Nat) (finished : List Completion) :
    (s.change run (fun r => { r.drop place with finished := r.finished ++ finished })).phase? =
      Function.update s.phase? (run, place) none := by
  refine phase?_change (fun r _ => ⟨?_, fun i hi => ?_⟩) fun _ => rfl
  · exact (Run.phase?_drop place place).trans (if_pos rfl)
  · exact (Run.phase?_drop place i).trans (if_neg hi)

theorem phase?_finish (run : Nat) (x : Execution (World μ)) (outcome : Outcome) (attempts : Nat)
    (started : Bool) (since : Nat) : (s.finish run x outcome attempts started since).phase? =
      Function.update (s.releaseAll run x).phase? (run, x.place) none := by
  unfold finish
  rw [phase?_wake]
  exact phase?_drop run x.place _

theorem phase?_finishCancelled (run : Nat) (x : Execution (World μ)) :
    (s.finishCancelled run x).phase? (run, x.place) = none := by
  unfold finishCancelled
  split
  all_goals rw [phase?_finish, Function.update_self]

end Schedule

end Workflow
