import Workflow.Proofs.Engine.Awaiting

namespace Workflow

open Schedule

variable {μ : Type}

/-- Things happen one after the other, and while time passes, it does not pass an execution that has to have
its turn. -/
inductive Punctual (e : Engine μ) (s : Schedule μ) : List Event → Schedule μ → Prop
  | refl : Punctual e s [] s
  | step {es : List Event} {ev : Event} {t u : Schedule μ} (h : Punctual e s es t) (hs : Happens e t ev u)
      (hn : t.now < u.now → ∀ k x due, t.execution? k = some x → x.phase.next? = some due → u.now ≤ due) :
      Punctual e s (es ++ [ev]) u

variable {e : Engine μ} {s t u : Schedule μ} {ev : Event} {es es' : List Event}
variable {run place due : Nat} {x : Execution (World μ)} {given : List (Prepared μ)}

theorem Punctual.leads (h : Punctual e s es t) : Leads e s es t := by
  induction h with
  | refl => exact .refl
  | step _ hs _ ih => exact ih.step hs

theorem Punctual.trans (h : Punctual e s es t) (h' : Punctual e t es' u) : Punctual e s (es ++ es') u := by
  induction h' with
  | refl => exact (List.append_nil es).symm ▸ h
  | step _ hs hn ih =>
    rw [← List.append_assoc]
    exact ih.step hs hn

theorem Happens.now_le (h : Happens e s ev t) : s.now ≤ t.now := by
  by_cases hb : ev = .begun
  · subst hb
    cases h
    exact Nat.le_refl _
  by_cases hr : ev = .rested
  · subst hr
    cases h with
    | rest _ _ _ _ hn _ => exact hn
  · exact Nat.le_of_eq (h.spares hb hr).now.symm

theorem Leads.now_le (h : Leads e s es t) : s.now ≤ t.now := by
  induction h with
  | refl => exact Nat.le_refl _
  | step _ hs ih => exact Nat.le_trans ih hs.now_le

/-- While no time passes, it passes no execution. -/
theorem Leads.punctual (h : Leads e s es t) (hn : t.now = s.now) : Punctual e s es t := by
  induction h with
  | refl => exact .refl
  | @step es ev t u hled hs ih =>
    have hle := hled.now_le
    have hle' := hs.now_le
    exact (ih (by omega)).step hs fun hlt => absurd hlt (by omega)

namespace Schedule

@[simp] theorem now_wake (job : Job) : (s.wake job).now = s.now := by
  unfold wake
  split <;> rfl

theorem now_turnRun (run fuel : Nat) : (turnRun run fuel s).now = s.now := by
  induction fuel generalizing s with
  | zero => rfl
  | succ fuel ih =>
    have hstart : Spares (fun _ => True) s (s.startReady run) := (Spares.refl s).startReady run
    unfold turnRun
    dsimp only
    split
    · exact hstart.now
    · next r hr =>
      have hlook : Spares (fun _ => True) (s.startReady run) ((s.startReady run).look run r) := .look hr
      split
      · exact hstart.now
      · split
        · exact hlook.now.trans hstart.now
        · exact ih.trans (hlook.now.trans hstart.now)

theorem now_coordinate (run : Nat) : (s.coordinate run).now = s.now := by
  unfold coordinate
  split
  · rfl
  · split
    · rfl
    · exact now_turnRun run _

theorem now_perform (errand : Errand) : (s.perform e errand).2.now = s.now := by
  unfold perform
  split
  · split
    · rfl
    · exact now_coordinate _
  · rfl
  · next traceId =>
    have hcancel : Spares (fun _ => True) s (s.cancel traceId).2 := (Spares.refl s).cancel traceId
    exact hcancel.now

/-- A turn takes no time. -/
theorem now_turn (job : Job) : (s.turn e job).now = s.now := by
  cases job with
  | errand place =>
    rw [turn, turnErrand]
    split
    · next delay errand alarm _ =>
      have hdone : ((s.perform e errand).2.setErrand place (s.perform e errand).1).now = s.now :=
        now_perform errand
      cases alarm with
      | none =>
        dsimp only
        split
        · exact hdone
        · rfl
      | some a =>
        dsimp only
        split
        · exact hdone
        · rfl
    · rfl
  | run run => exact now_coordinate run
  | node run place =>
    have hturn : Spares (fun _ => True) s (s.turnNode e.config.backoff run place) :=
      (Spares.refl s).turnNode trivial
    exact hturn.now

/-- An alarm is set for when an execution has to have its turn. -/
theorem due_mem_alarms {k : Nat × Nat} (hx : s.execution? k = some x) (hdue : x.phase.next? = some due) :
    due ∈ s.alarms.map (fun p => p.1.due) := by
  obtain ⟨r, hr, hexec⟩ := Option.bind_eq_some_iff.mp hx
  have hzip : (k.1, r) ∈ (List.range s.runs.length).zip s.runs := by
    refine List.mem_iff_getElem?.mpr ⟨k.1, ?_⟩
    rw [List.getElem?_zip_eq_some]
    exact ⟨List.getElem?_range (List.getElem?_eq_some_iff.mp hr).1, hr⟩
  have hset : ∀ a, (a, Job.node k.1 x.place) ∈ alarmsOf k.1 r → a.due ∈ s.alarms.map (fun p => p.1.due) :=
    fun a ha => List.mem_map.mpr ⟨(a, .node k.1 x.place),
      List.mem_append_left _ (List.mem_flatMap.mpr ⟨_, hzip, ha⟩), rfl⟩
  have hmem : x ∈ r.executions := List.mem_of_find?_eq_some hexec
  cases hphase : x.phase with
  | fresh | queued =>
    rw [hphase] at hdue
    cases hdue
  | attempting since number slot next wake limit =>
    rw [hphase] at hdue
    rw [← Option.some.inj hdue]
    rcases min_choice wake.due limit.due with hmin | hmin
    · rw [hmin]
      refine hset wake (List.mem_append_right _ (List.mem_flatMap.mpr ⟨x, hmem, ?_⟩))
      rw [hphase]
      exact List.mem_cons_self
    · rw [hmin]
      refine hset limit (List.mem_append_right _ (List.mem_flatMap.mpr ⟨x, hmem, ?_⟩))
      rw [hphase]
      exact List.mem_cons_of_mem _ List.mem_cons_self
  | pausing since number slot wake =>
    rw [hphase] at hdue
    rw [← Option.some.inj hdue]
    refine hset wake (List.mem_append_right _ (List.mem_flatMap.mpr ⟨x, hmem, ?_⟩))
    rw [hphase]
    exact List.mem_cons_self

theorem foldl_min_le (first : Nat) (more : List Nat) : ∀ d ∈ first :: more, more.foldl min first ≤ d := by
  induction more generalizing first with
  | nil => exact fun d hd => Nat.le_of_eq (List.mem_singleton.mp hd).symm
  | cons next more ih =>
    intro d hd
    rw [List.foldl_cons]
    have hmin := ih (min first next) (min first next) List.mem_cons_self
    rcases List.mem_cons.mp hd with rfl | hd
    · exact hmin.trans (min_le_left _ _)
    · rcases List.mem_cons.mp hd with rfl | hd
      · exact hmin.trans (min_le_right _ _)
      · exact ih _ d (List.mem_cons_of_mem _ hd)

/-- The next alarm of an engine passes no execution that has to have its turn. -/
theorem now_ring?_le {due : Nat} {k : Nat × Nat} (h : s.ring? = some t) (hlt : s.now < t.now)
    (hx : s.execution? k = some x) (hdue : x.phase.next? = some due) : t.now ≤ due := by
  have hset := due_mem_alarms hx hdue
  unfold ring? at h
  dsimp only at h
  split at h
  · cases h
  · next first more heq =>
    cases h
    have hnow : ∀ (jobs : List (Alarm × Job)) (u : Schedule μ),
        (jobs.foldl (fun s p => s.wake p.2) u).now = u.now := fun jobs u =>
      List.foldlRecOn (motive := fun v : Schedule μ => v.now = u.now) jobs _ rfl fun v hv p _ =>
        (now_wake p.2).trans hv
    rw [hnow] at hlt ⊢
    rw [heq] at hset
    have hle := foldl_min_le first more due hset
    dsimp only at hlt ⊢
    omega

theorem punctual_step? (h : s.views.Coordinated given) (hs : s.views.Sound) (ht : s.step? e = some t) :
    ∃ es, Punctual e s es t := by
  obtain ⟨es, hes⟩ := leads_step? h hs ht
  unfold step? at ht
  split at ht
  · next job rest _ =>
    cases ht
    exact ⟨es, hes.punctual (now_turn (s := { s with queue := rest }) job)⟩
  · exact ⟨_, Punctual.refl.step (rests_ring? ht) fun hlt k x due => now_ring?_le ht hlt⟩

/-- What an engine does by itself passes no execution that has to have its turn. -/
theorem punctual_advance (h : s.views.Coordinated given) (hs : s.views.Sound) (n : Nat) :
    ∃ es, Punctual e s es (s.advance e n) := by
  induction n generalizing s given with
  | zero => exact ⟨[], .refl⟩
  | succ n ih =>
    rw [advance]
    split
    · next t ht =>
      obtain ⟨es, hes⟩ := punctual_step? h hs ht
      obtain ⟨_, hmore⟩ := hes.leads.coordinated h
      have hsound : t.views.Sound := by
        unfold Views.Sound
        rw [hes.leads.errands_eq h]
        exact hs
      obtain ⟨es', hes'⟩ := ih hmore hsound
      exact ⟨_, hes.trans hes'⟩
    · exact ⟨[], .refl⟩

/-- While an execution has something to do of its task, an engine does not come to rest. -/
theorem exists_step? (hx : s.execution? (run, place) = some x) (hdue : x.phase.next? = some due) :
    ∃ t, s.step? e = some t := by
  unfold step?
  split
  · exact ⟨_, rfl⟩
  · have hset := due_mem_alarms hx hdue
    unfold ring?
    dsimp only
    split
    · next hnil =>
      rw [hnil] at hset
      cases hset
    · exact ⟨_, rfl⟩

end Schedule

end Workflow
