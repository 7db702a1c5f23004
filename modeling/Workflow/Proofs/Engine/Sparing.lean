import Workflow.Proofs.Engine.Phases
import Workflow.Proofs.Engine.Refinement
import Workflow.Proofs.Engine.Task

namespace Workflow

variable {μ : Type}

/-- An execution that fails does so with an error after which it could have made another attempt. -/
def Outcome.Mild (o : Outcome) : Prop := ∀ err, o = .failed err → err.kind.isRetryable = true

/-- What a run executes. -/
def Run.body (r : Run μ) : Plan × List (Work μ) × Context × List (Execution (World μ)) :=
  (r.plan, r.work, r.context, r.executions)

/-- What stands of a run whose executions are not acted on, those of some nodes apart: an execution is new, or
is as it was, up to a permit that it was given. -/
structure Run.Spared (own : Nat → Prop) (r r' : Run μ) : Prop where
  plan : r'.plan = r.plan
  work : r'.work = r.work
  context : r'.context = r.context
  stopped : r.stopped = true → r'.stopped = true
  executions : ∀ place x', r'.execution? place = some x' → own place ∨ x'.phase = .fresh ∨
    ∃ x, r.execution? place = some x ∧ x'.inputs = x.inputs ∧ (x'.phase = x.phase ∨ x'.phase = x.phase.granted)
  finished : ∀ c ∈ r'.finished, c ∈ r.finished ∨ c.outcome.Mild

namespace Run.Spared

variable {own : Nat → Prop} {r r' r'' : Run μ}

theorem of_body (hb : r'.body = r.body) (hs : r.stopped = true → r'.stopped = true)
    (hf : r'.finished ⊆ r.finished) : r.Spared own r' where
  plan := congrArg (·.1) hb
  work := congrArg (·.2.1) hb
  context := congrArg (·.2.2.1) hb
  stopped := hs
  executions := fun place x' h => by
    have hx : r'.executions = r.executions := congrArg (·.2.2.2) hb
    exact .inr (.inr ⟨x', by rwa [Run.execution?, ← hx], rfl, .inl rfl⟩)
  finished := fun _ h => .inl (hf h)

theorem refl (r : Run μ) : r.Spared own r :=
  of_body rfl id (List.Subset.refl _)

theorem trans (h : r.Spared own r') (h' : r'.Spared own r'') : r.Spared own r'' where
  plan := h'.plan.trans h.plan
  work := h'.work.trans h.work
  context := h'.context.trans h.context
  stopped := fun hs => h'.stopped (h.stopped hs)
  executions := fun place x'' hx'' => by
    rcases h'.executions place x'' hx'' with hown | hfresh | ⟨x', hx', hinputs', hphase'⟩
    · exact .inl hown
    · exact .inr (.inl hfresh)
    · rcases h.executions place x' hx' with hown | hfresh | ⟨x, hx, hinputs, hphase⟩
      · exact .inl hown
      · refine .inr (.inl ?_)
        rcases hphase' with hp | hp <;> rw [hp, hfresh]
        rfl
      · refine .inr (.inr ⟨x, hx, hinputs'.trans hinputs, ?_⟩)
        have hidem : x.phase.granted.granted = x.phase.granted := by cases x.phase <;> rfl
        rcases hphase' with hp | hp <;> rcases hphase with hq | hq <;> rw [hp, hq]
        · exact .inl rfl
        · exact .inr rfl
        · exact .inr rfl
        · exact .inr hidem
  finished := fun c hc => (h'.finished c hc).elim (h.finished c) .inr

theorem put {x : Execution (World μ)} (hx : own x.place) : r.Spared own (r.put x) where
  plan := rfl
  work := rfl
  context := rfl
  stopped := id
  executions := fun place y hy => by
    rw [Run.execution?_put] at hy
    split at hy
    · next he => exact .inl (he ▸ hx)
    · exact .inr (.inr ⟨y, hy, rfl, .inl rfl⟩)
  finished := fun _ => .inl

theorem finish (place : Nat) {c : Completion} (hc : c.outcome.Mild) :
    r.Spared own { r.drop place with finished := r.finished ++ [c] } where
  plan := rfl
  work := rfl
  context := rfl
  stopped := id
  executions := fun i y hy => by
    have hdrop : (r.drop place).execution? i = some y := hy
    rw [Run.execution?_drop] at hdrop
    split at hdrop
    · cases hdrop
    · exact .inr (.inr ⟨y, hdrop, rfl, .inl rfl⟩)
  finished := fun d hd => by
    rcases List.mem_append.mp hd with hd | hd
    · exact .inl hd
    · exact .inr (List.mem_singleton.mp hd ▸ hc)

theorem launch (place : Nat) (inputs : Inputs) :
    r.Spared own { r with executions := r.executions ++ [⟨place, inputs, .fresh, 0⟩] } where
  plan := rfl
  work := rfl
  context := rfl
  stopped := id
  executions := fun i y hy => by
    rw [Run.execution?_concat] at hy
    cases hx : r.execution? i with
    | some x =>
      rw [hx, Option.some_or] at hy
      exact .inr (.inr ⟨x, rfl, by rw [← Option.some.inj hy], .inl (by rw [← Option.some.inj hy])⟩)
    | none =>
      rw [hx, Option.none_or] at hy
      split at hy
      · exact .inr (.inl (by rw [← Option.some.inj hy]))
      · cases hy
  finished := fun _ => .inl

end Run.Spared

namespace Schedule

variable {own : Nat × Nat → Prop} {s t u : Schedule μ} {run place since number : Nat}
variable {f : Run μ → Run μ} {x : Execution (World μ)} {b : Backoff} {site : Site μ} {slot : Option Slot}

/-- The execution of a node of a run, if it is under way. -/
def execution? (s : Schedule μ) (k : Nat × Nat) : Option (Execution (World μ)) :=
  (s.runs[k.1]?).bind (fun r => r.execution? k.2)

@[simp] theorem runs_wake (job : Job) : (s.wake job).runs = s.runs := by
  unfold wake
  split <;> rfl

/-- What stands of an engine in which only some executions are acted on. -/
structure Spares (own : Nat × Nat → Prop) (s t : Schedule μ) : Prop where
  now : t.now = s.now
  length : t.runs.length = s.runs.length
  runs : ∀ (run : Nat) (r' : Run μ), t.runs[run]? = some r' →
    ∃ r, s.runs[run]? = some r ∧ r.Spared (fun place => own (run, place)) r'

namespace Spares

theorem of_eq (h : Spares own s t) (hn : u.now = t.now) (hr : u.runs = t.runs) : Spares own s u :=
  ⟨hn.trans h.now, hr ▸ h.length, hr ▸ h.runs⟩

theorem refl (s : Schedule μ) : Spares own s s := ⟨rfl, rfl, fun _ r' hr => ⟨r', hr, .refl r'⟩⟩

theorem wake (h : Spares own s t) (job : Job) : Spares own s (t.wake job) := by
  unfold Schedule.wake
  split
  · exact h
  · exact h.of_eq rfl rfl

theorem change (h : Spares own s t)
    (hf : ∀ r : Run μ, t.runs[run]? = some r → r.Spared (fun place => own (run, place)) (f r)) :
    Spares own s (t.change run f) := by
  refine ⟨h.now, (List.length_modify ..).trans h.length, fun i r' hr' => ?_⟩
  rw [Schedule.change, List.getElem?_modify] at hr'
  obtain ⟨r₁, hr₁, rfl⟩ := Option.map_eq_some_iff.mp hr'
  obtain ⟨r, hr, hspared⟩ := h.runs i r₁ hr₁
  refine ⟨r, hr, ?_⟩
  split
  · next hi =>
    subst hi
    exact hspared.trans (hf r₁ hr₁)
  · exact hspared

/-- A change of a run that its executions have no part in. -/
theorem adjust (h : Spares own s t) (hb : ∀ r, (f r).body = r.body)
    (hs : ∀ r, r.stopped = true → (f r).stopped = true)
    (hf : ∀ r, t.runs[run]? = some r → (f r).finished ⊆ r.finished) : Spares own s (t.change run f) :=
  h.change fun r hr => .of_body (hb r) (hs r) (hf r hr)

theorem put (h : Spares own s t) (hx : own (run, x.place)) : Spares own s (t.put run x) :=
  h.change fun _ _ => .put hx

theorem grant (h : Spares own s t) (run place : Nat) : Spares own s (t.grant run place) := by
  refine wake (h.change fun r _ => ?_) _
  refine ⟨rfl, rfl, rfl, id, fun i y hy => .inr (.inr ?_), fun _ => .inl⟩
  rw [Run.execution?_mapAt (fun x hx => by split <;> exact hx)] at hy
  split at hy
  · obtain ⟨x, hx, rfl⟩ := Option.map_eq_some_iff.mp hy
    refine ⟨x, hx, ?_⟩
    cases hp : x.phase <;> simp [Phase.granted, hp]
  · exact ⟨y, hy, rfl, .inl rfl⟩

theorem permits (h : Spares own s t) (run : Nat) (permits : Run μ → Permits Nat) :
    Spares own s (t.change run (fun r => { r with permits := permits r })) :=
  h.adjust (fun _ => rfl) (fun _ => id) fun _ _ => List.Subset.refl _

theorem releaseLimit (h : Spares own s t) (run place : Nat) : Spares own s (t.releaseLimit run place) := by
  unfold Schedule.releaseLimit
  split
  · exact h
  · dsimp only
    split
    · refine grant (h.of_eq ?_ ?_) _ _ <;> rfl
    · exact h.of_eq rfl rfl

theorem releaseRun (h : Spares own s t) (run : Nat) : Spares own s (t.releaseRun run) := by
  unfold Schedule.releaseRun
  split
  · exact h
  · dsimp only
    split
    · exact grant (h.permits run fun _ => _) _ _
    · exact h.permits run fun _ => _

theorem leaveLimit (h : Spares own s t) (run place : Nat) : Spares own s (t.leaveLimit run place) := by
  unfold Schedule.leaveLimit
  split
  · exact h
  · exact h.of_eq rfl rfl

theorem releaseAll (h : Spares own s t) (run : Nat) (x : Execution (World μ)) :
    Spares own s (t.releaseAll run x) := by
  unfold Schedule.releaseAll
  split
  · exact h
  · split
    · exact h.releaseLimit _ _
    · exact h.leaveLimit _ _
  · split
    · exact (h.releaseRun _).releaseLimit _ _
    · exact releaseLimit (h.permits run fun r => r.permits.leave x.place) _ _
  · exact (h.releaseLimit _ _).releaseRun _

theorem finish (h : Spares own s t) {outcome : Outcome} (ho : outcome.Mild) (run : Nat)
    (x : Execution (World μ)) (attempts : Nat) (started : Bool) (since : Nat) :
    Spares own s (t.finish run x outcome attempts started since) :=
  ((h.releaseAll run x).change fun _ _ => .finish x.place ho).wake _

theorem finishCancelled (h : Spares own s t) (run : Nat) (x : Execution (World μ)) :
    Spares own s (t.finishCancelled run x) := by
  have hmild : Outcome.cancelled.Mild := fun err he => by cases he
  unfold Schedule.finishCancelled
  split
  all_goals exact h.finish hmild ..

/-- An execution goes on resting. -/
theorem rests (h : Spares own s t) (hx : own (run, x.place)) (world : World μ) (phase : Phase (World μ))
    (order waitOrder : Nat) :
    Spares own s { ({ t with world } : Schedule μ).put run { x with phase, waitOrder } with order } := by
  have hput : Spares own s (({ t with world } : Schedule μ).put run { x with phase, waitOrder }) :=
    put (h.of_eq rfl rfl) hx
  exact hput.of_eq rfl rfl

theorem conclude (h : Spares own s t) (hx : own (site.run, x.place)) {result : AttemptResult}
    (hr : ∀ e, result = .error e → e.1.isRetryable = true) {again : Nat → Schedule μ → Schedule μ}
    (hagain : ∀ n, Spares own s (again n t)) :
    Spares own s (Schedule.conclude b site x since slot again number result t) := by
  unfold Schedule.conclude
  split
  · next outcome hv =>
    refine h.finish (fun err he => ?_) ..
    unfold RuntimePolicy.verdict at hv
    split at hv
    · cases hv
      cases he
    · split at hv
      · cases hv
      · cases hv
        cases he
        exact hr _ rfl
  · exact hagain _
  · exact h.rests hx t.world (.pausing ..) _ _

theorem attempt (h : Spares own s t) (hx : own (site.run, x.place)) (left number : Nat) :
    Spares own s (Schedule.attempt b site x since slot left number t) := by
  induction left generalizing number t with
  | zero =>
    unfold Schedule.attempt
    dsimp only
    split
    · exact h.rests hx _ (.attempting ..) _ _
    · refine conclude (h.of_eq ?_ ?_) (by exact hx) (fun _ => Site.isRetryable_of_judge)
        fun _ => h.of_eq ?_ ?_ <;> rfl
  | succ left ih =>
    unfold Schedule.attempt
    dsimp only
    split
    · exact h.rests hx _ (.attempting ..) _ _
    · refine conclude (h.of_eq ?_ ?_) (by exact hx) (fun _ => Site.isRetryable_of_judge)
        fun n => ih (h.of_eq ?_ ?_) n <;> rfl

theorem begin (h : Spares own s t) (hx : own (site.run, x.place)) :
    Spares own s (Schedule.begin b site x t) := by
  unfold Schedule.begin
  split
  · refine h.finish (fun err he => ?_) ..
    cases he
    rfl
  · exact h.attempt (by exact hx) _ _

theorem enterRun (h : Spares own s t) (hx : own (site.run, x.place)) :
    Spares own s (Schedule.enterRun b site x since t) := by
  unfold Schedule.enterRun
  split
  · exact h
  · dsimp only
    split
    · exact begin (h.permits site.run fun _ => _) hx
    · exact put (h.permits site.run fun _ => _) hx

theorem enter (h : Spares own s t) (hx : own (site.run, x.place)) :
    Spares own s (Schedule.enter b site x t) := by
  unfold Schedule.enter
  dsimp only
  split
  · exact enterRun (h.of_eq rfl rfl) hx
  · split
    · exact enterRun (h.of_eq rfl rfl) hx
    · refine put (h.of_eq ?_ ?_) hx <;> rfl

theorem resume (h : Spares own s t) (hx : own (site.run, x.place))
    {next : Activity (World μ) (Except InvokeError Json)} {wake limit : Alarm} :
    Spares own s (Schedule.resume b site x since number slot next wake limit t) := by
  have htimeout : ∀ e, (Except.error (.timeout, s!"attempt timed out after {site.node.policy.timeoutMs}ms") :
      AttemptResult) = .error e → e.1.isRetryable = true := fun e he => by
    cases he
    rfl
  unfold Schedule.resume
  dsimp only
  split
  · split
    · refine conclude (h.of_eq ?_ ?_) hx (fun _ => Site.isRetryable_of_judge)
        fun n => attempt (h.of_eq ?_ ?_) hx _ n <;> rfl
    · split
      · exact conclude (h.rests hx _ (.attempting ..) _ _) (by exact hx) htimeout fun n =>
          attempt (h.rests hx _ (.attempting ..) _ _) hx _ n
      · exact h.rests hx _ (.attempting ..) _ _
  · split
    · exact h.conclude hx htimeout fun n => h.attempt hx _ n
    · exact h

/-- A turn of an execution acts on this execution only. -/
theorem turnNode (h : Spares own s t) (hx : own (run, place)) : Spares own s (t.turnNode b run place) := by
  unfold Schedule.turnNode
  split
  · next r site _ hsite =>
    obtain ⟨rfl, _⟩ := of_site? hsite
    split
    · exact h
    · next x hexec =>
      have hx : own (site.run, x.place) := Run.place_of_execution? hexec ▸ hx
      split
      · exact h.finishCancelled _ _
      · split
        · exact h.enter hx
        · exact h.enterRun hx
        · exact h.begin hx
        · exact h
        · exact h.resume hx
        · split
          · exact h.attempt hx _ _
          · exact h
  · exact h

theorem stopNodes (h : Spares own s t) (run : Nat) : Spares own s (t.stopNodes run) := by
  unfold Schedule.stopNodes
  split
  · exact h
  · split
    · exact h
    · refine List.foldlRecOn (motive := fun u => Spares own s u) _ _ ?_ fun _ hu _ _ => hu.wake _
      exact h.adjust (fun _ => rfl) (fun _ _ => rfl) fun _ _ => List.Subset.refl _

theorem cancel (h : Spares own s t) (traceId : String) : Spares own s (t.cancel traceId).2 := by
  unfold Schedule.cancel
  refine List.foldlRecOn (motive := fun u => Spares own s u) _ _ h fun u hu i _ => ?_
  split
  · exact hu
  · exact wake (adjust (f := fun r => { r with cancelled := true }) (hu.stopNodes i) (fun _ => rfl)
      (fun _ => id) fun _ _ => List.Subset.refl _) _

theorem abort (h : Spares own s t) (run : Nat) (err : RunError) : Spares own s (t.abort run err) :=
  stopNodes (adjust (f := fun r => { r with progress := r.progress.abort err }) h (fun _ => rfl) (fun _ => id)
    fun _ _ => List.Subset.refl _) run

theorem close (h : Spares own s t) (run : Nat) (r : Run μ) : Spares own s (t.close run r) := by
  have hended : Spares own s (t.change run (fun r => { r with ended := true })) :=
    h.adjust (fun _ => rfl) (fun _ => id) fun _ _ => List.Subset.refl _
  exact hended.of_eq rfl rfl

end Spares

theorem Spares.startReady (h : Spares own s t) (run : Nat) : Spares own s (t.startReady run) := by
  unfold Schedule.startReady
  split
  · exact h
  · unfold Schedule.launch
    refine List.foldlRecOn (motive := fun u => Spares own s u) _ _
      (h.adjust (fun _ => by rfl) (fun _ => id) fun _ _ => List.Subset.refl _) fun u hu p _ => ?_
    split
    · refine (change (hu.of_eq ?_ ?_) fun r _ => .launch p.1 p.2).wake _ <;> rfl
    · exact (hu.change fun r _ => .launch p.1 p.2).wake _

/-- A look takes at most the first of the ends into account that were not yet. -/
theorem Spares.look {r : Run μ} (hr : s.runs[run]? = some r) : Spares own s (s.look run r) := by
  have halarm : ∀ alarm, Spares own s (s.change run (fun r => { r with alarm })) :=
    fun alarm => (refl s).adjust (fun _ => rfl) (fun _ => id) fun _ _ => List.Subset.refl _
  unfold Schedule.look
  split
  · exact (refl s).abort run _
  · split
    · exact (refl s).abort run _
    · split
      · next c rest hf =>
        have hjoin : Spares own s (s.change run (fun r' => { r' with
            progress := r.progress.complete r.plan r.context c, finished := rest })) := by
          refine adjust (refl s) (fun _ => by rfl) (fun _ => id) fun r' hr' => ?_
          cases hr.symm.trans hr'
          exact hf ▸ List.subset_cons_self c rest
        dsimp only
        split
        · exact hjoin.stopNodes run
        · exact hjoin
      · split
        · exact refl s
        · exact (halarm _).of_eq rfl rfl

theorem Spares.exists_run (h : Spares own s t) {r : Run μ} (hr : s.runs[run]? = some r) :
    ∃ r', t.runs[run]? = some r' ∧ r.Spared (fun place => own (run, place)) r' := by
  have hlt : run < t.runs.length := h.length ▸ (List.getElem?_eq_some_iff.mp hr).1
  obtain ⟨r₀, hr₀, hspared⟩ := h.runs run _ (List.getElem?_eq_getElem hlt)
  cases hr.symm.trans hr₀
  exact ⟨_, List.getElem?_eq_getElem hlt, hspared⟩

end Schedule

open Schedule

variable {e : Engine μ} {s t : Schedule μ} {ev : Event}

/-- Whatever happens, executions are not acted on but by their own turns. -/
theorem Happens.spares (ht : Happens e s ev t) (hb : ev ≠ .begun) (hr : ev ≠ .rested) :
    Spares (fun k => ev = .worked k.1 k.2) s t := by
  cases ht with
  | begin => exact absurd rfl hb
  | start => exact (Spares.refl s).startReady _
  | close => exact (Spares.refl s).close _ _
  | look h => exact Spares.look h
  | work run place => exact (Spares.refl s).turnNode rfl
  | cancel => exact (Spares.refl s).cancel _
  | rest => exact absurd rfl hr

/-- A run is there whatever happens then, and its executions are acted on only by their own turns. -/
theorem Happens.exists_spared {run : Nat} {r : Run μ} (ht : Happens e s ev t) (hr : s.runs[run]? = some r) :
    ∃ r', t.runs[run]? = some r' ∧ r.Spared (fun place => ev = .worked run place) r' := by
  by_cases hb : ev = .begun
  · subst hb
    cases ht
    exact ⟨r, (List.getElem?_append_left (List.getElem?_eq_some_iff.mp hr).1).trans hr, .refl r⟩
  by_cases hrest : ev = .rested
  · subst hrest
    cases ht with
    | rest _ _ _ hruns _ _ => exact ⟨r, hruns ▸ hr, .refl r⟩
  · exact (ht.spares hb hrest).exists_run hr

end Workflow
