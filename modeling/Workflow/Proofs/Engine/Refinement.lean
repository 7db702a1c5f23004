import Workflow.Proofs.Engine.Events

namespace Workflow

variable {μ : Type}

/-- A run comes of what was made ready: it has come by moves of its coordination from the inputs there to the
state in which it is seen. -/
structure View.ComesOf (v : View) (p : Prepared μ) : Prop where
  plan : v.plan = p.plan
  context : v.context = p.context
  valid : v.Valid
  coordinated : v.Coordinated p.inputs

theorem View.ComesOf.moved {v w : View} {p : Prepared μ} {called : Bool} (h : v.ComesOf p)
    (hm : v.Moved called w) : w.ComesOf p :=
  ⟨hm.plan_eq.trans h.plan, hm.context_eq.trans h.context, h.valid.moved hm, h.coordinated.moved h.valid hm⟩

theorem View.comesOf_ofPrepared {d : Document} {f : Flow} {p : Prepared μ} (hv : Flow.validate d = .ok f)
    (hp : Plan.ofFlow f = .ok p.plan) (c : Config) (now : Nat) :
    (Run.ofPrepared c now p).view.ComesOf p :=
  ⟨rfl, rfl, ⟨d, f, hv, hp⟩, ⟨⟨[], [], .opened, List.Perm.nil, List.Subset.refl _⟩, fun h => (by cases h),
    fun _ h => absurd h List.not_mem_nil, fun h => (by cases h)⟩⟩

/-- Every run comes of what was made ready for it. -/
def Views.Coordinated (given : List (Prepared μ)) (w : Views) : Prop :=
  List.Forall₂ (fun p v => v.ComesOf p) given w.runs

/-- The flows that are to run are those of valid workflows. -/
def Views.Sound (w : Views) : Prop :=
  ∀ f request, Errand.start f request ∈ w.errands → ∃ d, Flow.validate d = .ok f

variable {e : Engine μ} {s t : Schedule μ} {ev : Event} {es : List Event} {given : List (Prepared μ)}
variable {run place : Nat} {r : Run μ} {v : View}

namespace Views.Coordinated

theorem get {w : Views} (h : w.Coordinated given) (hv : w.runs[run]? = some v) :
    ∃ p, given[run]? = some p ∧ v.ComesOf p := by
  obtain ⟨hlt, rfl⟩ := List.getElem?_eq_some_iff.mp hv
  have hlt' : run < given.length := h.length_eq ▸ hlt
  exact ⟨given[run], List.getElem?_eq_getElem hlt', h.get hlt' hlt⟩

theorem executions_nodup {w : Views} (h : w.Coordinated given) :
    ∀ v ∈ w.runs, (v.executions.map Prod.fst).Nodup := by
  intro v hv
  obtain ⟨run, hrun⟩ := List.mem_iff_getElem?.mp hv
  obtain ⟨_, _, hc⟩ := h.get hrun
  exact hc.coordinated.executions_nodup hc.valid

end Views.Coordinated

open Schedule

theorem Schedule.coordinated_enrol (h : s.views.Coordinated given) {d : Document} {f : Flow}
    {p : Prepared μ} (hv : Flow.validate d = .ok f) (hp : Plan.ofFlow f = .ok p.plan) (c : Config) :
    (s.enrol (.ofPrepared c s.now p)).2.views.Coordinated (given ++ [p]) := by
  rw [Views.Coordinated, runs_enrol]
  exact List.rel_append h (.cons (View.comesOf_ofPrepared hv hp _ _) .nil)

theorem Schedule.coordinated_nil (h : s.runs = []) : s.views.Coordinated ([] : List (Prepared μ)) := by
  rw [Views.Coordinated, Schedule.views, h]
  exact .nil

theorem Schedule.forall_views_nil (h : s.runs = []) (I : View → Prop) : ∀ v ∈ s.views.runs, I v := by
  rw [Schedule.views, h]
  exact fun _ hv => absurd hv List.not_mem_nil

/-- Whatever happens, runs come of what was made ready, and one more may be put under way. -/
theorem Happens.coordinated (h : s.views.Coordinated given) (ht : Happens e s ev t) :
    ∃ more, t.views.Coordinated (given ++ more) := by
  rcases ht.same h.executions_nodup with hsame | ⟨d, f, p, hv, hp, rfl⟩
  · have hlen : given.length = t.views.runs.length := h.length_eq.trans hsame.runs.symm
    refine ⟨[], ?_⟩
    rw [List.append_nil, Views.Coordinated, List.forall₂_iff_get]
    refine ⟨hlen, fun i hi hi' => ?_⟩
    have hs : i < s.views.runs.length := h.length_eq ▸ hi
    obtain ⟨w, hw, hm⟩ := ht.moved h.executions_nodup (List.getElem?_eq_getElem hs)
    rw [List.getElem?_eq_getElem hi', Option.some.injEq] at hw
    rw [List.get_eq_getElem, List.get_eq_getElem, hw]
    exact (List.Forall₂.get h hi hs).moved hm
  · exact ⟨[p], Schedule.coordinated_enrol h hv hp e.config⟩

theorem Leads.coordinated (h : s.views.Coordinated given) (ht : Leads e s es t) :
    ∃ more, t.views.Coordinated (given ++ more) := by
  induction ht with
  | refl => exact ⟨[], (List.append_nil given).symm ▸ h⟩
  | step _ hs ih =>
    obtain ⟨more, hmore⟩ := ih
    obtain ⟨last, hlast⟩ := hs.coordinated hmore
    exact ⟨more ++ last, (List.append_assoc given more last) ▸ hlast⟩

/-- What holds of new runs, and what runs keep whatever happens to them, holds of all runs at all times. -/
theorem Leads.invariant {I : View → Prop} (hnew : ∀ c now (p : Prepared μ), I (Run.ofPrepared c now p).view)
    (hmoved : ∀ {v w : View} {p : Prepared μ} {called : Bool}, v.ComesOf p → I v → v.Moved called w → I w)
    (h : s.views.Coordinated given) (hi : ∀ v ∈ s.views.runs, I v) (ht : Leads e s es t) :
    ∀ v ∈ t.views.runs, I v := by
  induction ht with
  | refl => exact hi
  | step hled hs ih =>
    obtain ⟨_, hc⟩ := hled.coordinated h
    intro w hw
    obtain ⟨i, hi⟩ := List.mem_iff_getElem?.mp hw
    rcases hs.same hc.executions_nodup with hsame | ⟨d, f, p, hv, hp, rfl⟩
    · have hlt := hsame.runs ▸ (List.getElem?_eq_some_iff.mp hi).1
      obtain ⟨w', hw', hm⟩ := hs.moved hc.executions_nodup (List.getElem?_eq_getElem hlt)
      cases hi.symm.trans hw'
      obtain ⟨p, _, hp⟩ := hc.get (List.getElem?_eq_getElem hlt)
      exact hmoved hp (ih _ (List.getElem_mem hlt)) hm
    · rw [runs_enrol] at hw
      rcases List.mem_append.mp hw with hw | hw
      · exact ih w hw
      · rw [List.mem_singleton.mp hw]
        exact hnew _ _ _

theorem Leads.errands_eq (h : s.views.Coordinated given) (ht : Leads e s es t) :
    t.views.errands = s.views.errands := by
  induction ht with
  | refl => rfl
  | step hled hs ih =>
    obtain ⟨_, hmore⟩ := hled.coordinated h
    rcases hs.same hmore.executions_nodup with hsame | ⟨_, _, _, _, _, rfl⟩
    · exact hsame.errands.trans ih
    · exact ih

theorem Engine.prepare_eq_ok {e : Engine μ} {f : Flow} {request : Request} {p : Prepared μ}
    (h : e.prepare f request = .ok p) :
    Plan.ofFlow f = .ok p.plan ∧ p.inputs = request.inputs := by
  simp only [prepare, bind, Except.bind, pure, Except.pure] at h
  split at h
  · cases h
  · split at h
    · cases h
    · split at h
      · cases h
      · next plan hplan =>
        split at h
        · cases h
        · cases h
          refine ⟨?_, rfl⟩
          cases hf : Plan.ofFlow f with
          | error err =>
            rw [hf] at hplan
            cases hplan
          | ok q =>
            rw [hf] at hplan
            cases hplan
            rfl

namespace Schedule

theorem startReady_cases (hr : (s.startReady run).runs[run]? = some r) :
    ∃ v, s.views.runs[run]? = some v ∧ r.view = v.round := by
  have hv := views_of_getElem? hr
  rw [views_startReady, Views.modify, List.getElem?_modify_eq] at hv
  obtain ⟨v, hv, hround⟩ := Option.map_eq_some_iff.mp hv
  exact ⟨v, hv, hround.symm⟩

theorem ne_nil_of_busy (h : ¬ (r.executions.isEmpty = true ∧ r.finished.isEmpty = true)) :
    r.executions ≠ [] ∨ r.finished ≠ [] := by
  rw [List.isEmpty_iff, List.isEmpty_iff] at h
  exact not_and_or.mp h

theorem leads_turnRun (h : s.views.Coordinated given) (run fuel : Nat)
    (he : ∀ v, s.views.runs[run]? = some v → v.ended = false) : ∃ es, Leads e s es (turnRun run fuel s) := by
  induction fuel generalizing s given with
  | zero => exact ⟨[], .refl⟩
  | succ fuel ih =>
    have hstart : Happens e s (.started run) (s.startReady run) := .start
    obtain ⟨more, hstarted⟩ := hstart.coordinated h
    unfold turnRun
    dsimp only
    split
    · exact ⟨_, hstart.leads⟩
    · next r hr =>
      -- the run has not ended while its coordination has its turn, which is what a look asks for
      obtain ⟨v, hv, hround⟩ := startReady_cases hr
      have hended : r.ended = false := (congrArg View.ended hround).trans (he v hv)
      split
      · next hidle =>
        obtain ⟨_, _, hc⟩ := Views.Coordinated.get h hv
        have hdone := hc.coordinated.round_done hc.valid
        rw [← hround] at hdone
        exact ⟨_, hstart.leads.step
          (.close hr (List.isEmpty_iff.mp hidle.1) (List.isEmpty_iff.mp hidle.2) hdone)⟩
      · next hbusy =>
        have hne := ne_nil_of_busy hbusy
        have hlook : Happens e (s.startReady run) _ ((s.startReady run).look run r) := .look hr hended hne
        have hled := hstart.leads.step hlook
        split
        · exact ⟨_, hled⟩
        · obtain ⟨last, hlooked⟩ := hlook.coordinated hstarted
          obtain ⟨g, hviews, hl⟩ := views_look hr hended hne
          obtain ⟨es, hes⟩ := ih hlooked fun w hw => by
            rw [hviews, Views.modify, List.getElem?_modify_eq, views_of_getElem? hr] at hw
            cases hw
            exact hl.ended.trans hended
          exact ⟨_, hled.trans hes⟩

theorem leads_coordinate (h : s.views.Coordinated given) (run : Nat) :
    ∃ es, Leads e s es (s.coordinate run) := by
  unfold coordinate
  split
  · exact ⟨[], .refl⟩
  · next r hr =>
    split
    · exact ⟨[], .refl⟩
    · next he =>
      refine leads_turnRun h run _ fun v hv => ?_
      cases (views_of_getElem? hr).symm.trans hv
      exact Bool.eq_false_iff.mpr he

theorem leads_coordinate_of_leads {s₀ : Schedule μ} (h₀ : s₀.runs = []) (h : Leads e s₀ es s) (run : Nat) :
    ∃ es', Leads e s₀ (es ++ es') (s.coordinate run) := by
  obtain ⟨_, hc⟩ := h.coordinated (coordinated_nil h₀)
  obtain ⟨es', hes'⟩ := leads_coordinate (e := e) hc run
  exact ⟨es', h.trans hes'⟩

theorem leads_perform (h : s.views.Coordinated given) (hs : s.views.Sound) {errand : Errand}
    (hm : errand ∈ s.views.errands) : ∃ es, Leads e s es (s.perform e errand).2 := by
  cases errand with
  | start f request =>
    rw [perform]
    split
    · exact ⟨[], .refl⟩
    · next p hp =>
      obtain ⟨d, hd⟩ := hs f request hm
      have hbegin : Happens e s .begun _ := .begin hd (Engine.prepare_eq_ok hp).1
      obtain ⟨_, hbegun⟩ := hbegin.coordinated h
      obtain ⟨es, hes⟩ := leads_coordinate (e := e) hbegun s.runs.length
      exact ⟨_, hbegin.leads.trans hes⟩
  | cancel traceId =>
    cases traceId with
    | none => exact ⟨[], .refl⟩
    | some traceId => exact ⟨_, Happens.cancel.leads⟩

theorem tasks_setErrand (s : Schedule μ) (place : Nat) (state : ErrandState) :
    (s.setErrand place state).errands.map (fun x => x.2.1) = s.errands.map (fun x => x.2.1) := by
  refine List.ext_getElem? fun i => ?_
  simp only [setErrand, List.getElem?_map, List.getElem?_modify]
  split
  · rw [Option.map_eq_map, Option.map_map]
    rfl
  · rw [Option.map_eq_map, Option.map_id_fun']
    rfl

theorem rests_setErrand (place : Nat) (state : ErrandState) :
    Happens e s .rested (s.setErrand place state) :=
  .rest rfl rfl rfl rfl (Nat.le_refl _) (tasks_setErrand s place state)

theorem leads_turnErrand (h : s.views.Coordinated given) (hs : s.views.Sound) (place : Nat) :
    ∃ es, Leads e s es (s.turnErrand e place) := by
  unfold turnErrand
  split
  · next delay errand alarm hplace =>
    have hm : errand ∈ s.views.errands := List.mem_map.mpr ⟨_, List.mem_of_getElem? hplace, rfl⟩
    obtain ⟨es, hes⟩ := leads_perform (e := e) h hs hm
    have hdone := hes.step (rests_setErrand place (s.perform e errand).1)
    have hwait : ∀ a : Alarm, Happens e s .rested
        { s.setErrand place (.waiting (some a)) with order := s.order + 1 } :=
      fun a => .rest rfl rfl rfl rfl (Nat.le_refl _) (tasks_setErrand s place _)
    cases alarm with
    | none =>
      dsimp only
      split
      · exact ⟨_, hdone⟩
      · exact ⟨_, (hwait _).leads⟩
    | some a =>
      dsimp only
      split
      · exact ⟨_, hdone⟩
      · exact ⟨[], .refl⟩
  · exact ⟨[], .refl⟩

theorem leads_turn (h : s.views.Coordinated given) (hs : s.views.Sound) (job : Job) :
    ∃ es, Leads e s es (s.turn e job) := by
  cases job with
  | errand place => exact leads_turnErrand h hs place
  | run run => exact leads_coordinate h run
  | node run place => exact ⟨_, (Happens.work run place).leads⟩

theorem rests_ring? (h : s.ring? = some t) : Happens e s .rested t := by
  unfold ring? at h
  dsimp only at h
  split at h
  · cases h
  · cases h
    have hwake : ∀ (jobs : List (Alarm × Job)) (u : Schedule μ), ∃ queue,
        jobs.foldl (fun s p => s.wake p.2) u = { u with queue } := by
      intro jobs
      induction jobs with
      | nil => exact fun u => ⟨u.queue, rfl⟩
      | cons p jobs ih =>
        intro u
        rw [List.foldl_cons]
        unfold wake
        split
        · exact ih u
        · obtain ⟨queue, hq⟩ := ih { u with queue := u.queue ++ [p.2] }
          exact ⟨queue, hq⟩
    obtain ⟨queue, hq⟩ := hwake _ _
    rw [hq]
    exact .rest rfl rfl rfl rfl (Nat.le_max_left _ _) rfl

theorem leads_step? (h : s.views.Coordinated given) (hs : s.views.Sound) (ht : s.step? e = some t) :
    ∃ es, Leads e s es t := by
  unfold step? at ht
  split at ht
  · next job rest _ =>
    cases ht
    have hpop : Happens e s .rested { s with queue := rest } := .rest rfl rfl rfl rfl (Nat.le_refl _) rfl
    obtain ⟨es, hes⟩ := leads_turn (s := { s with queue := rest }) h hs job
    exact ⟨_, hpop.leads.trans hes⟩
  · exact ⟨_, (rests_ring? ht).leads⟩

/-- What an engine does are things that happen one after the other. -/
theorem leads_advance (h : s.views.Coordinated given) (hs : s.views.Sound) (n : Nat) :
    ∃ es, Leads e s es (s.advance e n) := by
  induction n generalizing s given with
  | zero => exact ⟨[], .refl⟩
  | succ n ih =>
    rw [advance]
    split
    · next t ht =>
      obtain ⟨es, hes⟩ := leads_step? h hs ht
      obtain ⟨_, hmore⟩ := hes.coordinated h
      have hsound : t.views.Sound := by
        unfold Views.Sound
        rw [hes.errands_eq h]
        exact hs
      obtain ⟨es', hes'⟩ := ih hmore hsound
      exact ⟨_, hes.trans hes'⟩
    · exact ⟨[], .refl⟩

theorem leads_doErrands (h : s.views.Coordinated given) {errands : List (Nat × Errand)}
    (hf : ∀ delay f request, (delay, Errand.start f request) ∈ errands → ∃ d, Flow.validate d = .ok f) :
    ∃ es, Leads e { s with
      errands := errands.map (fun x => (x.1, x.2, .waiting none))
      queue := (List.range errands.length).map Job.errand } es (s.doErrands e errands) := by
  refine leads_advance (s := { s with
    errands := errands.map (fun x => (x.1, x.2, .waiting none))
    queue := (List.range errands.length).map Job.errand }) h (fun f request hm => ?_) _
  obtain ⟨_, hwaits, heq⟩ := List.mem_map.mp hm
  obtain ⟨⟨delay, errand⟩, hmem, rfl⟩ := List.mem_map.mp hwaits
  cases heq
  exact hf delay f request hmem

/-- The coordination of a run has its turn until it has taken all ends into account. -/
theorem finished_turnRun (fuel : Nat) (hr : s.runs[run]? = some r) (he : r.ended = false)
    (hfuel : r.view.rounds < fuel) :
    ∃ r', (turnRun run fuel s).runs[run]? = some r' ∧ r'.finished = [] := by
  induction fuel generalizing s r with
  | zero => cases hfuel
  | succ fuel ih =>
    obtain ⟨r₁, hr₁, hview₁⟩ := exists_run (views_startReady s run) hr
    have he₁ : r₁.ended = false := (congrArg View.ended hview₁).trans he
    unfold turnRun
    dsimp only
    rw [hr₁]
    dsimp only
    split
    · next hidle =>
      obtain ⟨r₂, hr₂, hview₂⟩ := exists_run (views_close _ run r₁) hr₁
      exact ⟨r₂, hr₂, (congrArg View.finished hview₂).trans (List.isEmpty_iff.mp hidle.2)⟩
    · next hbusy =>
      have hne := ne_nil_of_busy hbusy
      obtain ⟨g, hviews, hl⟩ := views_look hr₁ he₁ hne
      obtain ⟨r₂, hr₂, hview₂⟩ := exists_run hviews hr₁
      split
      · next hwaits =>
        refine ⟨r₂, hr₂, (congrArg View.finished (hview₂.trans (hl.waiting hwaits))).trans ?_⟩
        exact List.isEmpty_iff.mp (Bool.and_eq_true_iff.mp hwaits).1
      · next hwaits =>
        have hless := hl.rounds (Bool.eq_false_iff.mpr hwaits)
        rw [hview₁, View.rounds_round] at hless
        refine ih hr₂ ((congrArg View.ended hview₂).trans (hl.ended.trans he₁)) ?_
        rw [hview₂]
        rw [hview₁] at *
        omega

/-- A run that waits has taken all ends into account. -/
theorem finished_coordinate (h : s.views.Coordinated given) (hr : s.runs[run]? = some r)
    {r' : Run μ} (hr' : (s.coordinate run).runs[run]? = some r') : r'.finished = [] := by
  rw [coordinate, hr] at hr'
  dsimp only at hr'
  split at hr'
  · next he =>
    cases hr.symm.trans hr'
    obtain ⟨_, _, hc⟩ := h.get (views_of_getElem? hr)
    exact (hc.coordinated.ended he).2.1
  · next he =>
    have hfuel : r.view.rounds < r.finished.length + 3 := by
      unfold View.rounds
      split
      · exact Nat.lt_add_of_pos_right (by decide)
      · exact Nat.add_lt_add_left (by decide) _
    obtain ⟨r₁, hr₁, hnil⟩ := finished_turnRun _ hr (Bool.eq_false_iff.mpr he) hfuel
    cases hr₁.symm.trans hr'
    exact hnil

/-- Every run of an engine is where moves from its inputs lead, and one that has ended has nothing left to
do. -/
theorem exists_reached (h : s.views.Coordinated given) (hr : s.runs[run]? = some r) :
    ∃ p ms running, given[run]? = some p ∧ r.plan = p.plan ∧ r.context = p.context ∧
      Coordination.Reached r.plan r.context p.inputs ms ⟨r.progress, running⟩ ∧
      (r.ended = true → Coordination.Ended ⟨r.progress, running⟩) := by
  obtain ⟨p, hp, hc⟩ := h.get (views_of_getElem? hr)
  obtain ⟨ms, running, hreached, hperm, _⟩ := hc.coordinated.reached
  refine ⟨p, ms, running, hp, hc.plan, hc.context, hreached, fun he => ?_⟩
  obtain ⟨hx, hfin, hdone⟩ := hc.coordinated.ended he
  rw [hx, hfin] at hperm
  exact ⟨List.map_eq_nil_iff.mp hperm.eq_nil, hdone⟩

end Schedule

/-- A run that was put under way is there whatever happens then, and comes of what was made ready for it. -/
theorem Leads.exists_comesOf (h : s.views.Coordinated given) {d : Document} {f : Flow} {p : Prepared μ}
    (hv : Flow.validate d = .ok f) (hp : Plan.ofFlow f = .ok p.plan)
    (ht : Leads e (s.enrol (.ofPrepared e.config s.now p)).2 es t) :
    ∃ r, t.runs[s.runs.length]? = some r ∧ r.view.ComesOf p := by
  obtain ⟨more, hmore⟩ := ht.coordinated (coordinated_enrol h hv hp e.config)
  have hgiven : given.length = s.runs.length := h.length_eq.trans (List.length_map _)
  have hget : (given ++ [p] ++ more)[s.runs.length]? = some p := by
    rw [← hgiven, List.append_assoc, List.getElem?_append_right (Nat.le_refl _), Nat.sub_self]
    rfl
  have hlt : s.runs.length < t.runs.length := by
    have hlen : (given ++ [p] ++ more).length = t.runs.length := hmore.length_eq.trans (List.length_map _)
    simp only [List.length_append, List.length_singleton] at hlen
    omega
  have hr := List.getElem?_eq_getElem hlt
  obtain ⟨_, hp', hc⟩ := hmore.get (views_of_getElem? hr)
  cases hget.symm.trans hp'
  exact ⟨_, hr, hc⟩

namespace Engine

open Schedule

variable {d : Document} {f : Flow}

theorem leads_complete (h : s.views.Coordinated given) (hs : s.views.Sound) {p : Prepared μ}
    (hv : Flow.validate d = .ok f) (hp : Plan.ofFlow f = .ok p.plan) :
    ∃ es, Leads e (s.enrol (.ofPrepared e.config s.now p)).2 es (e.complete p s).2 := by
  have hbegun := coordinated_enrol h hv hp e.config
  obtain ⟨es, hes⟩ := leads_coordinate (e := e) hbegun s.runs.length
  obtain ⟨_, hmore⟩ := hes.coordinated hbegun
  have hsound : ((s.enrol (.ofPrepared e.config s.now p)).2.coordinate s.runs.length).views.Sound := by
    unfold Views.Sound
    rw [hes.errands_eq hbegun]
    exact hs
  obtain ⟨es', hes'⟩ := leads_advance (e := e) hmore hsound (2 * p.plan.flow.turns e.rests)
  exact ⟨_, hes.trans hes'⟩

theorem report_complete {p : Prepared μ} (hr : (e.complete p s).2.runs[s.runs.length]? = some r) :
    (e.complete p s).1 = r.report := by
  have hreport : (e.complete p s).1 = ((((e.complete p s).2.runs[s.runs.length]?)).getD
      (.ofPrepared e.config s.now p)).report := rfl
  rw [hreport, hr, Option.getD_some]

/-- The report of a run that is done to its end tells where moves from its inputs lead. -/
theorem complete_reached (h : s.views.Coordinated given) (hs : s.views.Sound) {p : Prepared μ}
    (hv : Flow.validate d = .ok f) (hp : Plan.ofFlow f = .ok p.plan) :
    ∃ ms c, Coordination.Reached p.plan p.context p.inputs ms c ∧
      (e.complete p s).1 = c.progress.report p.plan p.context.traceId := by
  obtain ⟨es, hes⟩ := leads_complete (e := e) h hs hv hp
  obtain ⟨r, hr, hc⟩ := hes.exists_comesOf h hv hp
  obtain ⟨ms, running, hreached, _⟩ := hc.coordinated.reached
  have hplan : r.plan = p.plan := hc.plan
  have hcontext : r.context = p.context := hc.context
  refine ⟨ms, ⟨r.progress, running⟩, hc.plan ▸ hc.context ▸ hreached, ?_⟩
  rw [report_complete hr, Run.report, hplan, hcontext]

/-- So does the report of a request. -/
theorem execute_reached (h : s.views.Coordinated given) (hs : s.views.Sound)
    (hv : Flow.validate d = .ok f) {request : Request} {report : Report}
    (hr : (e.execute f request s).1 = .ok report) :
    ∃ p ms c, e.prepare f request = .ok p ∧
      Coordination.Reached p.plan p.context request.inputs ms c ∧
      report = c.progress.report p.plan p.context.traceId := by
  unfold execute at hr
  split at hr
  · cases hr
  · next p hp =>
    obtain ⟨hplan, hinputs⟩ := Engine.prepare_eq_ok hp
    obtain ⟨ms, c, hreached, hreport⟩ := complete_reached (e := e) h hs hv hplan
    cases hr
    exact ⟨p, ms, c, hp, hinputs ▸ hreached, hreport⟩

end Engine

end Workflow
