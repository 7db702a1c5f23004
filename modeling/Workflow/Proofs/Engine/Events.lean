import Workflow.Proofs.Engine.Coordinated

namespace Workflow

variable {μ : Type}

/-- What happens in an engine at a time. A run is put under way; its coordination starts what is ready,
closes the run, or looks at it and finds it called off or not; an execution has its turn; the runs of a
trace id are cancelled; or time passes, and jobs come and go. -/
inductive Event where
  | begun
  | started (run : Nat)
  | closed (run : Nat)
  | looked (run : Nat) (called : Bool)
  | worked (run place : Nat)
  | cancelled (traceId : String)
  | rested

/-- Whether a run is found called off. -/
def Event.calls (run : Nat) : Event → Bool
  | looked other called => other = run && called
  | _ => false

/-- How an engine goes on. The coordination of a run looks at it only while something of it is under way,
and closes it when nothing is, and nothing is to start. Executions have their turns in any order. -/
inductive Happens (e : Engine μ) (s : Schedule μ) : Event → Schedule μ → Prop
  | begin {d : Document} {f : Flow} {p : Prepared μ} (hv : Flow.validate d = .ok f)
      (hp : Plan.ofFlow f = .ok p.plan) :
      Happens e s .begun (s.enrol (.ofPrepared e.config s.now p)).2
  | start {run : Nat} : Happens e s (.started run) (s.startReady run)
  | close {run : Nat} {r : Run μ} (hr : s.runs[run]? = some r) (hx : r.executions = [])
      (hf : r.finished = []) (hd : r.progress.ready = [] ∨ r.progress.isStopping = true) :
      Happens e s (.closed run) (s.close run r)
  | look {run : Nat} {r : Run μ} (hr : s.runs[run]? = some r) (he : r.ended = false)
      (hne : r.executions ≠ [] ∨ r.finished ≠ []) :
      Happens e s (.looked run (r.isCalled s.now)) (s.look run r)
  | work (run place : Nat) :
      Happens e s (.worked run place) (s.turnNode e.config.backoff run place)
  | cancel {traceId : String} : Happens e s (.cancelled traceId) (s.cancel traceId).2
  | rest {t : Schedule μ} (hw : t.world = s.world) (hl : t.limits = s.limits)
      (hg : t.registry = s.registry) (hr : t.runs = s.runs) (hn : s.now ≤ t.now)
      (he : t.errands.map (fun x => x.2.1) = s.errands.map (fun x => x.2.1)) : Happens e s .rested t

/-- One thing happens after the other. -/
inductive Leads (e : Engine μ) (s : Schedule μ) : List Event → Schedule μ → Prop
  | refl : Leads e s [] s
  | step {es : List Event} {ev : Event} {t u : Schedule μ} (h : Leads e s es t)
      (hs : Happens e t ev u) : Leads e s (es ++ [ev]) u

variable {e : Engine μ} {s t u : Schedule μ} {ev : Event} {es es' : List Event}

theorem Leads.trans (h : Leads e s es t) (h' : Leads e t es' u) : Leads e s (es ++ es') u := by
  induction h' with
  | refl => exact (List.append_nil es).symm ▸ h
  | step _ hs ih =>
    rw [← List.append_assoc]
    exact ih.step hs

theorem Happens.leads (h : Happens e s ev t) : Leads e s [ev] t := Leads.refl.step h

theorem Happens.later {n : Nat} (h : s.now ≤ n) : Happens e s .rested { s with now := n } :=
  .rest rfl rfl rfl rfl h rfl

variable {run place : Nat} {r : Run μ} {g : View → View} {v : View}

theorem Views.modify_moved {w : Views} {i : Nat} {called : Bool} (hm : i = run → v.Moved called (g v))
    (hc : i ≠ run → called = false) (hv : w.runs[run]? = some v) :
    ∃ v', (w.modify i g).runs[run]? = some v' ∧ v.Moved called v' := by
  simp only [modify, List.getElem?_modify, hv]
  by_cases hi : i = run
  · exact ⟨g v, by simp [hi], hm hi⟩
  · refine ⟨v, by simp [hi], ?_⟩
    rw [hc hi]
    exact .stay false fun h => by cases h

/-- The runs and the errands are the same ones, whatever has become of them. -/
structure Views.Same (w w' : Views) : Prop where
  errands : w'.errands = w.errands
  runs : w'.runs.length = w.runs.length

theorem Views.Same.modify {w w' : Views} (h : w.Same w') (run : Nat) (g : View → View) :
    w.Same (w'.modify run g) :=
  ⟨h.errands, by rw [Views.modify, List.length_modify, h.runs]⟩

namespace Schedule

theorem view_of_views (h : s.views.runs[run]? = some v) :
    ∃ r, s.runs[run]? = some r ∧ r.view = v := by
  rwa [runs_views, Option.map_eq_some_iff] at h

theorem views_of_getElem? (h : s.runs[run]? = some r) : s.views.runs[run]? = some r.view := by
  rw [runs_views, h, Option.map_some]

theorem exists_run (ht : t.views = s.views.modify run g) (hr : s.runs[run]? = some r) :
    ∃ r', t.runs[run]? = some r' ∧ r'.view = g r.view := by
  refine view_of_views ?_
  rw [ht, Views.modify, List.getElem?_modify_eq, views_of_getElem? hr]
  rfl

theorem views_abort (e : RunError) : (s.abort run e).views = s.views.modify run (View.abort e) := by
  rw [abort, views_stopNodes, views_change (g := fun v => { v with progress := v.progress.abort e })
    fun _ _ => rfl, Views.modify_modify]
  rfl

theorem views_startReady (s : Schedule μ) (run : Nat) :
    (s.startReady run).views = s.views.modify run View.round := by
  unfold startReady
  split
  · next hr =>
    have hlen : s.views.runs.length ≤ run := by
      rw [views, List.length_map]
      exact List.getElem?_eq_none_iff.mp hr
    rw [Views.modify, List.modify_eq_self hlen]
  · next r hr =>
    dsimp only
    rw [views_launch, views_change (g := fun v => { v with progress := (r.progress.round r.plan).1 })
      fun _ _ => rfl, Views.modify_modify]
    refine Views.modify_congr fun v hv => ?_
    cases (views_of_getElem? hr).symm.trans hv
    rfl

theorem views_close (s : Schedule μ) (run : Nat) (r : Run μ) :
    (s.close run r).views = s.views.modify run View.close :=
  views_change fun _ _ => rfl

theorem views_settle {c : Completion} {rest : List Completion} (hv : s.views.runs[run]? = some v)
    {progress : Progress} (hp : progress = v.progress.complete v.plan v.context c) :
    (if progress.isStopping then
      (s.change run (fun r => { r with progress, finished := rest })).stopNodes run
      else s.change run (fun r => { r with progress, finished := rest })).views =
      s.views.modify run (View.settle c rest) := by
  have hjoin : (s.change run (fun r => { r with progress, finished := rest })).views =
      s.views.modify run (View.join c rest) := by
    rw [views_change (g := fun v => { v with progress, finished := rest }) fun _ _ => rfl]
    refine Views.modify_congr fun v' hv' => ?_
    cases hv.symm.trans hv'
    rw [hp]
    rfl
  have hsettle : ∀ b, progress.isStopping = b → View.settle c rest v =
      if b then (v.join c rest).stop else v.join c rest := by
    rintro b rfl
    rw [View.settle, hp]
    rfl
  split
  · next hs =>
    rw [views_stopNodes, hjoin, Views.modify_modify]
    refine Views.modify_congr fun v' hv' => ?_
    cases hv.symm.trans hv'
    exact (hsettle _ hs).symm
  · next hs =>
    rw [hjoin]
    refine Views.modify_congr fun v' hv' => ?_
    cases hv.symm.trans hv'
    exact (hsettle _ (Bool.eq_false_iff.mpr hs)).symm

/-- A look at a run that finds nothing changes nothing that is seen. One that finds something can happen
only so often. -/
structure Looked (r : Run μ) (now : Nat) (w : View) : Prop where
  moved : r.view.Moved (r.isCalled now) w
  ended : w.ended = r.ended
  waiting : r.isWaiting now = true → w = r.view
  rounds : r.isWaiting now = false → w.rounds + 1 = r.view.rounds

theorem views_look (hr : s.runs[run]? = some r) (he : r.ended = false)
    (hne : r.executions ≠ [] ∨ r.finished ≠ []) :
    ∃ g, (s.look run r).views = s.views.modify run g ∧ Looked r s.now (g r.view) := by
  have hne' : r.view.executions ≠ [] ∨ r.view.finished ≠ [] :=
    hne.imp_left fun h hx => h (List.map_eq_nil_iff.mp hx)
  have aborts : ∀ err : RunError, r.progress.aborted = false → r.isCalled s.now = true →
      ∃ g, (s.abort run err).views = s.views.modify run g ∧ Looked r s.now (g r.view) := by
    intro err ha hcalled
    have hwaits : r.isWaiting s.now = false := by simp [Run.isWaiting, ha, hcalled]
    refine ⟨_, views_abort err, ?_, rfl, fun h => ?_, fun _ => View.rounds_abort err ha⟩
    · rw [hcalled]
      exact .abort err he hne' ha
    · cases hwaits.symm.trans h
  unfold look
  split
  · next hcancel =>
    exact aborts _ (by simpa using hcancel.2) (by simp [Run.isCalled, hcancel.1])
  · next hcancel =>
    split
    · next hdue =>
      exact aborts _ (by simpa using hdue.1) (by rw [Run.isCalled, hdue.2, Bool.or_true])
    · next hdue =>
      have hc : r.cancelled = true → r.progress.aborted = true := by simpa using hcancel
      have ha : r.isCalled s.now = true → r.progress.aborted = true := by
        intro hcalled
        rcases Bool.or_eq_true_iff.mp hcalled with hcalled | hcalled
        · exact hc hcalled
        · by_contra hab
          exact hdue ⟨by simpa using hab, hcalled⟩
      split
      · next c rest hf =>
        refine ⟨_, views_settle (views_of_getElem? hr) rfl, .settle _ hf hc ha, ?_, fun h => ?_,
          fun _ => View.rounds_settle hf⟩
        · rw [View.settle_eq]
          rfl
        · simp [Run.isWaiting, hf] at h
      · next hf =>
        have hwaits : r.isWaiting s.now = true := by
          cases hcalled : r.isCalled s.now with
          | false => simp [Run.isWaiting, hf, hcalled]
          | true => simp [Run.isWaiting, hf, ha hcalled]
        have hsame : ∀ alarm, (s.change run (fun r => { r with alarm })).views = s.views :=
          fun _ => views_change_same fun _ _ => rfl
        have hid : s.views = s.views.modify run id := by rw [Views.modify, List.modify_id]
        refine ⟨id, ?_, .stay _ ha, rfl, fun _ => rfl, fun h => ?_⟩
        · split
          · exact hid
          · exact (hsame _).trans hid
        · cases hwaits.symm.trans h

/-- A run that is called off while it has executions is aborted when its coordination looks at it. -/
theorem exists_aborted (hr : s.runs[run]? = some r) (he : r.ended = false) (hx : r.executions ≠ [])
    (ha : r.progress.aborted = false) (hc : r.isCalled s.now = true) :
    ∃ r' err, (s.look run r).runs[run]? = some r' ∧ r'.view = r.view.abort err := by
  obtain ⟨g, hviews, hl⟩ := views_look hr he (.inl hx)
  obtain ⟨r', hr', hview⟩ := exists_run hviews hr
  have hm : r.view.Moved true (g r.view) := hc ▸ hl.moved
  rw [← hview] at hm
  generalize hw : r'.view = w at hm
  cases hm with
  | abort err _ _ _ => exact ⟨r', err, hr', hw⟩
  | settle _ _ _ haborted => cases ha.symm.trans (haborted rfl)
  | stay _ haborted => cases ha.symm.trans (haborted rfl)

theorem runs_enrol (s : Schedule μ) (r : Run μ) :
    (s.enrol r).2.views.runs = s.views.runs ++ [r.view] := List.map_append

theorem moved_cancel (traceId : String) (hv : s.views.runs[run]? = some v) :
    ∃ w, (s.cancel traceId).2.views.runs[run]? = some w ∧ (w = v ∨ w = v.cancel) := by
  unfold cancel
  dsimp only
  generalize s.registry.runsOf traceId = runs
  induction runs generalizing s v with
  | nil => exact ⟨v, hv, .inl rfl⟩
  | cons i runs ih =>
    rw [List.foldl_cons]
    split
    · exact ih hv
    · have hviews : (((s.stopNodes i).change i (fun r => { r with cancelled := true })).wake (.run i)).views =
          s.views.modify i View.cancel := by
        rw [views_wake, views_change (g := fun v => { v with cancelled := true }) fun _ _ => rfl,
          views_stopNodes, Views.modify_modify]
        rfl
      have hget : (s.views.modify i View.cancel).runs[run]? = some (if i = run then v.cancel else v) := by
        simp only [Views.modify, List.getElem?_modify, hv]
        rfl
      obtain ⟨w, hw, hor⟩ := ih (hviews ▸ hget)
      refine ⟨w, hw, ?_⟩
      split at hor
      · exact .inr (hor.elim id id)
      · exact hor

theorem same_cancel (s : Schedule μ) (traceId : String) : s.views.Same (s.cancel traceId).2.views := by
  unfold cancel
  dsimp only
  refine List.foldlRecOn (motive := fun t : Schedule μ => s.views.Same t.views)
    (s.registry.runsOf traceId) _ ⟨rfl, rfl⟩ fun t ht i _ => ?_
  split
  · exact ht
  · rw [views_wake, views_change (g := fun v => { v with cancelled := true }) fun _ _ => rfl,
      views_stopNodes]
    exact (ht.modify i _).modify i _

end Schedule

open Schedule

/-- Whatever happens in an engine, each run moves. -/
theorem Happens.moved (hn : ∀ v ∈ s.views.runs, (v.executions.map Prod.fst).Nodup)
    (h : Happens e s ev t) (hv : s.views.runs[run]? = some v) :
    ∃ w, t.views.runs[run]? = some w ∧ v.Moved (ev.calls run) w := by
  have hstay : v.Moved false v := .stay false fun h => by cases h
  cases h with
  | begin _ _ =>
    refine ⟨v, ?_, hstay⟩
    rw [runs_enrol, List.getElem?_append_left (List.getElem?_eq_some_iff.mp hv).1, hv]
  | start =>
    rw [views_startReady]
    exact Views.modify_moved (fun _ => .round) (fun _ => rfl) hv
  | close hr hx hf hd =>
    rw [views_close]
    refine Views.modify_moved (fun hi => ?_) (fun _ => rfl) hv
    subst hi
    cases (views_of_getElem? hr).symm.trans hv
    exact .close (List.map_eq_nil_iff.mpr hx) hf hd
  | look hr he hne =>
    obtain ⟨g, hviews, hlooked⟩ := views_look hr he hne
    rw [hviews]
    refine Views.modify_moved (fun hi => ?_) (fun hi => ?_) hv
    · subst hi
      cases (views_of_getElem? hr).symm.trans hv
      rw [Event.calls, decide_eq_true rfl, Bool.true_and]
      exact hlooked.moved
    · rw [Event.calls, decide_eq_false hi, Bool.false_and]
  | work i place =>
    rcases views_turnNode e.config.backoff place
      (fun v hv => hn v (List.mem_of_getElem? hv)) with hviews | ⟨u, g, hu, hm, hviews⟩
    · rw [hviews]
      exact ⟨v, hv, hstay⟩
    · rw [hviews]
      refine Views.modify_moved (fun hi => ?_) (fun _ => rfl) hv
      subst hi
      cases hu.symm.trans hv
      exact hm
  | cancel =>
    obtain ⟨w, hw, rfl | rfl⟩ := moved_cancel _ hv
    · exact ⟨w, hw, hstay⟩
    · exact ⟨_, hw, .cancel⟩
  | rest hw hl hg hr hn' he =>
    refine ⟨v, ?_, hstay⟩
    rw [views, hr]
    exact hv

/-- A run is put under way, or the runs are the same as before. -/
theorem Happens.same (hn : ∀ v ∈ s.views.runs, (v.executions.map Prod.fst).Nodup)
    (h : Happens e s ev t) : s.views.Same t.views ∨
      ∃ (d : Document) (f : Flow) (p : Prepared μ), Flow.validate d = .ok f ∧ Plan.ofFlow f = .ok p.plan ∧
        t = (s.enrol (.ofPrepared e.config s.now p)).2 := by
  have hsame : s.views.Same s.views := ⟨rfl, rfl⟩
  cases h with
  | begin hv hp => exact .inr ⟨_, _, _, hv, hp, rfl⟩
  | start =>
    rw [views_startReady]
    exact .inl (hsame.modify _ _)
  | close _ _ _ _ =>
    rw [views_close]
    exact .inl (hsame.modify _ _)
  | look hr he hne =>
    obtain ⟨g, hviews, _⟩ := views_look hr he hne
    rw [hviews]
    exact .inl (hsame.modify _ _)
  | work i place =>
    rcases views_turnNode e.config.backoff place
      (fun v hv => hn v (List.mem_of_getElem? hv)) with hviews | ⟨_, _, _, _, hviews⟩
    · rw [hviews]
      exact .inl hsame
    · rw [hviews]
      exact .inl (hsame.modify _ _)
  | cancel => exact .inl (same_cancel s _)
  | rest hw hl hg hr hn' he => exact .inl ⟨he, by rw [views, hr]; rfl⟩

end Workflow
