import Mathlib.Data.List.Nodup
import Workflow.Proofs.Engine.View

namespace Workflow

variable {μ : Type}

/-- What is seen of an engine: its runs, and what it has to do. -/
structure Views where
  runs : List View
  errands : List Errand

def Views.modify (w : Views) (run : Nat) (g : View → View) : Views :=
  { w with runs := w.runs.modify run g }

theorem Views.modify_modify (w : Views) (run : Nat) (f g : View → View) :
    (w.modify run f).modify run g = w.modify run (g ∘ f) := by
  rw [modify, modify, modify, List.modify_modify_eq]

theorem Views.modify_congr {w : Views} {run : Nat} {f g : View → View}
    (h : ∀ v, w.runs[run]? = some v → f v = g v) : w.modify run f = w.modify run g := by
  have hruns : w.runs.modify run f = w.runs.modify run g := by
    refine List.ext_getElem? fun i => ?_
    simp only [List.getElem?_modify]
    by_cases hi : run = i
    · subst hi
      cases hv : w.runs[run]? with
      | none => simp
      | some v => simp [h v hv]
    · simp [hi]
  rw [modify, modify, hruns]

namespace Schedule

variable {s t : Schedule μ} {run place : Nat} {x : Execution (World μ)} {b : Backoff}

def views (s : Schedule μ) : Views where
  runs := s.runs.map Run.view
  errands := s.errands.map (fun x => x.2.1)

theorem runs_views (s : Schedule μ) (run : Nat) :
    s.views.runs[run]? = (s.runs[run]?).map Run.view := List.getElem?_map

theorem views_change {f : Run μ → Run μ} {g : View → View}
    (h : ∀ r, s.runs[run]? = some r → (f r).view = g r.view) :
    (s.change run f).views = s.views.modify run g := by
  have hruns : (s.runs.modify run f).map Run.view = (s.runs.map Run.view).modify run g := by
    refine List.ext_getElem? fun i => ?_
    simp only [List.getElem?_map, List.getElem?_modify]
    by_cases hi : run = i
    · subst hi
      cases hr : s.runs[run]? with
      | none => simp
      | some r => simp [h r hr]
    · simp [hi]
  rw [views, change, hruns]
  rfl

theorem views_change_same {f : Run μ → Run μ}
    (h : ∀ r, s.runs[run]? = some r → (f r).view = r.view) : (s.change run f).views = s.views := by
  rw [views_change (g := id) h, Views.modify, List.modify_id]

@[simp] theorem views_wake (job : Job) : (s.wake job).views = s.views := by
  unfold wake
  split <;> rfl

theorem views_wakeAll {α : Type} (job : α → Job) (xs : List α) :
    (xs.foldl (fun s x => s.wake (job x)) s).views = s.views := by
  induction xs generalizing s with
  | nil => rfl
  | cons x xs ih => rw [List.foldl_cons, ih, views_wake]

theorem map_map_of_place {α : Type} {g : Execution (World μ) → α}
    {f : Execution (World μ) → Execution (World μ)} (h : ∀ x, g (f x) = g x) (place : Nat)
    (xs : List (Execution (World μ))) :
    (xs.map (fun x => if x.place = place then f x else x)).map g = xs.map g := by
  rw [List.map_map]
  refine List.map_congr_left fun x _ => ?_
  simp only [Function.comp_apply]
  split
  · exact h x
  · rfl

theorem views_grant (run place : Nat) : (s.grant run place).views = s.views := by
  unfold grant
  rw [views_wake]
  refine views_change_same fun r _ => ?_
  simp only [Run.view, View.mk.injEq, true_and, and_true]
  constructor
  · refine map_map_of_place (fun x => ?_) place r.executions
    split <;> rfl
  · refine map_map_of_place (fun x => ?_) place r.executions
    split
    · next hx => simp only [Execution.mark, hx, Phase.begun]
    · rfl

theorem views_releaseLimit (run place : Nat) : (s.releaseLimit run place).views = s.views := by
  unfold releaseLimit
  split
  · rfl
  · split
    dsimp only
    split
    · exact views_grant _ _
    · rfl

theorem views_releaseRun (run : Nat) : (s.releaseRun run).views = s.views := by
  unfold releaseRun
  split
  · rfl
  · split
    dsimp only
    split
    · rw [views_grant]
      exact views_change_same fun r _ => rfl
    · exact views_change_same fun r _ => rfl

theorem views_leaveLimit (run place : Nat) : (s.leaveLimit run place).views = s.views := by
  unfold leaveLimit
  split <;> rfl

theorem views_leaveRun (run place : Nat) : (s.leaveRun run place).views = s.views :=
  views_change_same fun _ _ => rfl

theorem views_releaseAll (run : Nat) (x : Execution (World μ)) :
    (s.releaseAll run x).views = s.views := by
  unfold releaseAll
  split
  · rfl
  · split
    · exact views_releaseLimit _ _
    · exact views_leaveLimit _ _
  · rw [views_releaseLimit]
    split
    · exact views_releaseRun _
    · exact views_leaveRun _ _
  · rw [views_releaseRun, views_releaseLimit]

theorem views_put (h : ∀ v, s.views.runs[run]? = some v → v.Holds x.key) :
    (s.put run x).views = s.views.modify run (View.work x.place x.phase.begun) := by
  refine views_change fun r hr => ?_
  obtain ⟨hm, hn⟩ := h r.view (by rw [runs_views, hr, Option.map_some])
  have hkeys : (r.executions.map (fun y => if y.place = x.place then x else y)).map Execution.key =
      r.executions.map Execution.key := by
    rw [List.map_map]
    refine List.map_congr_left fun y hy => ?_
    simp only [Function.comp_apply]
    split
    · next hp => exact (List.inj_on_of_nodup_map hn (List.mem_map_of_mem hy) hm hp).symm
    · rfl
  have hmarks : (r.executions.map (fun y => if y.place = x.place then x else y)).map Execution.mark =
      (r.executions.map Execution.mark).map
        (fun y => if y.1 = x.place then (x.place, x.phase.begun) else y) := by
    rw [List.map_map, List.map_map]
    refine List.map_congr_left fun y _ => ?_
    by_cases hp : y.place = x.place <;> simp [Execution.mark, hp]
  simp only [Run.put, Run.view, View.work, hkeys, hmarks]

theorem views_finish (s : Schedule μ) (run : Nat) (x : Execution (World μ)) (outcome : Outcome)
    (attempts : Nat) (started : Bool) (since : Nat) :
    ∃ c : Completion, c.place = x.place ∧ c.outcome = outcome ∧ c.attempts = attempts ∧
      (s.finish run x outcome attempts started since).views = s.views.modify run (View.finish c) := by
  refine ⟨⟨x.place, outcome, attempts, if started then some since else none,
    (s.releaseAll run x).now - since⟩, rfl, rfl, rfl, ?_⟩
  unfold finish
  rw [views_wake, views_change (g := View.finish _) fun r _ => ?_, views_releaseAll]
  have hkeys : (r.executions.filter (fun y => y.place ≠ x.place)).map Execution.key =
      (r.executions.map Execution.key).filter (fun y => y.1 ≠ x.place) := by
    rw [List.filter_map]
    rfl
  have hmarks : (r.executions.filter (fun y => y.place ≠ x.place)).map Execution.mark =
      (r.executions.map Execution.mark).filter (fun y => y.1 ≠ x.place) := by
    rw [List.filter_map]
    rfl
  simp only [Run.drop, Run.view, View.finish, hkeys, hmarks]

theorem views_stopNodes (run : Nat) : (s.stopNodes run).views = s.views.modify run View.stop := by
  unfold stopNodes
  split
  · next hr =>
    have hlen : s.views.runs.length ≤ run := by
      rw [views, List.length_map]
      exact List.getElem?_eq_none_iff.mp hr
    rw [Views.modify, List.modify_eq_self hlen]
  · next r hr =>
    split
    · next hstop =>
      have hid : (s.change run id).views = s.views.modify run View.stop := by
        refine views_change fun r' hr' => ?_
        cases hr.symm.trans hr'
        simp only [id, View.stop, Run.view, hstop]
      rw [← hid, change, List.modify_id]
    · rw [views_wakeAll]
      exact views_change fun _ _ => rfl

theorem views_launch (run : Nat) (started : List (Nat × Inputs)) :
    (s.launch run started).views = s.views.modify run (View.launch started) := by
  induction started generalizing s with
  | nil =>
    have hid : View.launch [] = id := by
      funext v
      simp only [View.launch, List.map_nil, List.append_nil, id]
    rw [hid, Views.modify, List.modify_id]
    rfl
  | cons x started ih =>
    have hfirst : ∀ u : Schedule μ, u.views = s.views →
        ((u.change run (fun r => { r with
          executions := r.executions ++ [⟨x.1, x.2, .fresh, 0⟩] })).wake (.node run x.1)).views =
          s.views.modify run (View.launch [x]) := by
      intro u hu
      rw [views_wake, ← hu]
      refine views_change fun r _ => ?_
      simp only [Run.view, View.launch, List.map_append, List.map_singleton]
      rfl
    have hrest : (s.launch run (x :: started)).views =
        (s.views.modify run (View.launch [x])).modify run (View.launch started) := by
      unfold launch
      rw [List.foldl_cons]
      refine (ih).trans ?_
      congr 1
      split
      · exact hfirst _ rfl
      · exact hfirst _ rfl
    rw [hrest, Views.modify_modify]
    refine Views.modify_congr fun v _ => ?_
    simp only [Function.comp_apply, View.launch, List.append_assoc, List.singleton_append, List.map_cons,
      List.map_nil]

/-- An execution is that of the node of a site, in the run of the site. -/
structure Site.Holds (site : Site μ) (s : Schedule μ) (k : Nat × Inputs) : Prop where
  view : ∀ v, s.views.runs[site.run]? = some v → v.Holds k
  node : site.plan.flow.nodes[k.1]? = some (site.id, site.node)

/-- What a turn of the execution of a node does to what is seen: nothing, or it begins attempts, or it ends
with an output that fits. It is not cancelled. -/
inductive Works (site : Site μ) (s t : Schedule μ) (k : Nat × Inputs) : Prop
  | same (h : t.views = s.views)
  | work (n : Nat) (h : t.views = s.views.modify site.run (View.work k.1 n))
  | finish (c : Completion) (hi : c.place = k.1) (hc : c.outcome ≠ .cancelled) (hf : c.Fits site.plan)
      (h : t.views = s.views.modify site.run (View.finish c))

variable {site : Site μ} {since i n : Nat} {slot : Option Slot} {u : Schedule μ} {k : Nat × Inputs}

theorem Works.of_views_eq (h : t.views = s.views) (hw : Works site t u k) : Works site s u k := by
  cases hw with
  | same hu => exact .same (hu.trans h)
  | work n hu => exact .work n (h ▸ hu)
  | finish c hi hc hf hu => exact .finish c hi hc hf (h ▸ hu)

theorem Works.of_work (h : t.views = s.views.modify site.run (View.work k.1 n)) (hw : Works site t u k) :
    Works site s u k := by
  cases hw with
  | same hu => exact .work n (hu.trans h)
  | work m hu =>
    refine .work m ?_
    rw [hu, h, Views.modify_modify]
    exact Views.modify_congr fun v _ => View.work_work k.1 n m v
  | finish c hi hc hf hu =>
    refine .finish c hi hc hf ?_
    rw [hu, h, Views.modify_modify]
    exact Views.modify_congr fun v _ => View.finish_work hi n v

theorem Site.Holds.of_views_eq (h : site.Holds s k) (ht : t.views = s.views) : site.Holds t k :=
  ⟨ht ▸ h.view, h.node⟩

theorem Site.Holds.of_work (h : site.Holds s k)
    (ht : t.views = s.views.modify site.run (View.work i n)) : site.Holds t k := by
  refine ⟨fun v hv => ?_, h.node⟩
  rw [ht, Views.modify, List.getElem?_modify_eq] at hv
  obtain ⟨u, hu, rfl⟩ := Option.map_eq_some_iff.mp hv
  exact h.view u hu

theorem verdict_eq_ended {p : RuntimePolicy} {id : String} {n : Nat} {result : AttemptResult}
    {outcome : Outcome} (h : p.verdict b id n result = .ended outcome) :
    outcome ≠ .cancelled ∧ ∀ v, outcome = .succeeded v → result = .ok v := by
  unfold RuntimePolicy.verdict at h
  split at h
  · cases h
    refine ⟨(fun h => by cases h), fun v h => ?_⟩
    rw [Outcome.succeeded.inj h]
  · split at h
    · cases h
    · cases h
      refine ⟨(fun h => by cases h), fun v h => ?_⟩
      cases h

theorem judge_eq_ok {p : Plan} {place : Nat} {n : Node} {result : Except InvokeError Json} {v : Json}
    (h : judge p place n result = .ok v) : p.validate place n v = .ok () := by
  unfold judge at h
  split at h
  · cases h
  · split at h
    · next hv =>
      cases h
      exact hv
    · cases h

theorem works_put (h : site.Holds s x.key) {y : Execution (World μ)}
    (ht : t.views = (s.put site.run y).views) (hk : y.key = x.key) : Works site s t x.key := by
  have hplace : y.place = x.place := congrArg Prod.fst hk
  refine .work y.phase.begun ?_
  rw [ht, views_put fun v hv => hk ▸ h.view v hv, hplace]
  rfl

theorem works_finish {outcome : Outcome} (ho : outcome ≠ .cancelled) (h : site.Holds s x.key)
    (hv : ∀ v, outcome = .succeeded v → site.plan.validate x.place site.node v = .ok ())
    (attempts : Nat) (started : Bool) (since : Nat) :
    Works site s (s.finish site.run x outcome attempts started since) x.key := by
  obtain ⟨c, hi, hc, _, hviews⟩ := views_finish s site.run x outcome attempts started since
  refine .finish c hi (hc ▸ ho) (fun v hcv => ⟨site.id, site.node, hi ▸ h.node, ?_⟩) hviews
  rw [hi]
  exact hv v (hc ▸ hcv)

theorem works_conclude {again : Nat → Schedule μ → Schedule μ} {number : Nat} {result : AttemptResult}
    (h : site.Holds s x.key)
    (hr : ∀ v, result = .ok v → site.plan.validate x.place site.node v = .ok ())
    (hagain : ∀ n, Works site s (again n s) x.key) :
    Works site s (conclude b site x since slot again number result s) x.key := by
  unfold conclude
  split
  · next outcome hv =>
    obtain ⟨ho, hres⟩ := verdict_eq_ended hv
    exact works_finish ho h (fun v hov => hr v (hres v hov)) _ _ _
  · exact hagain _
  · exact works_put h rfl rfl

theorem works_attempt (left number : Nat) (h : site.Holds s x.key) :
    Works site s (attempt b site x since slot left number s) x.key := by
  induction left generalizing number s with
  | zero =>
    unfold attempt
    dsimp only
    split
    · exact .of_views_eq (by rfl) (works_put (h.of_views_eq (by rfl)) rfl rfl)
    · refine .of_views_eq (by rfl) (works_conclude (x := { x with phase := _ })
        (h.of_views_eq (by rfl)) (fun _ => judge_eq_ok) fun _ => .same (by rfl))
  | succ left ih =>
    unfold attempt
    dsimp only
    split
    · exact .of_views_eq (by rfl) (works_put (h.of_views_eq (by rfl)) rfl rfl)
    · exact .of_views_eq (by rfl) (works_conclude (x := { x with phase := _ })
        (h.of_views_eq (by rfl)) (fun _ => judge_eq_ok) fun n => ih n (h.of_views_eq (by rfl)))

theorem works_begin (h : site.Holds s x.key) : Works site s (begin b site x s) x.key := by
  unfold begin
  split
  · refine works_finish (x := { x with phase := .pausing s.now 0 none ⟨s.now, s.order⟩ }) ?_ h ?_ _ _ _
    · exact fun h => by cases h
    · exact fun _ h => by cases h
  · exact works_attempt (x := { x with phase := _ }) _ _ h

theorem works_enterRun (h : site.Holds s x.key) :
    Works site s (enterRun b site x since s) x.key := by
  unfold enterRun
  split
  · exact .same rfl
  · split
    dsimp only
    have hsame : ∀ permits, (s.change site.run (fun r => { r with permits })).views = s.views :=
      fun _ => views_change_same fun _ _ => rfl
    split
    · exact .of_views_eq (hsame _) (works_begin (h.of_views_eq (hsame _)))
    · exact .of_views_eq (hsame _) (works_put (h.of_views_eq (hsame _)) rfl rfl)

theorem works_enter (h : site.Holds s x.key) : Works site s (enter b site x s) x.key := by
  unfold enter
  dsimp only
  split
  · exact .of_views_eq (by rfl)
      (works_enterRun (x := { x with waitOrder := _ }) (h.of_views_eq (by rfl)))
  · split
    · exact .of_views_eq (by rfl)
        (works_enterRun (x := { x with waitOrder := _ }) (h.of_views_eq (by rfl)))
    · exact .of_views_eq (by rfl) (works_put (h.of_views_eq (by rfl)) rfl rfl)

theorem works_resume {number : Nat} {next : Activity (World μ) (Except InvokeError Json)}
    {wake limit : Alarm} (h : site.Holds s x.key) :
    Works site s (resume b site x since number slot next wake limit s) x.key := by
  have htimeout : ∀ (kind : ErrorKind) (text : String) (v : Json), (Except.error (kind, text) :
      AttemptResult) = .ok v → site.plan.validate x.place site.node v = .ok () := fun _ _ _ h => by cases h
  unfold resume
  dsimp only
  split
  · split
    · exact .of_views_eq (by rfl) (works_conclude (h.of_views_eq (by rfl)) (fun _ => judge_eq_ok)
        fun n => works_attempt _ n (h.of_views_eq (by rfl)))
    · have hput : ∀ (w : World μ) (phase : Phase (World μ)),
          (({ s with world := w } : Schedule μ).put site.run { x with phase }).views =
            s.views.modify site.run (View.work x.place phase.begun) :=
        fun w phase => views_put (s := { s with world := w }) (x := { x with phase }) h.view
      split
      · refine .of_work (n := number) ?_ (works_conclude (x := { x with phase := _ }) ?_ (htimeout _ _)
          fun m => works_attempt _ m ?_)
        · exact hput _ _
        · exact h.of_work (hput _ _)
        · exact h.of_work (hput _ _)
      · exact .work _ (hput _ _)
  · split
    · exact works_conclude h (htimeout _ _) fun n => works_attempt _ n h
    · exact .same rfl

theorem of_site? (h : s.site? run place = some site) : site.run = run ∧
    ∃ r, s.runs[run]? = some r ∧ site.plan = r.plan ∧ r.node? place = some (site.id, site.node) := by
  simp only [site?, Option.bind_eq_bind, Option.bind_eq_some_iff, Option.some.injEq] at h
  obtain ⟨r, hr, ⟨id, n⟩, hn, _, _, rfl⟩ := h
  exact ⟨rfl, r, hr, rfl, hn⟩

theorem views_finishCancelled (run : Nat) (x : Execution (World μ)) :
    ∃ c : Completion, c.place = x.place ∧ c.outcome = .cancelled ∧ c.attempts = x.phase.begun ∧
      (s.finishCancelled run x).views = s.views.modify run (View.finish c) := by
  unfold finishCancelled
  split
  all_goals
    next hx =>
      rw [hx]
      exact views_finish ..

/-- A turn of the execution of a node changes only what is seen of its run, and in a way in which runs
change. -/
theorem views_turnNode (b : Backoff) (place : Nat)
    (h : ∀ v, s.views.runs[run]? = some v → (v.executions.map Prod.fst).Nodup) :
    (s.turnNode b run place).views = s.views ∨ ∃ v g, s.views.runs[run]? = some v ∧
      v.Moved false (g v) ∧ (s.turnNode b run place).views = s.views.modify run g := by
  unfold turnNode
  split
  · next r site hr hsite =>
    have hv : s.views.runs[run]? = some r.view := by rw [runs_views, hr, Option.map_some]
    obtain ⟨rfl, r', hr', hplan, hnode⟩ := of_site? hsite
    cases hr.symm.trans hr'
    split
    · exact .inl rfl
    · next x hx =>
      have hmem := List.mem_of_find?_eq_some hx
      have hplace : x.place = place := by simpa using List.find?_some hx
      have hm : x.key ∈ r.view.executions := List.mem_map_of_mem hmem
      have hi : x.place ∈ r.view.executions.map Prod.fst := List.mem_map_of_mem hm
      have hholds : site.Holds s x.key := by
        refine ⟨fun v hv' => ?_, ?_⟩
        · cases hv.symm.trans hv'
          exact ⟨hm, h _ hv⟩
        · rw [hplan, Execution.key, hplace]
          exact hnode
      split
      · next hstop =>
        obtain ⟨c, hp, hc, ha, hviews⟩ := views_finishCancelled (s := s) site.run x
        refine .inr ⟨r.view, _, hv, .finish (c := c) (hp ▸ hi) (fun v hcv => ?_) (fun _ => hstop)
          (fun _ => ?_), hviews⟩
        · cases hc.symm.trans hcv
        · rw [hp, ha]
          exact List.mem_map_of_mem hmem
      · next hstop =>
        have hrunning : r.view.stopped = false := Bool.eq_false_iff.mpr hstop
        have of_works : ∀ t, Works site s t x.key → t.views = s.views ∨
            ∃ v g, s.views.runs[site.run]? = some v ∧ v.Moved false (g v) ∧
              t.views = s.views.modify site.run g := by
          intro t ht
          cases ht with
          | same ht => exact .inl ht
          | work n ht => exact .inr ⟨r.view, _, hv, .work n hi hrunning, ht⟩
          | finish c hp hc hf ht =>
            refine .inr ⟨r.view, _, hv, .finish (c := c) (hp ▸ hi) ?_ (fun hcan => absurd hcan hc)
              (fun hs => absurd hs hstop), ht⟩
            rw [show r.view.plan = site.plan from hplan.symm]
            exact hf
        apply of_works
        split
        · exact works_enter hholds
        · exact works_enterRun hholds
        · exact works_begin hholds
        · exact .same rfl
        · exact works_resume hholds
        · split
          · exact works_attempt _ _ hholds
          · exact .same rfl
  · exact .inl rfl

end Schedule

end Workflow
