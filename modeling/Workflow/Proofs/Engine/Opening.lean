import Workflow.Proofs.Engine.Reporting
import Workflow.Proofs.Engine.Sparing
import Workflow.Proofs.Run.Binding

namespace Workflow

variable {μ : Type}

open Progress

namespace View

variable {v w : View}

/-- How far a run can get at a time: nodes start, the run is called off, or the end of an execution is taken
into account. -/
inductive Proceeds (v : View) : Progress → Prop
  | stay : v.Proceeds v.progress
  | round : v.Proceeds (v.progress.round v.plan).1
  | abort (err : RunError) (hk : err.kind = .cancelled ∨ err.kind = .timeout) :
      v.Proceeds (v.progress.abort err)
  | join {c : Completion} (hc : c ∈ v.finished) : v.Proceeds (v.progress.complete v.plan v.context c)

theorem proceeds_settle {c : Completion} {rest : List Completion} (hf : v.finished = c :: rest) :
    v.Proceeds (v.settle c rest).progress := by
  rw [settle_eq]
  exact .join (hf ▸ List.mem_cons_self)

theorem Moved.proceeds (hm : v.Moved false w) : v.Proceeds w.progress := by
  cases hm with
  | round => exact .round
  | settle _ hf _ _ => exact proceeds_settle hf
  | close | stay | work | finish | cancel => exact .stay

theorem Proceeds.provided {s : Progress} (h : v.Proceeds s) (hp : v.progress.Provided)
    (hc : ∀ c ∈ v.finished, c.outcome.Mild) : s.Provided := by
  cases h with
  | stay => exact hp
  | round => exact hp.round
  | abort err hk => exact hp.abort (by rcases hk with hk | hk <;> rw [hk] <;> decide)
  | join hmem =>
    refine hp.complete fun err ho hk => ?_
    have hmild := hc _ hmem err ho
    rw [hk] at hmild
    cases hmild

end View

variable {e : Engine μ} {s t : Schedule μ} {ev : Event} {es : List Event} {given : List (Prepared μ)}
variable {run : Nat} {r : Run μ}

open Schedule

/-- A look aborts a run only because it was cancelled or its time is over. -/
theorem Schedule.proceeds_look (hr : s.runs[run]? = some r) :
    ∃ r', (s.look run r).runs[run]? = some r' ∧ r.view.Proceeds r'.progress := by
  have habort : ∀ err : RunError, err.kind = .cancelled ∨ err.kind = .timeout →
      ∃ r', (s.abort run err).runs[run]? = some r' ∧ r.view.Proceeds r'.progress := by
    intro err hk
    obtain ⟨r', hr', hview⟩ := exists_run (views_abort err) hr
    have hp : r'.progress = r.progress.abort err := congrArg View.progress hview
    exact ⟨r', hr', hp ▸ .abort err hk⟩
  unfold look
  split
  · exact habort _ (.inl rfl)
  · split
    · exact habort _ (.inr rfl)
    · split
      · next c rest hf =>
        obtain ⟨r', hr', hview⟩ := exists_run (views_settle (views_of_getElem? hr) rfl) hr
        have hp : r'.progress = (r.view.settle c rest).progress := congrArg View.progress hview
        exact ⟨r', hr', hp ▸ View.proceeds_settle hf⟩
      · split
        · exact ⟨r, hr, .stay⟩
        · exact ⟨_, (List.getElem?_modify_eq ..).trans (congrArg _ hr), .stay⟩

theorem Happens.proceeds (h : s.views.Coordinated given) (ht : Happens e s ev t)
    (hr : s.runs[run]? = some r) : ∃ r', t.runs[run]? = some r' ∧ r.view.Proceeds r'.progress := by
  -- a move that aborts a run tells no reason, so the look that finds it called off is taken apart instead
  by_cases hcalls : ev.calls run = true
  · cases Event.calls_iff.mp hcalls
    generalize hev : Event.looked run true = ev at ht
    cases ht with
    | look hr' _ _ =>
      obtain ⟨rfl, _⟩ := Event.looked.inj hev
      cases hr.symm.trans hr'
      exact proceeds_look hr
    | begin | start | close | work | cancel | rest => cases hev
  · obtain ⟨w, hw, hm⟩ := ht.moved h.executions_nodup (views_of_getElem? hr)
    rw [Bool.eq_false_iff.mpr hcalls] at hm
    obtain ⟨r', hr', rfl⟩ := view_of_views hw
    exact ⟨r', hr', hm.proceeds⟩

/-- No error of a run is that an input was not provided, nor will there be one of its executions. -/
structure Run.Provided (r : Run μ) : Prop where
  progress : r.progress.Provided
  finished : ∀ c ∈ r.finished, c.outcome.Mild

theorem Happens.provided (h : s.views.Coordinated given) (ht : Happens e s ev t)
    (hr : s.runs[run]? = some r) (hp : r.Provided) : ∃ r', t.runs[run]? = some r' ∧ r'.Provided := by
  obtain ⟨r', hr', hproceeds⟩ := ht.proceeds h hr
  obtain ⟨r'', hr'', hspared⟩ := ht.exists_spared hr
  cases hr'.symm.trans hr''
  exact ⟨r', hr', hproceeds.provided hp.progress hp.finished,
    fun c hc => (hspared.finished c hc).elim (hp.finished c) id⟩

theorem Leads.provided (h : s.views.Coordinated given) (ht : Leads e s es t) (hr : s.runs[run]? = some r)
    (hp : r.Provided) : ∃ r', t.runs[run]? = some r' ∧ r'.Provided := by
  induction ht with
  | refl => exact ⟨r, hr, hp⟩
  | step hled hs ih =>
    obtain ⟨r', hr', hp'⟩ := ih
    obtain ⟨_, hc⟩ := hled.coordinated h
    exact hs.provided hc hr' hp'

theorem Run.provided_ofPrepared {p : Prepared μ} (ht : p.plan.Tabled)
    (hb : Binds p.plan p.context p.inputs) (c : Config) (now : Nat) : (Run.ofPrepared c now p).Provided := by
  refine ⟨⟨fun err he => ?_, fun q hq => ?_⟩, fun c hc => absurd hc List.not_mem_nil⟩
  · rw [Run.ofPrepared, failure_bindInputs_eq_none ht hb] at he
    cases he
  · rw [Run.ofPrepared, trace_bindInputs ht] at hq
    cases hq

/-- Nothing is done in a run, and its report is that there is an error with its inputs. -/
structure Run.Idles (r : Run μ) (err : RunError) : Prop where
  executions : r.executions = []
  finished : r.finished = []
  trace : r.report.trace = []
  outputs : r.report.outputs = []
  status : r.report.status = .failed
  error : r.report.error = some err

/-- The links from the inputs of a run have their results, and the report of the run does not tell that an
input was not provided. -/
structure Run.Opens (r : Run μ) (p : Prepared μ) : Prop where
  links : ∀ (i : Nat) (l : Link), Enters p.plan i l →
    ∃ v, bound p.plan p.context p.inputs l i = .ok v ∧ r.progress.links[i]? = some (stateOf v)
  error : ∀ err, r.report.error = some err → err.kind ≠ .missingInput
  trace : ∀ q ∈ r.report.trace, ∀ err, q.error = some err → err.kind ≠ .missingInput

/-- An engine when it has put a run under way. -/
def Engine.begun (e : Engine μ) (p : Prepared μ) (s : Schedule μ) : Schedule μ :=
  (s.enrol (.ofPrepared e.config s.now p)).2

/-- What comes of a run that is put under way, whatever happens then. When a link from its inputs is hindered,
it has ended after its first turn without doing anything, and its error is what hinders the first such link.
When none is, all of them have their results. The answer to a request is the report of such a run. -/
structure Opening (e : Engine μ) (f : Flow) (s : Schedule μ) (p : Prepared μ) : Prop where
  barred : ∀ (i : Nat) (l : Link) (err : RunError), Enters p.plan i l →
    Hinders p.plan p.context p.inputs i l err → ∃ first, Bars p.plan p.context p.inputs first ∧
      (∃ r, ((e.begun p s).coordinate s.runs.length).runs[s.runs.length]? = some r ∧ r.ended = true) ∧
      ∀ es t, Leads e (e.begun p s) es t → ∃ r, t.runs[s.runs.length]? = some r ∧ r.Idles first
  opens : Binds p.plan p.context p.inputs → ∀ es t, Leads e (e.begun p s) es t →
    ∃ r, t.runs[s.runs.length]? = some r ∧ r.Opens p
  executes : ∀ request, e.prepare f request = .ok p → ∃ es t r, Leads e (e.begun p s) es t ∧
    t.runs[s.runs.length]? = some r ∧ e.execute f request s = (.ok r.report, t)

theorem View.ComesOf.idles {p : Prepared μ} (h : r.view.ComesOf p) {err : RunError}
    (hf : ((Progress.start p.plan).bindInputs p.plan p.context p.inputs).failure = some err) :
    r.Idles err := by
  obtain ⟨ms, running, hreached, hperm, hsub⟩ := h.coordinated.reached
  have ht := h.valid.tabled
  rw [h.plan, h.context] at hreached
  rw [h.plan] at ht
  have hs : (Coordination.opened p.plan p.context p.inputs).progress.isStopping = true :=
    isStopping_iff.mpr (.inr (by rw [Coordination.opened, hf]; rfl))
  -- no move was made since the run was opened, so nothing is under way and nothing has ended
  obtain ⟨hprogress, rfl⟩ := Coordination.mk.inj (hreached.eq_opened hs)
  have hnil := List.nil_perm.mp hperm
  simp only [List.append_eq_nil_iff, List.map_eq_nil_iff] at hnil
  have hr : r.progress = (Progress.start p.plan).bindInputs p.plan p.context p.inputs := hprogress
  have ha : r.progress.aborted = false := by
    rw [hr, aborted_bindInputs]
    rfl
  have hfr : r.progress.failure = some err := hr ▸ hf
  have hc := concluded_report (h.valid.tabled : r.plan.Tabled) r.progress r.context.traceId
  refine ⟨List.map_eq_nil_iff.mp hnil.1, hnil.2, ?_, ?_, ?_, ?_⟩
  · exact (congrArg Progress.trace hr).trans (trace_bindInputs ht ..)
  · exact (congrArg Progress.outputs hr).trans (outputs_bindInputs ht ..)
  · exact hc.failed_iff.mpr ⟨ha, .inl (by rw [hfr]; simp)⟩
  · exact (hc.error_of_failure (by rw [hfr]; simp)).trans hfr

theorem View.ComesOf.opens {p : Prepared μ} (h : r.view.ComesOf p) (hb : Binds p.plan p.context p.inputs)
    (hp : r.Provided) : r.Opens p := by
  obtain ⟨ms, running, hreached, _⟩ := h.coordinated.reached
  have ht := h.valid.tabled
  have hf := h.valid.regular
  rw [h.plan] at ht hf
  rw [h.plan, h.context] at hreached
  refine ⟨fun i l hl => ?_, fun err he => hp.progress.error_report h.valid.tabled he, hp.progress.trace⟩
  obtain ⟨l', v, hl', hv, hlinks⟩ := hreached.shares ht hf hb hl
  cases hl.1.symm.trans hl'
  exact ⟨v, hv, hlinks⟩

/-- A run with nothing to start ends as its coordination has its first turn. -/
theorem Schedule.ended_coordinate (hr : s.runs[run]? = some r) (he : r.ended = false)
    (hx : r.executions = []) (hf : r.finished = []) (hs : r.progress.isStopping = true) :
    ∃ r', (s.coordinate run).runs[run]? = some r' ∧ r'.ended = true := by
  obtain ⟨r₁, hr₁, hview₁⟩ := exists_run (views_startReady s run) hr
  rw [View.round_of_done (.inr hs)] at hview₁
  have hx₁ : r₁.executions = [] := by
    have hkeys := congrArg View.executions hview₁
    exact List.map_eq_nil_iff.mp (hkeys.trans (List.map_eq_nil_iff.mpr hx))
  have hf₁ : r₁.finished = [] := (congrArg View.finished hview₁).trans hf
  obtain ⟨r₂, hr₂, hview₂⟩ := exists_run (views_close _ run r₁) hr₁
  refine ⟨r₂, ?_, congrArg View.ended hview₂⟩
  rw [coordinate, hr]
  dsimp only
  rw [he, if_neg (by decide), turnRun, hr₁]
  dsimp only
  rw [if_pos ⟨List.isEmpty_iff.mpr hx₁, List.isEmpty_iff.mpr hf₁⟩]
  exact hr₂

/-- In an engine whose runs are all those of valid workflows, a run whose inputs cannot be bound ends before
anything of it has begun, and the inputs of any other run are all bound. -/
theorem Leads.opening {s₀ : Schedule μ} (h₀ : s₀.runs = []) (hs₀ : s₀.views.Sound) (h : Leads e s₀ es s)
    {d : Document} {f : Flow} {p : Prepared μ} (hv : Flow.validate d = .ok f)
    (hp : Plan.ofFlow f = .ok p.plan) : Opening e f s p := by
  have hgiven := coordinated_nil h₀
  obtain ⟨_, hc⟩ := h.coordinated hgiven
  have ht := Plan.tabled_of_ofFlow hp
  have hbegun := coordinated_enrol hc hv hp e.config
  have hnew : (e.begun p s).runs[s.runs.length]? = some (.ofPrepared e.config s.now p) :=
    List.getElem?_concat_length
  refine ⟨fun i l err hl hb => ?_, fun hb es' t hled => ?_, fun request hrequest => ?_⟩
  · obtain ⟨first, hfirst⟩ := Option.ne_none_iff_exists'.mp (failure_bindInputs_ne_none ht hl hb)
    refine ⟨first, bars_of_failure ht (Plan.inputLinks_pairwise hp) hfirst, ?_, fun es' t hled => ?_⟩
    · refine ended_coordinate hnew rfl rfl rfl (isStopping_iff.mpr (.inr ?_))
      rw [Run.ofPrepared, hfirst]
      rfl
    · obtain ⟨r, hr, hcomes⟩ := hled.exists_comesOf hc hv hp
      exact ⟨r, hr, hcomes.idles hfirst⟩
  · obtain ⟨r, hr, hcomes⟩ := hled.exists_comesOf hc hv hp
    obtain ⟨r', hr', hprovided⟩ := hled.provided hbegun hnew (Run.provided_ofPrepared ht hb _ _)
    cases hr.symm.trans hr'
    exact ⟨r, hr, hcomes.opens hb hprovided⟩
  · have hsound : s.views.Sound := by
      unfold Views.Sound
      rw [h.errands_eq hgiven]
      exact hs₀
    obtain ⟨es', hled⟩ := Engine.leads_complete (e := e) hc hsound hv hp
    obtain ⟨r, hr, _⟩ := hled.exists_comesOf hc hv hp
    refine ⟨es', _, r, hled, hr, ?_⟩
    rw [Engine.execute, hrequest]
    exact Prod.ext (congrArg Except.ok (Engine.report_complete hr)) rfl

open Coordination

/-- An engine whose code always says the same. -/
def parrot : Engine Unit where
  host := ⟨[], some fun _ _ _ _ => .done (.ok (.str "w")), none⟩
  config := {}
  defaults := ⟨"trace", "2024-01-01T00:00:00Z"⟩
  rests _ := 0

/-- What is told of the diamond with inputs. -/
def parroted (inputs : Inputs) : Option (RunStatus × Option String × List String) :=
  (parrot.execute diamondFlow { inputs } idle).1.toOption.map fun r =>
    (r.status, r.error.map RunError.render, r.trace.map Record.nodeId)

/-- Without its input the diamond has two nodes that are ready, and none of them starts. -/
theorem opening_diamond : ∃ p p',
    parrot.prepare diamondFlow {} = .ok p ∧ Opening parrot diamondFlow idle p ∧
    parroted [] =
      some (.failed, some "run failed (missing_input): required input 'x' was not provided", []) ∧
    parrot.prepare diamondFlow { inputs := diamondInputs } = .ok p' ∧ Opening parrot diamondFlow idle p' ∧
    parroted diamondInputs = some (.succeeded, none, ["left", "right", "both"]) := by
  have hsound : idle.views.Sound := fun _ _ h => by cases h
  have hopening : ∀ inputs p, parrot.prepare diamondFlow { inputs } = .ok p →
      Opening parrot diamondFlow idle p := fun _ _ h =>
    Leads.refl.opening rfl hsound validate_diamond (Engine.prepare_eq_ok h).1
  exact ⟨_, _, rfl, hopening [] _ rfl, by decide +kernel, rfl, hopening diamondInputs _ rfl, by decide +kernel⟩

end Workflow
