import Workflow.Proofs.Engine.Barrier

namespace Workflow

variable {μ : Type}

namespace View

variable {v w : View} {called : Bool}

/-- The outputs of a run are recorded, and those of executions whose ends were not yet taken into account
fit. -/
structure Documented (v : View) : Prop where
  finished : ∀ c ∈ v.finished, c.Fits v.plan
  recorded : v.progress.Recorded v.plan

theorem documented_ofPrepared (c : Config) (now : Nat) (p : Prepared μ) :
    (Run.ofPrepared c now p).view.Documented :=
  ⟨fun _ h => absurd h List.not_mem_nil, .bindInputs _ _⟩

theorem Documented.moved (h : v.Documented) (hm : v.Moved called w) : w.Documented := by
  cases hm with
  | round => exact ⟨h.finished, h.recorded.round⟩
  | close _ _ _ => exact ⟨h.finished, h.recorded⟩
  | abort _ _ _ _ => exact ⟨h.finished, h.recorded.congr rfl rfl⟩
  | settle _ hf _ _ =>
    rw [settle_eq]
    refine ⟨fun c hc => h.finished c (hf ▸ List.mem_cons_of_mem _ hc), ?_⟩
    exact h.recorded.complete (h.finished _ (hf ▸ List.mem_cons_self))
  | stay _ _ => exact h
  | work _ _ _ => exact ⟨h.finished, h.recorded⟩
  | finish _ hfits _ _ =>
    refine ⟨fun c hc => ?_, h.recorded⟩
    rcases List.mem_append.mp hc with hc | hc
    · exact h.finished c hc
    · rw [List.mem_singleton.mp hc]
      exact hfits
  | cancel => exact ⟨h.finished, h.recorded⟩

/-- A run is aborted when it is found called off, and only then. -/
theorem Moved.aborted_iff (hm : v.Moved called w) :
    w.progress.aborted = true ↔ v.progress.aborted = true ∨ called = true := by
  have hsame : ∀ a : Bool, a = v.progress.aborted → (called = true → v.progress.aborted = true) →
      (a = true ↔ v.progress.aborted = true ∨ called = true) := by
    rintro _ rfl ha
    exact (or_iff_left_of_imp ha).symm
  cases hm with
  | round => exact hsame _ (Progress.aborted_round _) fun h => by cases h
  | abort _ _ _ _ => exact ⟨fun _ => .inr rfl, fun _ => rfl⟩
  | settle _ _ _ ha =>
    refine hsame _ ?_ ha
    rw [settle_eq]
    exact Progress.complete_aborted
  | stay _ ha => exact hsame _ rfl ha
  | close | work | finish | cancel => exact hsame _ rfl fun h => by cases h

end View

variable {e : Engine μ} {s t : Schedule μ} {ev : Event} {es : List Event} {given : List (Prepared μ)}
variable {run : Nat} {r : Run μ}

theorem Event.calls_iff : ev.calls run = true ↔ ev = .looked run true := by
  cases ev with
  | looked other called =>
    rw [calls, Bool.and_eq_true, decide_eq_true_iff, looked.injEq]
  | begun | started | closed | worked | cancelled | rested =>
    exact ⟨fun h => (by cases h), fun h => (by cases h)⟩

/-- Only a run that there is can be found called off. -/
theorem Happens.exists_of_calls (h : Happens e s ev t) (hc : ev.calls run = true) :
    ∃ r, s.runs[run]? = some r := by
  cases h with
  | look hr _ _ =>
    obtain ⟨rfl, _⟩ := Event.looked.inj (Event.calls_iff.mp hc)
    exact ⟨_, hr⟩
  | begin | start | close | work | cancel | rest => cases hc

def Schedule.HasAborted (s : Schedule μ) (run : Nat) : Prop :=
  ∃ r, s.runs[run]? = some r ∧ r.progress.aborted = true

theorem Schedule.hasAborted_iff {v : View} (hv : s.views.runs[run]? = some v) :
    s.HasAborted run ↔ v.progress.aborted = true := by
  obtain ⟨r, hr, rfl⟩ := view_of_views hv
  constructor
  · rintro ⟨r', hr', ha⟩
    cases hr.symm.trans hr'
    exact ha
  · exact fun ha => ⟨r, hr, ha⟩

theorem Schedule.not_hasAborted_enrol (hr : s.runs[run]? = none) (c : Config) (p : Prepared μ) :
    ¬ (s.enrol (.ofPrepared c s.now p)).2.HasAborted run := by
  rintro ⟨r, hr', ha⟩
  have hlen := List.getElem?_eq_none_iff.mp hr
  have hnew : (s.runs ++ [Run.ofPrepared c s.now p])[run]? = some r := hr'
  rw [List.getElem?_append_right hlen, List.getElem?_singleton] at hnew
  split at hnew
  · cases hnew
    rw [Run.ofPrepared, Progress.aborted_bindInputs] at ha
    cases ha
  · cases hnew

theorem Happens.hasAborted_iff (h : s.views.Coordinated given) (ht : Happens e s ev t) :
    t.HasAborted run ↔ s.HasAborted run ∨ ev = .looked run true := by
  cases hr : s.runs[run]? with
  | some r =>
    have hv := Schedule.views_of_getElem? hr
    obtain ⟨w, hw, hm⟩ := ht.moved h.executions_nodup hv
    rw [Schedule.hasAborted_iff hw, Schedule.hasAborted_iff hv, hm.aborted_iff, Event.calls_iff]
  | none =>
    -- a run that is only now put under way is not aborted, and was not looked at
    have hbefore : ¬ (s.HasAborted run ∨ ev = .looked run true) := by
      rintro (⟨r, hr', _⟩ | hev)
      · cases hr.symm.trans hr'
      · obtain ⟨r, hr'⟩ := ht.exists_of_calls (Event.calls_iff.mpr hev)
        cases hr.symm.trans hr'
    refine iff_of_false ?_ hbefore
    rcases ht.same h.executions_nodup with hsame | ⟨_, _, p, _, _, rfl⟩
    · rintro ⟨r, hr', _⟩
      have hlen : t.runs.length = s.runs.length := by
        simpa only [Schedule.views, List.length_map] using hsame.runs
      have hlt := (List.getElem?_eq_some_iff.mp hr').1
      rw [hlen] at hlt
      exact Nat.not_lt.mpr (List.getElem?_eq_none_iff.mp hr) hlt
    · exact Schedule.not_hasAborted_enrol hr e.config p

/-- A run is aborted exactly when it was found called off while something of it was under way. -/
theorem Leads.hasAborted_iff (h : s.views.Coordinated given) (ht : Leads e s es t) :
    t.HasAborted run ↔ s.HasAborted run ∨ .looked run true ∈ es := by
  induction ht with
  | refl => exact (or_iff_left List.not_mem_nil).symm
  | @step es ev _ _ hled hs ih =>
    obtain ⟨_, hc⟩ := hled.coordinated h
    rw [hs.hasAborted_iff hc, ih, List.mem_append, List.mem_singleton, or_assoc, eq_comm (a := ev)]

/-- A report tells what has happened to a run. It tells that the run was aborted exactly when it was found
called off while something of it was under way, and else that it failed exactly when there was a failure or
no value has reached its outputs. -/
structure Tells (report : Report) (p : Plan) (s : Progress) (called : Prop) : Prop where
  aborted : report.status = .aborted ↔ called
  failed : report.status = .failed ↔ ¬ called ∧ (s.failure ≠ none ∨ Progress.Silent p s)
  succeeded : report.status = .succeeded ↔ ¬ called ∧ s.failure = none ∧ ¬ Progress.Silent p s
  failure : s.failure ≠ none → report.error = s.failure
  silence : ¬ called → s.failure = none → Progress.Silent p s →
    report.error = some (.ofRun .noOutput "no value reached _output")
  error : report.error = none ↔ report.status = .succeeded
  records : ∀ q ∈ report.trace, q.status = .failed ∨ q.status = .cancelled → report.status ≠ .succeeded
  recorded : ∀ id, (∃ v, report.outputs.get? id = some v) ↔
    ∃ q ∈ report.trace, q.nodeId = id ∧ q.status = .succeeded
  fits : ∀ id v, report.outputs.get? id = some v →
    ∃ i n, p.flow.nodes[i]? = some (id, n) ∧ p.validate i n v = .ok ()
  boundary : ∀ port v, report.boundary.get? port = some v ↔ Progress.First p s ⟨.output, port⟩ v

theorem View.Valid.get?_boundary {v : View} (h : v.Valid) (traceId port : String) (value : Json) :
    (v.progress.report v.plan traceId).boundary.get? port = some value ↔
      Progress.First v.plan v.progress ⟨.output, port⟩ value := by
  have ht := h.tabled
  obtain ⟨_, _, _, hp⟩ := h
  rw [Progress.report_boundary]
  exact Progress.get?_delivered_iff (r := ⟨.output, port⟩) (Plan.outputLinks_pairwise hp) ht.mem_outputLinks

/-- In an engine whose runs are all those of valid workflows, the report of each tells what has happened. -/
theorem Leads.tells {s₀ : Schedule μ} (h₀ : s₀.runs = []) (h : Leads e s₀ es s)
    (hr : s.runs[run]? = some r) : Tells r.report r.plan r.progress (.looked run true ∈ es) := by
  have hgiven := Schedule.coordinated_nil h₀
  have hv := Schedule.views_of_getElem? hr
  obtain ⟨_, hcoordinated⟩ := h.coordinated hgiven
  obtain ⟨p, _, hp⟩ := hcoordinated.get hv
  have hdocumented : r.view.Documented :=
    h.invariant View.documented_ofPrepared (fun _ hd hm => hd.moved hm) hgiven
      (Schedule.forall_views_nil h₀ _) _ (List.mem_of_getElem? hv)
  obtain ⟨ms, running, hk, _⟩ := hp.coordinated.kept hp.valid
  have hcalled : r.progress.aborted = true ↔ .looked run true ∈ es := by
    refine (Schedule.hasAborted_iff hv).symm.trans ((h.hasAborted_iff hgiven).trans (or_iff_right ?_))
    rintro ⟨r', hr', _⟩
    rw [h₀] at hr'
    cases hr'
  have hnot : r.progress.aborted = false ↔ ¬ .looked run true ∈ es := by
    rw [← hcalled, Bool.not_eq_true]
  have hc := Progress.concluded_report hp.valid.tabled r.progress r.context.traceId
  refine ⟨hc.aborted_iff.trans hcalled, ?_, ?_, hc.error_of_failure, fun hn => ?_,
    hc.error_eq_none_iff hk.consistent.aborted, fun q hq hs => ?_, hdocumented.recorded.recorded,
    hdocumented.recorded.fits, hp.valid.get?_boundary _⟩
  · rw [← hnot]
    exact hc.failed_iff
  · rw [← hnot]
    exact hc.succeeded_iff
  · exact hc.error_of_silent (hnot.mpr hn)
  · exact Progress.status_ne_succeeded hp.valid.tabled (fun hn => (hk.consistent.status hn q hq).not_failed hs) _

/-- The diamond while its third node makes its attempt. -/
def diamondJoined : Schedule Unit :=
  (((({ diamondTried with now := 5 } : Schedule Unit).turnNode diamondEngine.config.backoff 0 0).turnNode
    diamondEngine.config.backoff 0 1).coordinate 0).turnNode diamondEngine.config.backoff 0 2

def diamondDone : Schedule Unit :=
  (({ diamondJoined with now := 10 } : Schedule Unit).turnNode diamondEngine.config.backoff 0 2).coordinate 0

theorem leads_diamondDone : ∃ es, Leads diamondEngine idle es diamondDone := by
  obtain ⟨es, hes⟩ := leads_diamondTried
  have hwoken := hes.step (.later (by decide +kernel : diamondTried.now ≤ 5))
  have hworked := (hwoken.step (.work 0 0)).step (.work 0 1)
  obtain ⟨es', hes'⟩ := Schedule.leads_coordinate_of_leads rfl hworked 0
  have hjoined : Leads diamondEngine idle _ diamondJoined := hes'.step (.work 0 2)
  have hlast := hjoined.step (.later (by decide +kernel : diamondJoined.now ≤ 10))
  obtain ⟨es'', hes''⟩ := Schedule.leads_coordinate_of_leads rfl (hlast.step (.work 0 2)) 0
  exact ⟨_, hes''⟩

/-- The diamond succeeds when nothing stops it. -/
theorem tells_diamond : ∃ es r, Leads diamondEngine idle es diamondDone ∧ diamondDone.runs[0]? = some r ∧
    r.ended = true ∧ r.report.status = .succeeded ∧ r.report.outputs.keys = ["both", "left", "right"] ∧
    r.report.boundary.keys = ["y"] ∧ Tells r.report r.plan r.progress (.looked 0 true ∈ es) := by
  have hrun : (diamondDone.runs[0]?).map (fun r =>
      (r.ended, r.report.status, r.report.outputs.keys, r.report.boundary.keys)) =
        some (true, .succeeded, ["both", "left", "right"], ["y"]) := by decide +kernel
  obtain ⟨r, hr, hseen⟩ := Option.map_eq_some_iff.mp hrun
  simp only [Prod.mk.injEq] at hseen
  obtain ⟨hended, hstatus, houtputs, hboundary⟩ := hseen
  obtain ⟨es, hes⟩ := leads_diamondDone
  exact ⟨es, r, hes, hr, hended, hstatus, houtputs, hboundary, hes.tells rfl hr⟩

end Workflow
