import Workflow.Proofs.Engine.Limits
import Workflow.Proofs.Engine.Punctual

namespace Workflow

open Activity Schedule Coordination

variable {μ : Type}
variable {e : Engine μ} {s t : Schedule μ} {ev : Event} {es : List Event}
variable {run place since due now : Nat} {x x' : Execution (World μ)} {b : Backoff} {site : Site μ}
variable {p : Activity (World μ) Ending} {w : World μ} {given : List (Prepared μ)}

namespace Schedule

/-- An execution waits for its permits, or has something to do of its task, at a time that has not passed. -/
def Site.Minds (b : Backoff) (site : Site μ) (now : Nat) (x : Execution (World μ)) : Prop :=
  x.phase.waits = true ∨ ∃ since due p, site.Awaits b x.place x.inputs x.phase since due p ∧ now ≤ due ∧
    ∀ ending fin, Comes due p ending fin → Comes since (site.task b x.place x.inputs) ending fin

def Minds (b : Backoff) (s : Schedule μ) : Prop :=
  ∀ run place site x, s.site? run place = some site → s.execution? (run, place) = some x →
    site.Minds b s.now x

theorem Site.Minds.congr (h : site.Minds b now x) (hplace : x'.place = x.place) (hinputs : x'.inputs = x.inputs)
    (hphase : x'.phase = x.phase ∨ x'.phase = x.phase.granted) : site.Minds b now x' := by
  rcases h with hwaits | ⟨since, due, p, ha, hdue, hcomes⟩
  · refine .inl ?_
    rcases hphase with hp | hp
    · rw [hp, hwaits]
    · rw [hp, Phase.waits_granted, hwaits]
  · have hsame : x'.phase = x.phase :=
      hphase.elim (fun hp => hp) fun hp => hp.trans (Phase.granted_of_waits ha.waits_eq)
    refine .inr ⟨since, due, p, ?_, hdue, ?_⟩
    · rw [hplace, hinputs, hsame]
      exact ha
    · rw [hplace, hinputs]
      exact hcomes

/-- An execution that went on has still to do what is left of its task. -/
theorem Site.Goes.minds {inputs : Inputs} (h : site.Goes b place inputs since s.now t (p.advance s.now w))
    (hcomes : ∀ ending fin, Comes s.now p ending fin → Comes since (site.task b place inputs) ending fin)
    (hnow : t.now = s.now) (hx : t.execution? (site.run, place) = some x) : site.Minds b t.now x := by
  rcases hadv : p.advance s.now w with ⟨progress, w'⟩
  rw [hadv] at h
  cases h with
  | ended hr hnone _ =>
    rw [execution?, hr, Option.bind_some, hnone] at hx
    cases hx
  | @rests ms next y hy hi ha =>
    cases hy.symm.trans hx
    obtain ⟨_, -, hexec⟩ := Option.bind_eq_some_iff.mp hx
    refine .inr ⟨since, s.now + ms, next, ?_, hnow ▸ Nat.le_add_right _ _, fun ending fin hn => ?_⟩
    · rw [Run.place_of_execution? hexec, hi]
      exact ha
    · rw [Run.place_of_execution? hexec, hi]
      exact hcomes ending fin (comes_of_resting hadv hn)

theorem Spares.site?_eq {own : Nat × Nat → Prop} (h : Spares own s t) (run place : Nat) :
    t.site? run place = s.site? run place := by
  cases hr : t.runs[run]? with
  | some r' =>
    obtain ⟨r, hr₀, hspared⟩ := h.runs run r' hr
    simp only [site?, hr, hr₀, Option.bind_eq_bind, Option.bind_some, Run.node?, hspared.plan, hspared.work,
      hspared.context]
  | none =>
    have hnone : s.runs[run]? = none := by
      rw [List.getElem?_eq_none_iff, ← h.length]
      exact List.getElem?_eq_none_iff.mp hr
    simp only [site?, hr, hnone, Option.bind_eq_bind, Option.bind_none]

theorem Minds.spares {own : Nat × Nat → Prop} (h : Minds b s) (ht : Spares own s t)
    (hsite : t.site? run place = some site) (hx : t.execution? (run, place) = some x') (ho : ¬ own (run, place)) :
    site.Minds b t.now x' := by
  obtain ⟨r', hr', hx'⟩ := Option.bind_eq_some_iff.mp hx
  obtain ⟨r, hr, hspared⟩ := ht.runs run r' hr'
  rcases hspared.executions place x' hx' with hown | hfresh | ⟨x, hx, hinputs, hphase⟩
  · exact absurd hown ho
  · exact .inl (by rw [hfresh]; rfl)
  · have hexec : s.execution? (run, place) = some x := Option.bind_eq_some_iff.mpr ⟨r, hr, hx⟩
    have hplace : x'.place = x.place := (Run.place_of_execution? hx').trans (Run.place_of_execution? hx).symm
    rw [ht.now]
    exact (h run place site x (ht.site?_eq run place ▸ hsite) hexec).congr hplace hinputs hphase

/-- A turn has an execution mind what is left of its task. -/
theorem Minds.turnNode (h : Minds b s) (hp : ∀ run place site, s.site? run place = some site → site.Patient) :
    Minds b (s.turnNode b run place) := by
  have hspares : Spares (fun k => k = (run, place)) s (s.turnNode b run place) :=
    (Spares.refl s).turnNode rfl
  intro run' place' site x' hsite hx'
  by_cases hown : (run', place') = (run, place)
  · obtain ⟨rfl, rfl⟩ := Prod.mk.inj hown
    have hsite : s.site? run' place' = some site := hspares.site?_eq run' place' ▸ hsite
    obtain ⟨hrun, r, hr, -⟩ := of_site? hsite
    cases hx : r.execution? place' with
    | none =>
      have hsame : s.turnNode b run' place' = s := by
        rw [turnNode, hr, hsite]
        dsimp only
        rw [hx]
      rw [hsame] at hx' ⊢
      exact h run' place' site x' hsite hx'
    | some x =>
      have hexec : s.execution? (run', place') = some x := Option.bind_eq_some_iff.mpr ⟨r, hr, hx⟩
      have hplace := Run.place_of_execution? hx
      cases hs : r.stopped with
      | true =>
        obtain ⟨r', hr', hnone, -⟩ := (callsOff_turnNode (b := b) hr hs hx hsite).told
        rw [hrun] at hr'
        rw [execution?, hr', Option.bind_some, ← hplace, hnone] at hx'
        cases hx'
      | false =>
        rcases h run' place' site x hsite hexec with hwaits | ⟨since, due, p, ha, hdue, hcomes⟩
        · cases enters_turnNode hr hs hx hsite (hp _ _ _ hsite) hwaits with
          | waits _ hy _ hwaits' =>
            rw [hrun] at hy
            cases hy.symm.trans hx'
            exact .inl hwaits'
          | begins hgoes => exact hgoes.minds (fun _ _ hc => hc) hspares.now (hrun ▸ hx')
        · rcases Nat.lt_or_eq_of_le hdue with hlt | heq
          · rw [turnNode_of_early hr hs hx hsite ha.next?_eq hlt] at hx' ⊢
            exact h run' place' site x' hsite hx'
          · rw [hplace] at ha hcomes
            exact (goes_turnNode hr hs hx hsite (hp _ _ _ hsite) ha heq).minds (heq ▸ hcomes) hspares.now
              (hrun ▸ hx')
  · exact h.spares hspares hsite hx' hown

/-- A run that is put under way has no executions yet. -/
theorem Minds.enrol {r : Run μ} (h : Minds b s) (hx : r.executions = []) : Minds b (s.enrol r).2 := by
  intro run place site x hsite hexec
  by_cases hlt : run < s.runs.length
  · have hruns : (s.enrol r).2.runs[run]? = s.runs[run]? := List.getElem?_append_left hlt
    refine h run place site x ?_ ?_
    · rw [site?, hruns] at hsite
      exact hsite
    · rw [execution?, hruns] at hexec
      exact hexec
  · have hruns : (s.enrol r).2.runs[run]? = [r][run - s.runs.length]? :=
      List.getElem?_append_right (Nat.le_of_not_lt hlt)
    rw [execution?, hruns, List.getElem?_singleton] at hexec
    split at hexec
    · rw [Option.bind_some, Run.execution?, hx] at hexec
      cases hexec
    · cases hexec

/-- Time may pass up to where an execution has to have its turn. -/
theorem Minds.rest (h : Minds b s) (hr : t.runs = s.runs) (hle : s.now ≤ t.now)
    (hn : s.now < t.now → ∀ k x due, s.execution? k = some x → x.phase.next? = some due → t.now ≤ due) :
    Minds b t := by
  intro run place site x hsite hx
  rw [site?, hr] at hsite
  rw [execution?, hr] at hx
  rcases h run place site x hsite hx with hwaits | ⟨since, due, p, ha, hdue, hcomes⟩
  · exact .inl hwaits
  · refine .inr ⟨since, due, p, ha, ?_, hcomes⟩
    rcases Nat.lt_or_eq_of_le hle with hlt | heq
    · exact hn hlt (run, place) x due hx ha.next?_eq
    · exact heq ▸ hdue

/-- The policies of valid workflows are patient. -/
theorem patient (hc : s.views.Coordinated given) (hsite : s.site? run place = some site) : site.Patient := by
  obtain ⟨-, r, hr, -, hnode⟩ := of_site? hsite
  obtain ⟨_, _, hv⟩ := hc.get (views_of_getElem? hr)
  have hsound := (hv.valid.sound (List.mem_of_getElem? hnode)).2
  exact ⟨hsound.retries, hsound.timeout⟩

end Schedule

theorem Happens.minds (hc : s.views.Coordinated given) (h : Minds e.config.backoff s) (hs : Happens e s ev t)
    (hn : s.now < t.now → ∀ k x due, s.execution? k = some x → x.phase.next? = some due → t.now ≤ due) :
    Minds e.config.backoff t := by
  have hother : ev ≠ .begun → ev ≠ .rested → (∀ run place, ev ≠ .worked run place) →
      Minds e.config.backoff t :=
    fun hb hr hw run place site x hsite hx => h.spares (hs.spares hb hr) hsite hx (hw run place)
  cases hs with
  | begin => exact h.enrol rfl
  | work run place => exact h.turnNode fun _ _ _ => patient hc
  | rest _ _ _ hr hle _ => exact h.rest hr hle hn
  | start | close | look | cancel =>
    exact hother (fun he => by cases he) (fun he => by cases he) fun _ _ he => by cases he

theorem Punctual.minds {s₀ : Schedule μ} (h₀ : s₀.runs = []) (h : Punctual e s₀ es s) :
    Minds e.config.backoff s := by
  induction h with
  | refl =>
    intro run place site x hsite hx
    rw [execution?, h₀] at hx
    cases hx
  | step hled hs hn ih =>
    obtain ⟨_, hc⟩ := hled.leads.coordinated (coordinated_nil h₀)
    exact hs.minds hc ih hn

namespace Schedule

/-- An execution has its permits since a time, and `p` to do from another on, which is what is left of its
task. Before that time nothing comes of its turn; at that time its turn has it do what it has to do, and
nothing else. It is done when it may take no longer, and the engine does not come to rest before. -/
structure Site.Pursues (e : Engine μ) (site : Site μ) (s : Schedule μ) (x : Execution (World μ))
    (since due : Nat) (p : Activity (World μ) Ending) : Prop where
  awaits : site.Awaits e.config.backoff x.place x.inputs x.phase since due p
  comes : ∀ ending fin, Comes due p ending fin →
    Comes since (site.task e.config.backoff x.place x.inputs) ending fin
  now_le : s.now ≤ due
  due_le : due ≤ since + site.allowance e.config.backoff
  early : s.now < due → s.turnNode e.config.backoff site.run x.place = s
  goes : s.now = due → site.Goes e.config.backoff x.place x.inputs since s.now
    (s.turnNode e.config.backoff site.run x.place) (p.advance s.now s.world)
  moves : ∃ t, s.step? e = some t

/-- How an execution makes its attempts. It waits for its permits and begins its task with them, and then does
what is left of its task at its times. Whatever its task comes to, the execution has made its attempts as its
policy says, and it has made none when its state cannot be bound. When the nodes of its run are cancelled, it
is told to be cancelled, and nothing is done in the world any more. -/
structure Retrying (e : Engine μ) (s : Schedule μ) (r : Run μ) (site : Site μ) (x : Execution (World μ)) :
    Prop where
  enters : r.stopped = false → x.phase.waits = true → site.Enters e.config.backoff x.place x.inputs s
    (s.turnNode e.config.backoff site.run x.place)
  pursues : r.stopped = false → x.phase.waits = false → ∃ since due p, site.Pursues e s x since due p
  retried : ∀ since ending fin, Comes since (site.task e.config.backoff x.place x.inputs) ending fin →
    site.Retried e.config.backoff x.place x.inputs since fin ending
  unbound : ∀ (now : Nat) (w : World μ) (err : StateError),
    Slot.bind w site.run ⟨site.id, site.context, x.inputs⟩ site.node.state = .error err →
    (site.task e.config.backoff x.place x.inputs).advance now w =
      (.finished ⟨[], .failed ⟨some site.id, .invocation, 1, err.message⟩, 1⟩, w)
  callsOff : r.stopped = true → site.CallsOff x s (s.turnNode e.config.backoff site.run x.place)
  rests : r.stopped = true → ∀ es t, Leads e s es t → ∃ r', t.runs[site.run]? = some r' ∧ r'.stopped = true ∧
    ∀ place, (t.turnNode e.config.backoff site.run place).world = t.world

end Schedule

/-- The nodes of a run that were cancelled stay so. -/
theorem Happens.stopped {r : Run μ} (h : Happens e s ev t) (hr : s.runs[run]? = some r)
    (hs : r.stopped = true) : ∃ r', t.runs[run]? = some r' ∧ r'.stopped = true := by
  obtain ⟨r', hr', hspared⟩ := h.exists_spared hr
  exact ⟨r', hr', hspared.stopped hs⟩

theorem Leads.stopped {r : Run μ} (h : Leads e s es t) (hr : s.runs[run]? = some r)
    (hs : r.stopped = true) : ∃ r', t.runs[run]? = some r' ∧ r'.stopped = true := by
  induction h with
  | refl => exact ⟨r, hr, hs⟩
  | step _ hstep ih =>
    obtain ⟨r', hr', hs'⟩ := ih
    exact hstep.stopped hr' hs'

/-- In an engine that is on time, whose runs are all those of valid workflows, every execution makes its
attempts as the policy of its node says. -/
theorem Punctual.retrying {s₀ : Schedule μ} {r : Run μ} (h₀ : s₀.runs = []) (h : Punctual e s₀ es s)
    (hr : s.runs[run]? = some r) (hx : r.execution? place = some x) (hsite : s.site? run place = some site) :
    Retrying e s r site x := by
  obtain ⟨_, hc⟩ := h.leads.coordinated (coordinated_nil h₀)
  have hp := patient hc hsite
  obtain ⟨rfl, -⟩ := of_site? hsite
  have hplace := Run.place_of_execution? hx
  subst hplace
  have hexec : s.execution? (site.run, x.place) = some x := Option.bind_eq_some_iff.mpr ⟨r, hr, hx⟩
  refine ⟨fun hs hw => enters_turnNode hr hs hx hsite hp hw, fun hs hw => ?_,
    fun since ending fin hcomes => Site.retried_of_comes hp.retries hcomes,
    fun now w err hbind => Site.advance_task_of_error hbind, fun hs => callsOff_turnNode hr hs hx hsite,
    fun hs es' t ht => ?_⟩
  · rcases h.minds h₀ site.run x.place site x hsite hexec with hwaits | ⟨since, due, p, ha, hdue, hcomes⟩
    · cases hwaits.symm.trans hw
    · refine ⟨since, due, p, ha, hcomes, hdue, ?_, fun hlt => turnNode_of_early hr hs hx hsite ha.next?_eq hlt,
        fun heq => goes_turnNode hr hs hx hsite hp ha heq, exists_step? hexec ha.next?_eq⟩
      obtain ⟨ending, fin, hfin⟩ := exists_comes s.world p due
      exact hfin.le.trans (Site.retried_of_comes hp.retries (hcomes ending fin hfin)).fin_le
  · obtain ⟨r', hr', hs'⟩ := ht.stopped hr hs
    exact ⟨r', hr', hs', fun _ => world_turnNode hr' (.inl hs')⟩

/-- A node that may be called three times, for a while each. -/
def patientNode : Node := { caller 1 with policy := { timeoutMs := 100, retries := 3, backoffMs := 50 } }

def vigil : Document where
  version := "1.0"
  metadata := [("name", .str "vigil")]
  requires := []
  nodes := [("call", patientNode)]
  links := (report 1).links
  deployment := none

def vigilFlow : Flow where
  version := "1.0"
  metadata := [("name", .str "vigil")]
  requires := []
  nodes := [("call", patientNode)]
  links := (reportFlow 1).links
  deployment := none

def vigilPlan : Plan := { reportPlan 1 with flow := vigilFlow }

set_option maxRecDepth 10000 in
theorem validate_vigil : Flow.validate vigil = .ok vigilFlow := by with_unfolding_all rfl

theorem ofFlow_vigil : Plan.ofFlow vigilFlow = .ok vigilPlan := by rfl

/-- The work of the node takes longer than it may. -/
def vigilReady : Prepared Unit where
  plan := vigilPlan
  work := [fun _ _ => .rest 1000 (.done (.ok (.str "late")))]
  context := diamondContext
  inputs := []
  deadlineMs := none

def vigilBegun : Schedule Unit := (idle.enrol (.ofPrepared diamondEngine.config 0 vigilReady)).2

/-- The third attempt of the node is about to run out of time. -/
def vigilLate : Schedule Unit := (vigilBegun.coordinate 0).advance diamondEngine 10

theorem punctual_vigilLate : ∃ es, Punctual diamondEngine idle es vigilLate := by
  have hbegun : Punctual diamondEngine idle _ vigilBegun :=
    Punctual.refl.step (.begin validate_vigil ofFlow_vigil) fun hlt => absurd hlt (Nat.lt_irrefl _)
  obtain ⟨_, hc⟩ := hbegun.leads.coordinated (coordinated_nil rfl)
  obtain ⟨es, hes⟩ := leads_coordinate (e := diamondEngine) hc 0
  obtain ⟨_, hc'⟩ := hes.coordinated hc
  have hsound : (vigilBegun.coordinate 0).views.Sound := by
    unfold Views.Sound
    rw [hes.errands_eq hc]
    exact fun _ _ h => by cases h
  obtain ⟨es', hes'⟩ := punctual_advance (e := diamondEngine) hc' hsound 10
  exact ⟨_, (hbegun.trans (hes.punctual (now_coordinate 0))).trans hes'⟩

/-- Its next turn ends it, after three times the time of an attempt and twice the pause. -/
theorem retrying_vigil : ∃ es r site x, Punctual diamondEngine idle es vigilLate ∧
    vigilLate.runs[0]? = some r ∧ r.execution? 0 = some x ∧ vigilLate.site? 0 0 = some site ∧
    x.phase.begun = 3 ∧ r.stopped = false ∧ vigilLate.now = 3 * 100 + 2 * 50 ∧
    ((vigilLate.turnNode diamondEngine.config.backoff 0 0).runs[0]?).map (fun r =>
      r.finished.map fun c => (c.place, c.attempts, c.startedAt, c.durationMs)) = some [(0, 3, some 0, 400)] ∧
    Retrying diamondEngine vigilLate r site x := by
  obtain ⟨es, hes⟩ := punctual_vigilLate
  have hseen : (vigilLate.runs[0]?).map (fun r =>
      ((r.execution? 0).map (fun x => x.phase.begun), r.stopped)) = some (some 3, false) := by decide +kernel
  obtain ⟨r, hr, hseen⟩ := Option.map_eq_some_iff.mp hseen
  obtain ⟨hbegun, hstopped⟩ := Prod.mk.inj hseen
  obtain ⟨x, hx, hbegun⟩ := Option.map_eq_some_iff.mp hbegun
  have hsome : (vigilLate.site? 0 0).isSome = true := by decide +kernel
  obtain ⟨site, hsite⟩ := Option.isSome_iff_exists.mp hsome
  exact ⟨es, r, site, x, hes, hr, hx, hsite, hbegun, hstopped, by decide +kernel, by decide +kernel,
    hes.retrying rfl hr hx hsite⟩

end Workflow
