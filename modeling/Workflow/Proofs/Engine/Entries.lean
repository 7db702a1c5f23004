import Workflow.Proofs.Engine.Barrier
import Workflow.Proofs.Plan.Layers

namespace Workflow

variable {μ : Type}

/-- An error that keeps a run from starting, as a report tells it. -/
def StartError.runError : StartError → RunError
  | .plan e => .ofRun .invocation e.message
  | .dispatch id e => ⟨some id, .invocation, 0, e.message⟩
  | .context e => .ofRun .missingInput e.message

namespace Engine

/-- Why an engine does not start a flow in a context. The context lacks a field that the flow needs; or it
lacks none, and this is the first node in document order whose transform the host cannot do. -/
inductive Refuses (e : Engine μ) (f : Flow) (ctx : Context) : StartError → Prop
  | context {err : ContextError} (h : ctx.require f.requires = .error err) : Refuses e f ctx (.context err)
  | dispatch {before after : List (String × Node)} {id : String} {n : Node} {err : DispatchError}
      (hc : ctx.require f.requires = .ok ()) (hf : f.nodes = before ++ (id, n) :: after)
      (hb : ∀ x ∈ before, ∃ c, e.host.resolve x.2.transform = .ok c)
      (hn : e.host.resolve n.transform = .error err) : Refuses e f ctx (.dispatch id err)

variable {e : Engine μ} {h : Host (World μ)} {f : Flow} {p : Plan} {request : Request} {ctx : Context}
variable {s : Schedule μ}

theorem resolveNodes_eq_error_iff {nodes : List (String × Node)} {id : String} {err : DispatchError} :
    resolveNodes h nodes = .error (id, err) ↔ ∃ before n after, nodes = before ++ (id, n) :: after ∧
      (∀ x ∈ before, ∃ c, h.resolve x.2.transform = .ok c) ∧ h.resolve n.transform = .error err := by
  induction nodes with
  | nil => simp [resolveNodes]
  | cons x nodes ih =>
    obtain ⟨id', n'⟩ := x
    cases hx : h.resolve n'.transform with
    | error err' =>
      have hfirst : resolveNodes h ((id', n') :: nodes) = .error (id', err') := by
        rw [resolveNodes, hx]
        rfl
      rw [hfirst]
      constructor
      · intro heq
        cases heq
        exact ⟨[], n', nodes, rfl, fun _ hm => absurd hm List.not_mem_nil, hx⟩
      · rintro ⟨before, n, after, hnodes, hb, hn⟩
        cases before with
        | nil =>
          cases hnodes
          cases hx.symm.trans hn
          rfl
        | cons y before =>
          cases hnodes
          obtain ⟨c, hc⟩ := hb _ List.mem_cons_self
          cases hx.symm.trans hc
    | ok c =>
      have hrest : resolveNodes h ((id', n') :: nodes) = .error (id, err) ↔
          resolveNodes h nodes = .error (id, err) := by
        rw [resolveNodes, hx]
        cases resolveNodes h nodes <;> simp [Except.mapError, bind, Except.bind, pure, Except.pure]
      rw [hrest, ih]
      constructor
      · rintro ⟨before, n, after, rfl, hb, hn⟩
        refine ⟨(id', n') :: before, n, after, rfl, fun x hm => ?_, hn⟩
        rcases List.mem_cons.mp hm with rfl | hm
        · exact ⟨c, hx⟩
        · exact hb x hm
      · rintro ⟨before, n, after, hnodes, hb, hn⟩
        cases before with
        | nil =>
          cases hnodes
          cases hx.symm.trans hn
        | cons y before =>
          cases hnodes
          exact ⟨before, n, after, rfl, fun x hm => hb x (List.mem_cons_of_mem _ hm), hn⟩

theorem refuses_dispatch_iff (hc : ctx.require f.requires = .ok ()) {id : String} {err : DispatchError} :
    e.Refuses f ctx (.dispatch id err) ↔ resolveNodes e.host f.nodes = .error (id, err) := by
  rw [resolveNodes_eq_error_iff]
  constructor
  · rintro ⟨⟩
    exact ⟨_, _, _, ‹_›, ‹_›, ‹_›⟩
  · rintro ⟨before, n, after, hf, hb, hn⟩
    exact .dispatch hc hf hb hn

theorem Refuses.unique {err err' : StartError} (hr : e.Refuses f ctx err) (hr' : e.Refuses f ctx err') :
    err = err' := by
  cases hr with
  | context hc =>
    cases hr' with
    | context hc' =>
      cases hc.symm.trans hc'
      rfl
    | dispatch hc' => cases hc.symm.trans hc'
  | dispatch hc hf hb hn =>
    cases hr' with
    | context hc' => cases hc.symm.trans hc'
    | dispatch _ hf' hb' hn' =>
      have hfirst := (refuses_dispatch_iff hc).mp (.dispatch hc hf hb hn)
      have hfirst' := (refuses_dispatch_iff hc).mp (.dispatch hc hf' hb' hn')
      cases hfirst.symm.trans hfirst'
      rfl

/-- A flow is refused for the same reason, or made ready in the same way, whether it comes with a request
or as a plan with the context of the request. -/
theorem refuses_or_ready (hp : Plan.ofFlow f = .ok p)
    (hctx : Context.ofFields e.defaults request.fields = .ok ctx) (hd : request.deadlineMs = none) :
    (∃ err, e.Refuses f ctx err ∧ e.prepare f request = .error err ∧
      e.preparePlan p ctx request.inputs = .error (notStarted ctx err.runError)) ∨
    (∀ err, ¬ e.Refuses f ctx err) ∧
      ∃ ready, e.prepare f request = .ok ready ∧ e.preparePlan p ctx request.inputs = .ok ready := by
  have hflow : p.flow = f := (Plan.eq_of_ofFlow hp).1
  unfold prepare preparePlan
  rw [hctx, hp, hflow, hd]
  cases hc : ctx.require f.requires with
  | error err =>
    refine .inl ⟨.context err, .context hc, ?_, rfl⟩
    simp [hc, Except.mapError, bind, Except.bind]
  | ok u =>
    cases hn : resolveNodes e.host f.nodes with
    | error x =>
      refine .inl ⟨.dispatch x.1 x.2, (refuses_dispatch_iff hc).mpr hn, ?_, rfl⟩
      simp [resolve, hc, hflow, hn, Except.mapError, bind, Except.bind]
    | ok cs =>
      refine .inr ⟨fun err hr => ?_, _, ?_, rfl⟩
      · cases hr with
        | context hc' => cases hc.symm.trans hc'
        | dispatch hc' hf hb hn' =>
          cases hn.symm.trans ((refuses_dispatch_iff hc).mp (.dispatch hc' hf hb hn'))
      · simp [resolve, hc, hflow, hn, Except.mapError, bind, Except.bind, pure, Except.pure]

/-- The two ways to run a flow agree. A request has an error exactly when the flow is refused in its
context, and exactly then the plan is not started there; both leave everything as it is, and tell the same
reason. Otherwise both do the same, and have the same report. -/
structure Agree (e : Engine μ) (f : Flow) (p : Plan) (request : Request) (ctx : Context)
    (s : Schedule μ) : Prop where
  refused : ∀ err, (e.execute f request s).1 = .error err ↔ e.Refuses f ctx err
  started : (∃ report, (e.execute f request s).1 = .ok report) ↔
    ∃ ready, e.preparePlan p ctx request.inputs = .ok ready
  untouched : ∀ err, e.Refuses f ctx err → e.execute f request s = (.error err, s) ∧
    e.preparePlan p ctx request.inputs = .error (notStarted ctx err.runError) ∧
    e.run p ctx request.inputs s = (⟨ctx.traceId, .failed, [], [], some err.runError, []⟩, s)
  same : ∀ report t, e.execute f request s = (.ok report, t) → e.run p ctx request.inputs s = (report, t)

/-- Every valid workflow has a plan, and for a request without a deadline of its own it does not matter
whether the flow is run with the request or the plan in its context. -/
theorem exists_agree {d : Document} (hv : Flow.validate d = .ok f)
    (hctx : Context.ofFields e.defaults request.fields = .ok ctx) (hd : request.deadlineMs = none) :
    ∃ p, Plan.ofFlow f = .ok p ∧ ∀ s : Schedule μ, e.Agree f p request ctx s := by
  obtain ⟨p, hp⟩ := Plan.exists_ofFlow hv
  refine ⟨p, hp, fun s => ?_⟩
  rcases refuses_or_ready hp hctx hd with ⟨err, hr, hprepare, hplan⟩ | ⟨hr, ready, hprepare, hplan⟩
  · have hexecute : e.execute f request s = (.error err, s) := by rw [execute, hprepare]
    have hrun : e.run p ctx request.inputs s = (notStarted ctx err.runError, s) := by rw [run, hplan]
    refine ⟨fun err' => ?_, ?_, fun err' hr' => ?_, fun report t ht => ?_⟩
    · rw [hexecute]
      constructor
      · rintro heq
        cases heq
        exact hr
      · intro hr'
        rw [hr.unique hr']
    · rw [hexecute, hplan]
      simp
    · cases hr.unique hr'
      exact ⟨hexecute, hplan, hrun⟩
    · rw [hexecute] at ht
      cases ht
  · have hexecute : e.execute f request s = (.ok (e.complete ready s).1, (e.complete ready s).2) := by
      rw [execute, hprepare]
    have hrun : e.run p ctx request.inputs s = e.complete ready s := by rw [run, hplan]
    refine ⟨fun err' => ?_, ?_, fun err' hr' => absurd hr' (hr err'), fun report t ht => ?_⟩
    · rw [hexecute]
      exact iff_of_false (fun heq => by cases heq) (hr err')
    · rw [hexecute, hplan]
      exact iff_of_true ⟨_, rfl⟩ ⟨_, rfl⟩
    · rw [hexecute] at ht
      rw [hrun]
      cases ht
      rfl

open Coordination

/-- A host that has no runtime for code refuses the diamond because of its first node. -/
theorem agree_diamond : ∃ p ctx, Plan.ofFlow diamondFlow = .ok p ∧
    Context.ofFields diamondEngine.defaults [] = .ok ctx ∧
    diamondEngine.Refuses diamondFlow ctx (.dispatch "left" .noCodeRuntime) ∧
    ∀ s, diamondEngine.Agree diamondFlow p ⟨diamondInputs, [], none⟩ ctx s := by
  have hctx : Context.ofFields diamondEngine.defaults [] = .ok ⟨none, none, "trace", "", none, []⟩ := rfl
  have hnodes : diamondFlow.nodes = [] ++ ("left", stage ["in"]) :: diamondFlow.nodes.tail := rfl
  obtain ⟨p, hp, hs⟩ : ∃ p, Plan.ofFlow diamondFlow = .ok p ∧ ∀ s : Schedule Unit,
      diamondEngine.Agree diamondFlow p ⟨diamondInputs, [], none⟩ _ s :=
    exists_agree validate_diamond hctx rfl
  exact ⟨p, _, hp, hctx, .dispatch rfl hnodes (fun _ hm => by cases hm) rfl, hs⟩

end Engine

end Workflow
