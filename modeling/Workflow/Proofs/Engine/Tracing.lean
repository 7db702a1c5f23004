import Workflow.Proofs.Context.Fields
import Workflow.Proofs.Engine.Recasting
import Workflow.Proofs.Plan.Tables

namespace Workflow

namespace Context

variable {c c' : Context} {name : String} {fields : Assoc Json}

/-- A context whose raw fields do not tell its trace id. -/
def untraced (c : Context) : Context := { c with raw := c.raw.erase "trace_id" }

/-- Contexts that differ in the raw trace id at most. -/
def Agree (c c' : Context) : Prop := c.untraced = c'.untraced

theorem untraced_untraced (c : Context) : c.untraced.untraced = c.untraced := by
  rw [untraced, untraced, Assoc.erase_erase]

/-- A trace id is there in any case, whether it is among the raw fields or not. -/
theorem hasField_untraced (c : Context) (name : String) : c.untraced.hasField name = c.hasField name := by
  by_cases hn : name = "trace_id"
  · rw [hn]
    rfl
  · unfold hasField untraced
    rw [Assoc.get?_erase, if_neg (Ne.symm hn)]

theorem require_untraced (c : Context) (names : List String) : c.untraced.require names = c.require names := by
  induction names with
  | nil => rfl
  | cons name names ih => rw [require, require, hasField_untraced, ih]

theorem Agree.require_eq (h : Agree c c') (names : List String) : c.require names = c'.require names := by
  rw [← require_untraced c, ← require_untraced c', h]

/-- It makes no difference to the reading of a request whether it says no trace id or the one that stands for
that. -/
theorem ofFields_insert_traceId (hnone : Says fields "trace_id" none) (defaults : Defaults) :
    (∃ e, ofFields defaults fields = .error e ∧
      ofFields defaults (fields.insert "trace_id" (.str defaults.traceId)) = .error e) ∨
    ∃ c c', ofFields defaults fields = .ok c ∧
      ofFields defaults (fields.insert "trace_id" (.str defaults.traceId)) = .ok c' ∧ Agree c c' := by
  have hread : ∀ name, name ≠ "trace_id" →
      readField (fields.insert "trace_id" (.str defaults.traceId)) name = readField fields name :=
    fun name hn => readField_congr (Assoc.get?_insert_of_ne _ _ hn.symm)
  have hmissing : readField fields "trace_id" = .ok none := readField_eq_ok_iff.mpr hnone
  have htext : readField (fields.insert "trace_id" (.str defaults.traceId)) "trace_id" =
      .ok (some defaults.traceId) :=
    readField_eq_ok_iff.mpr (.text (by decide) (Assoc.get?_insert_self _ _ _))
  have hraw : (fields.erase "auth_token").erase "trace_id" =
      ((fields.insert "trace_id" (.str defaults.traceId)).erase "auth_token").erase "trace_id" := by
    rw [Assoc.erase_comm, Assoc.erase_comm (fields.insert ..), Assoc.erase_insert_self]
  rw [ofFields_eq, ofFields_eq, hread "user_id" (by decide), hread "session_id" (by decide),
    hread "event_time" (by decide), hread "auth_token" (by decide), hmissing, htext]
  cases readField fields "user_id" with
  | error e => exact .inl ⟨e, rfl, rfl⟩
  | ok userId =>
    cases readField fields "session_id" with
    | error e => exact .inl ⟨e, rfl, rfl⟩
    | ok sessionId =>
      cases readField fields "event_time" with
      | error e => exact .inl ⟨e, rfl, rfl⟩
      | ok eventTime =>
        cases readField fields "auth_token" with
        | error e => exact .inl ⟨e, rfl, rfl⟩
        | ok authToken =>
          refine .inr ⟨_, _, rfl, rfl, ?_⟩
          exact congrArg (Context.mk userId sessionId defaults.traceId _ authToken) hraw

end Context

variable {μ : Type} {e : Engine μ} {f : Flow} {p : Plan} {c c' : Context} {inputs : Inputs}

open Context

/-- Nothing that an engine reads as it runs a flow tells whether the trace id is among the raw fields: neither
the conditions and transforms of its links, nor the keys of its state, nor what its nodes do. -/
structure Engine.Overlooks (e : Engine μ) (f : Flow) : Prop where
  passes : ∀ l ∈ f.links, ∀ place value output c,
    Plan.passes l place (Expr.linkScope l.source.port value output (untraced c)) =
      Plan.passes l place (Expr.linkScope l.source.port value output c)
  transformed : ∀ l ∈ f.links, ∀ place value output c,
    Plan.transformed l place (Expr.linkScope l.source.port value output (untraced c)) value =
      Plan.transformed l place (Expr.linkScope l.source.port value output c) value
  key : ∀ id n config, (id, n) ∈ f.nodes → n.state = some config → ∀ c inputs,
    Template.renderKey ⟨id, untraced c, inputs⟩ config.keyTemplate =
      Template.renderKey ⟨id, c, inputs⟩ config.keyTemplate
  work : ∀ id n capability, (id, n) ∈ f.nodes → e.host.resolve n.transform = .ok capability →
    ∀ inputs c slot, capability.invoke inputs (untraced c) slot = capability.invoke inputs c slot

namespace Engine.Overlooks

theorem deliver (h : e.Overlooks p.flow) {l : Link} (hl : l ∈ p.flow.links) (place : Nat)
    (value output : Json) (c : Context) :
    p.deliver c.untraced l place value output = p.deliver c l place value output := by
  rw [Plan.deliver, Plan.deliver, h.passes l hl, h.transformed l hl]

theorem bindInputs (h : e.Overlooks p.flow) (c : Context) (inputs : Inputs) (s : Progress) :
    s.bindInputs p c.untraced inputs = s.bindInputs p c inputs := by
  have hbind : ∀ s place, Progress.bindInput p c.untraced inputs s place =
      Progress.bindInput p c inputs s place := fun s place => by
    rw [Progress.bindInput, Progress.bindInput]
    cases hl : p.flow.links[place]? with
    | none => rfl
    | some l => simp only [Progress.bound, h.deliver (List.mem_of_getElem? hl)]
  rw [Progress.bindInputs, Progress.bindInputs, funext fun s => funext (hbind s)]

theorem settleAll_congr {resolve resolve' : Link → Nat → Except RunError (Option Json)}
    (h : ∀ l ∈ p.flow.links, ∀ place, resolve l place = resolve' l place) (places : List Nat)
    (s : Progress) : s.settleAll p resolve places = s.settleAll p resolve' places := by
  induction places generalizing s with
  | nil => rfl
  | cons place rest ih =>
    rw [Progress.settleAll, Progress.settleAll]
    cases hl : p.flow.links[place]? with
    | none => exact ih s
    | some l => simp only [h l (List.mem_of_getElem? hl), ih]

theorem complete (h : e.Overlooks p.flow) (c : Context) (s : Progress) (x : Completion) :
    s.complete p c.untraced x = s.complete p c x := by
  have houtput : ∀ n output (s : Progress), s.settleAll p (Progress.outputOn p c.untraced n output)
      (p.outOf x.place) = s.settleAll p (Progress.outputOn p c n output) (p.outOf x.place) := fun n output s =>
    settleAll_congr (fun l hl place => by simp only [Progress.outputOn, h.deliver hl]) _ s
  have herror : ∀ n value (s : Progress), s.settleAll p (Progress.errorOn p c.untraced n value)
      (p.outOf x.place) = s.settleAll p (Progress.errorOn p c n value) (p.outOf x.place) := fun n value s =>
    settleAll_congr (fun l hl place => by simp only [Progress.errorOn, h.deliver hl]) _ s
  simp only [Progress.complete, houtput, herror]

theorem bind {ν : Type} (h : e.Overlooks p.flow) (w : World ν) (run : Nat) (c : Context) (inputs : Inputs)
    {id : String} {n : Node} (hn : (id, n) ∈ p.flow.nodes) :
    Slot.bind w run ⟨id, c.untraced, inputs⟩ n.state = Slot.bind w run ⟨id, c, inputs⟩ n.state := by
  cases hs : n.state with
  | none => rfl
  | some config => rw [Slot.bind, Slot.bind, h.key id n config hn hs]

theorem workIn (h : e.Overlooks f) {cs : List (Capability (World μ))}
    (hcs : resolveNodes e.host f.nodes = .ok cs) (c : Context) : Engine.workIn c.untraced cs = Engine.workIn c cs := by
  refine List.map_congr_left fun capability hmem => ?_
  obtain ⟨id, n, hn, hresolve⟩ := exists_of_mem_resolveNodes hcs hmem
  funext inputs slot
  exact h.work id n capability hn hresolve inputs c slot

end Engine.Overlooks

open Classical in
/-- The raw trace id is taken out of the contexts of all runs whose plans an engine overlooks it in. -/
noncomputable def Recast.untracing (e : Engine μ) : Recast where
  apply p c := if e.Overlooks p.flow then c.untraced else c
  traceId p c := by split <;> rfl
  complete p c s x := by
    split
    · next h => exact h.complete c s x
    · rfl
  bind w run p c inputs id n hn := by
    split
    · next h => exact h.bind w run c inputs hn
    · rfl
  again p c := by
    split
    · exact untraced_untraced c
    · rfl

/-- Two requests for runs of a flow are refused for the same reason, or both runs are made ready in the same
way. Then the contexts of the runs agree, in which the nodes have the same capabilities. -/
inductive Engine.StartsAlike (e : Engine μ) (f : Flow) :
    Except StartError (Prepared μ) → Except StartError (Prepared μ) → Prop where
  | refused (err : StartError) : StartsAlike e f (.error err) (.error err)
  | ready {p : Plan} (hp : Plan.ofFlow f = .ok p) {cs : List (Capability (World μ))}
      (hcs : e.resolve p = .ok cs) {c c' : Context} (hc : Agree c c') (inputs : Inputs) (deadlineMs : Option Nat) :
      StartsAlike e f (.ok ⟨p, Engine.workIn c cs, c, inputs, deadlineMs⟩)
        (.ok ⟨p, Engine.workIn c' cs, c', inputs, deadlineMs⟩)

namespace Engine

theorem StartsAlike.error_iff {x x' : Except StartError (Prepared μ)} {err : StartError}
    (h : e.StartsAlike f x x') : x = .error err ↔ x' = .error err := by
  cases h <;> simp

/-- An engine refuses a run when it cannot be made ready. -/
theorem execute_eq_error_iff {request : Request} {s : Schedule μ} {err : StartError} :
    (e.execute f request s).1 = .error err ↔ e.prepare f request = .error err := by
  rw [execute]
  cases e.prepare f request <;> simp

variable {fields : Assoc Json}

theorem prepare_insert_traceId (e : Engine μ) (f : Flow) (inputs : Inputs) (deadlineMs : Option Nat)
    (hnone : Says fields "trace_id" none) :
    e.StartsAlike f (e.prepare f ⟨inputs, fields, deadlineMs⟩)
      (e.prepare f ⟨inputs, fields.insert "trace_id" (.str e.defaults.traceId), deadlineMs⟩) := by
  rw [prepare, prepare]
  dsimp only
  obtain ⟨err, h, h'⟩ | ⟨c, c', h, h', hagree⟩ := ofFields_insert_traceId hnone e.defaults
  · rw [h, h']
    exact .refused _
  · rw [h, h']
    simp only [Except.mapError, bind, Except.bind]
    rw [hagree.require_eq]
    cases c'.require f.requires with
    | error err => exact .refused _
    | ok u =>
      cases hp : Plan.ofFlow f with
      | error err => exact .refused _
      | ok p =>
        dsimp only
        cases hcs : e.resolve p with
        | error err => exact .refused _
        | ok cs => exact .ready hp hcs hagree inputs _

/-- Where the raw trace id is overlooked, it does not matter to a run whether it is there. -/
theorem Overlooks.report_complete (h : e.Overlooks f) {p : Plan} (hp : Plan.ofFlow f = .ok p)
    {cs : List (Capability (World μ))} (hcs : e.resolve p = .ok cs) (hc : Agree c c') (inputs : Inputs)
    (deadlineMs : Option Nat) (s : Schedule μ) :
    (e.complete ⟨p, Engine.workIn c cs, c, inputs, deadlineMs⟩ s).1 =
      (e.complete ⟨p, Engine.workIn c' cs, c', inputs, deadlineMs⟩ s).1 := by
  have hflow : p.flow = f := (Plan.eq_of_ofFlow hp).1
  have hover : e.Overlooks p.flow := hflow ▸ h
  have hresolve : resolveNodes e.host p.flow.nodes = .ok cs := Except.eq_ok_of_mapError hcs
  have hwork : Engine.workIn c cs = Engine.workIn c' cs := by
    rw [← hover.workIn hresolve c, hc, hover.workIn hresolve c']
  have hbind : (Progress.start p).bindInputs p c inputs = (Progress.start p).bindInputs p c' inputs := by
    rw [← hover.bindInputs c, hc, hover.bindInputs c']
  refine report_complete_congr (g := .untracing e) e s rfl ?_
  have hcontext : (Recast.untracing e).apply p c = (Recast.untracing e).apply p c' := by
    rw [Recast.untracing]
    dsimp only
    rw [if_pos hover, if_pos hover, hc]
  rw [Run.recast, Run.recast, Run.ofPrepared, Run.ofPrepared]
  dsimp only
  rw [hwork, hbind, hcontext]

theorem execute_insert_traceId (h : e.Overlooks f) (inputs : Inputs) (deadlineMs : Option Nat) (s : Schedule μ)
    (hnone : Says fields "trace_id" none) :
    (e.execute f ⟨inputs, fields, deadlineMs⟩ s).1 =
      (e.execute f ⟨inputs, fields.insert "trace_id" (.str e.defaults.traceId), deadlineMs⟩ s).1 := by
  have hstarts := e.prepare_insert_traceId f inputs deadlineMs hnone
  rw [execute, execute]
  generalize e.prepare f ⟨inputs, fields, deadlineMs⟩ = x at hstarts ⊢
  generalize
    e.prepare f ⟨inputs, fields.insert "trace_id" (.str e.defaults.traceId), deadlineMs⟩ = x' at hstarts ⊢
  cases hstarts with
  | refused err => rfl
  | ready hp hcs hc inputs deadlineMs =>
    exact congrArg Except.ok (h.report_complete hp hcs hc inputs deadlineMs s)

end Engine

end Workflow
