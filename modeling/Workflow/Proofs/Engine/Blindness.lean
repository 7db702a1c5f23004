import Mathlib
import Workflow.Capability.Builtin
import Workflow.Proofs.Engine.Redaction

namespace Workflow

section Hosts

variable {σ : Type}

/-- An operation that reads of a context only what contexts answer. -/
def Operation.Blind (op : Operation σ) : Prop :=
  ∀ args inputs c c', Context.Alike c c' → op args inputs c = op args inputs c'

def CodeRuntime.Blind (runtime : CodeRuntime σ) : Prop :=
  ∀ body inputs slot c c', Context.Alike c c' → runtime body inputs c slot = runtime body inputs c' slot

/-- A host that reads of contexts only what they answer. Providers of models see no context at all. -/
structure Host.Blind (h : Host σ) : Prop where
  operation {name op} : h.operations.get? name = some op → Operation.Blind op
  code {runtime} : h.code = some runtime → CodeRuntime.Blind runtime

theorem Builtin.blind_operations {name : String} {op : Operation σ}
    (h : Builtin.operations.get? name = some op) : Operation.Blind op := by
  rw [Builtin.operations, Assoc.get?_mapValues, Option.map_eq_some_iff] at h
  obtain ⟨f, hf, rfl⟩ := h
  intro args inputs c c' hc
  refine congrArg Activity.done ?_
  -- of the built-in operations only templates look at the context at all
  have hmem := Assoc.mem_of_get? hf
  simp only [Builtin.all, List.mem_cons, Prod.mk.injEq, List.not_mem_nil, or_false] at hmem
  rcases hmem with ⟨-, rfl⟩ | ⟨-, rfl⟩ | ⟨-, rfl⟩ | ⟨-, rfl⟩ | ⟨-, rfl⟩ | ⟨-, rfl⟩
  iterate 5 rfl
  rw [Builtin.template, Builtin.template, hc.view]

/-- What a host is asked to do in a run. -/
inductive Question where
  | operation (name : String) (args : Json) (inputs : Inputs)
  | code (body : String) (inputs : Inputs) (slot : Option Slot)
  | model (request : ModelRequest)

def Operation.noting (note : Nat → Question → σ → σ) (name : String) (op : Operation σ) : Operation σ :=
  fun args inputs c =>
    .act (fun now w => note now (.operation name args inputs) w) (fun _ _ => op args inputs c)

def CodeRuntime.noting (note : Nat → Question → σ → σ) (runtime : CodeRuntime σ) : CodeRuntime σ :=
  fun body inputs c slot =>
    .act (fun now w => note now (.code body inputs slot) w) (fun _ _ => runtime body inputs c slot)

def Model.noting (note : Nat → Question → σ → σ) (model : Model σ) : Model σ :=
  fun request => .act (fun now w => note now (.model request) w) (fun _ _ => model request)

/-- A host that has everything noted that it is asked, and when, before it does anything about it. -/
def Host.noting (note : Nat → Question → σ → σ) (h : Host σ) : Host σ where
  operations := h.operations.map (fun e => (e.1, Operation.noting note e.1 e.2))
  code := h.code.map (CodeRuntime.noting note)
  model := h.model.map (Model.noting note)

theorem Host.Blind.noting {h : Host σ} (hh : h.Blind) (note : Nat → Question → σ → σ) :
    (h.noting note).Blind where
  operation {name op} ho := by
    rw [Host.noting, Assoc.get?_mapEntries, Option.map_eq_some_iff] at ho
    obtain ⟨inner, hinner, rfl⟩ := ho
    intro args inputs c c' hc
    rw [Operation.noting, Operation.noting, hh.operation hinner args inputs c c' hc]
  code {runtime} hr := by
    obtain ⟨inner, hinner, rfl⟩ := Option.map_eq_some_iff.mp hr
    intro body inputs slot c c' hc
    rw [CodeRuntime.noting, CodeRuntime.noting, hh.code hinner body inputs slot c c' hc]

end Hosts

variable {μ : Type} {e : Engine μ}

def Capability.Blind (c : Capability (World μ)) : Prop :=
  ∀ inputs slot ctx ctx', Context.Alike ctx ctx' → c.invoke inputs ctx slot = c.invoke inputs ctx' slot

theorem Capability.blind_prompt (call : PromptCall) (model : Model (World μ)) :
    Capability.Blind (.prompt call model) := fun inputs slot ctx ctx' h => by
  simp only [Capability.invoke, PromptCall.view, h.view]

theorem Host.Blind.resolve {h : Host (World μ)} (hh : h.Blind) {t : Transform}
    {c : Capability (World μ)} (hc : h.resolve t = .ok c) : c.Blind := by
  cases t with
  | declarative name args =>
    rw [Host.resolve] at hc
    split at hc
    · next op hop =>
      cases hc
      intro inputs slot ctx ctx' halike
      rw [Capability.invoke, Capability.invoke, hh.operation hop args inputs ctx ctx' halike]
    · cases hc
  | code body =>
    rw [Host.resolve] at hc
    split at hc
    · next runtime hr =>
      cases hc
      intro inputs slot ctx ctx' halike
      rw [Capability.invoke, Capability.invoke, hh.code hr body inputs slot ctx ctx' halike]
    · cases hc
  | prompt p =>
    rw [Host.resolve] at hc
    split at hc
    · cases hc
    · split at hc
      · cases hc
        exact Capability.blind_prompt _ _
      · split at hc <;> cases hc
        exact Capability.blind_prompt _ _

namespace Engine

theorem blind_of_resolveNodes {h : Host (World μ)} (hh : h.Blind) {nodes : List (String × Node)}
    {cs : List (Capability (World μ))} (hcs : resolveNodes h nodes = .ok cs) : ∀ c ∈ cs, c.Blind := by
  intro c hc
  obtain ⟨_, _, _, hresolve⟩ := exists_of_mem_resolveNodes hcs hc
  exact hh.resolve hresolve

theorem workIn_congr {cs : List (Capability (World μ))} (hcs : ∀ c ∈ cs, c.Blind) {ctx ctx' : Context}
    (h : ctx.Alike ctx') : workIn ctx cs = workIn ctx' cs := by
  refine List.map_congr_left fun c hc => ?_
  funext inputs slot
  exact hcs c hc inputs slot ctx ctx' h

end Engine

def Request.withToken (r : Request) (token : String) : Request :=
  { r with fields := r.fields.insert "auth_token" (.str token) }

def Prepared.redact (p : Prepared μ) : Prepared μ := { p with context := p.context.redact }

theorem Run.redact_ofPrepared_congr {p p' : Prepared μ} (h : p.redact = p'.redact) (c : Config) (now : Nat) :
    (Run.ofPrepared c now p).redact = (Run.ofPrepared c now p').redact := congrArg (Run.ofPrepared c now) h

theorem Schedule.report_redact (s : Schedule μ) (run : Nat) (r : Run μ) :
    ((s.redact.runs[run]?).getD r.redact).report = ((s.runs[run]?).getD r).report := by
  rw [Schedule.runs_redact]
  cases s.runs[run]? <;> rfl

namespace Engine

variable {f : Flow} {r : Request} {a b : String}

/-- Up to the token itself, a run is made ready in the same way whichever token the request has. -/
theorem prepare_withToken (h : e.host.Blind) (f : Flow) (r : Request) (a b : String) :
    (e.prepare f (r.withToken a)).map Prepared.redact =
      (e.prepare f (r.withToken b)).map Prepared.redact := by
  simp only [prepare, Request.withToken, Context.ofFields_insert_token]
  cases Context.ofFields e.defaults (r.fields.erase "auth_token") with
  | error err => rfl
  | ok c =>
    have halike := c.alike_withToken a b
    simp only [Except.map, Except.mapError, bind, Except.bind]
    rw [halike.require]
    -- all that is left of the context goes into the work of the nodes
    cases (c.withToken b).require f.requires with
    | error err => rfl
    | ok u =>
      cases Plan.ofFlow f with
      | error err => rfl
      | ok p =>
        dsimp only
        cases hcs : resolveNodes e.host p.flow.nodes with
        | error err => simp only [resolve, hcs, Except.mapError]
        | ok cs =>
          simp only [resolve, hcs, Except.mapError, workIn_congr (blind_of_resolveNodes h hcs) halike]
          rfl

/-- What goes on in an engine after so many steps from the start of a run. -/
def course (e : Engine μ) (p : Prepared μ) (s : Schedule μ) (n : Nat) : Schedule μ :=
  let (run, s) := s.enrol (.ofPrepared e.config s.now p)
  (s.coordinate run).advance e n

theorem complete_eq (p : Prepared μ) (s : Schedule μ) :
    e.complete p s =
      ((((e.course p s (2 * p.plan.flow.turns e.rests)).runs[s.runs.length]?).getD
        (.ofPrepared e.config s.now p)).report, e.course p s (2 * p.plan.flow.turns e.rests)) := rfl

theorem course_redact {p p' : Prepared μ} (h : p.redact = p'.redact) (s : Schedule μ) (n : Nat) :
    (e.course p s n).redact = (e.course p' s n).redact :=
  Schedule.advance_redact_congr n (Schedule.coordinate_enrol_redact_congr (Run.redact_ofPrepared_congr h _ _))

theorem complete_redact {p p' : Prepared μ} (h : p.redact = p'.redact) (s : Schedule μ) :
    (e.complete p s).1 = (e.complete p' s).1 ∧
      (e.complete p s).2.redact = (e.complete p' s).2.redact := by
  have hplan : p.plan = p'.plan := (congrArg Prepared.plan h :)
  have hcourse := course_redact (e := e) h s (2 * p'.plan.flow.turns e.rests)
  rw [complete_eq, complete_eq, hplan]
  refine ⟨?_, hcourse⟩
  rw [← Schedule.report_redact, hcourse, Run.redact_ofPrepared_congr h, Schedule.report_redact]

/-- An engine whose host has noted what it is asked. -/
def noting (note : Nat → Question → World μ → World μ) (e : Engine μ) : Engine μ :=
  { e with host := e.host.noting note }

/-- Two requests for runs of a flow that nothing tells apart, neither the outcome of the run nor anything
that happens on the way: not what a host is asked, nor any store. -/
structure Indistinct (e : Engine μ) (f : Flow) (r r' : Request) (s : Schedule μ) : Prop where
  contexts : Context.FareAlike (Context.ofFields e.defaults r.fields)
    (Context.ofFields e.defaults r'.fields)
  slots (w : World μ) (run : Nat) (id : String) (inputs : Inputs) (config : Option StateConfig) :
    (Context.ofFields e.defaults r.fields).map (fun c => Slot.bind w run ⟨id, c, inputs⟩ config) =
      (Context.ofFields e.defaults r'.fields).map (fun c => Slot.bind w run ⟨id, c, inputs⟩ config)
  outcome : (e.execute f r s).1 = (e.execute f r' s).1
  course (n : Nat) : (e.prepare f r).map (fun p => (e.course p s n).redact) =
    (e.prepare f r').map (fun p => (e.course p s n).redact)
  asked (note : Nat → Question → World μ → World μ) :
    ((e.noting note).execute f r s).2.world = ((e.noting note).execute f r' s).2.world

/-- What two ways to make a run ready come to when they differ in nothing but tokens. -/
theorem prepared_cases {x x' : Except StartError (Prepared μ)}
    (h : x.map Prepared.redact = x'.map Prepared.redact) :
    (∃ err, x = .error err ∧ x' = .error err) ∨
      ∃ p p', x = .ok p ∧ x' = .ok p' ∧ p.redact = p'.redact := by
  cases x with
  | error err =>
    cases x' with
    | error err' =>
      cases h
      exact .inl ⟨err, rfl, rfl⟩
    | ok p' => cases h
  | ok p =>
    cases x' with
    | error err' => cases h
    | ok p' => exact .inr ⟨p, p', rfl, rfl, Except.ok.inj h⟩

theorem execute_redact {r' : Request}
    (h : (e.prepare f r).map Prepared.redact = (e.prepare f r').map Prepared.redact) (s : Schedule μ) :
    (e.execute f r s).1 = (e.execute f r' s).1 ∧
      (e.execute f r s).2.redact = (e.execute f r' s).2.redact := by
  rw [execute, execute]
  obtain ⟨err, hp, hp'⟩ | ⟨p, p', hp, hp', hpp'⟩ := prepared_cases h
  · rw [hp, hp']
    exact ⟨rfl, rfl⟩
  · rw [hp, hp']
    obtain ⟨hreport, hs⟩ := complete_redact (e := e) hpp' s
    exact ⟨congrArg Except.ok hreport, hs⟩

theorem slots_withToken (c : Context) (a b : String) (w : World μ) (run : Nat) (id : String)
    (inputs : Inputs) (config : Option StateConfig) :
    Slot.bind w run ⟨id, c.withToken a, inputs⟩ config =
      Slot.bind w run ⟨id, c.withToken b, inputs⟩ config :=
  (Slot.bind_redact w run id (c.withToken a) inputs config).symm.trans
    (Slot.bind_redact w run id (c.withToken b) inputs config)

/-- The token of a request has no influence on its run in an engine whose host reads of contexts only
what they answer, as built-in operations do. -/
theorem token_indistinct (h : e.host.Blind) (f : Flow) (r : Request) (a b : String) (s : Schedule μ) :
    (∀ name (op : Operation (World μ)), Builtin.operations.get? name = some op → Operation.Blind op) ∧
      e.Indistinct f (r.withToken a) (r.withToken b) s := by
  have hprepare := prepare_withToken h f r a b
  refine ⟨fun _ _ => Builtin.blind_operations, ?_⟩
  exact {
    contexts := Context.fareAlike_ofFields e.defaults r.fields a b
    slots := fun w run id inputs config => by
      simp only [Request.withToken, Context.ofFields_insert_token]
      cases Context.ofFields e.defaults (r.fields.erase "auth_token") with
      | error err => rfl
      | ok c => exact congrArg Except.ok (slots_withToken c a b w run id inputs config)
    outcome := (execute_redact hprepare s).1
    course := fun n => by
      obtain ⟨err, hp, hp'⟩ | ⟨p, p', hp, hp', hpp'⟩ := prepared_cases hprepare
      · rw [hp, hp']
      · rw [hp, hp']
        exact congrArg Except.ok (course_redact hpp' s n)
    asked := fun note => by
      have hnoted := prepare_withToken (e := e.noting note) (h.noting note) f r a b
      exact (congrArg Schedule.world (execute_redact hnoted s).2 :) }

/-- An engine with the built-in operations and a model that answers with the prompt. -/
def echo : Engine Unit where
  host := ⟨Builtin.operations, none, some fun q => .done (.ok (.str q.prompt))⟩
  config := {}
  defaults := ⟨"trace", "2024-01-01T00:00:00+00:00"⟩
  rests _ := 0

/-- A node that keeps state for a session, and would tell the token to a model. -/
def telltale : Node where
  inputs := []
  outputs := [⟨"text", .string, false, none⟩]
  errorPort := none
  transform := .prompt ⟨"It is \x7b\x7bcontext.raw.auth_token\x7d\x7d", none, "m", none, .raise⟩
  policy := {}
  state := some ⟨.session, "told-\x7bsession_id\x7d", none, none⟩

def telling : Flow where
  version := "1"
  metadata := []
  requires := ["auth_token"]
  nodes := [("tell", telltale)]
  links := [⟨⟨.node "tell", "text"⟩, ⟨.output, "text"⟩, none, none, .identity⟩]
  deployment := none

def teller : Request := { fields := [("session_id", .str "s")] }

/-- Nothing goes on yet, and there is a store. -/
def still : Schedule Unit := { world := ⟨(), [("default", .memory [])], []⟩ }

/-- A prompt cannot tell a token, even where the flow needs one: the reference stays as it is written. -/
theorem token_indistinct_telling :
    echo.host.Blind ∧
      echo.Indistinct telling (teller.withToken "hunter2") (teller.withToken "swordfish") still ∧
      (echo.execute telling (teller.withToken "hunter2") still).1.toOption.map
        (fun r => (r.status, r.boundary)) =
          some (.succeeded, [("text", .str "It is \x7b\x7bcontext.raw.auth_token\x7d\x7d")]) := by
  have hblind : echo.host.Blind := ⟨Builtin.blind_operations, fun h => nomatch h⟩
  exact ⟨hblind, (token_indistinct hblind telling teller "hunter2" "swordfish" still).2, by cbv⟩

end Engine

end Workflow
