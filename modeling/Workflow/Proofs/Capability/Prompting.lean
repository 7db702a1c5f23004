import Workflow.Capability.Invoke
import Workflow.Proofs.Engine.Deadline

namespace Workflow

open Activity

/-- A question to a model with the answer to it. -/
abbrev Exchange := ModelRequest × Except ModelError Json

/-- Questions are put to a model one after the other, each when the one before has been answered. -/
inductive Converses {σ : Type} (model : Model σ) : Nat → List Exchange → Nat → Prop
  | nil (now : Nat) : Converses model now [] now
  | cons {now t fin : Nat} {request : ModelRequest} {answer : Except ModelError Json} {talk : List Exchange}
      (h : Comes now (model request) answer t) (hrest : Converses model t talk fin) :
      Converses model now ((request, answer) :: talk) fin

/-- A model that takes a time for each answer is waited for as often as it is asked. -/
theorem Converses.fin_eq {σ : Type} {model : Model σ} {now fin ms : Nat} {talk : List Exchange}
    (h : Converses model now talk fin)
    (hms : ∀ request answer t t', Comes t (model request) answer t' → t' = t + ms) :
    fin = now + talk.length * ms := by
  induction h with
  | nil now => simp
  | cons h _ ih =>
    rw [ih, hms _ _ _ _ h, List.length_cons, Nat.add_one_mul, Nat.add_assoc, Nat.add_comm ms]

namespace PromptCall

variable {σ : Type} {c : PromptCall} {model : Model σ} {root v response : Json} {now fin : Nat}
variable {s : CompiledSchema} {reason : String} {talk : List Exchange} {result : Except InvokeError Json}

/-- What a response stands for. Text that holds a JSON value stands for that value, and anything else for
itself. -/
inductive StandsFor : Json → Json → Prop
  | parsed {text : String} {v : Json} (h : Json.parse? text = some v) : StandsFor (.str text) v
  | text {text : String} (h : Json.parse? text = none) : StandsFor (.str text) (.str text)
  | other {v : Json} (h : v.isString = false) : StandsFor v v

theorem standsFor_iff : StandsFor response v ↔ valueOf response = v := by
  constructor
  · intro h
    cases h with
    | parsed h | text h => rw [valueOf, h, Option.getD]
    | other h =>
      cases v with
      | str text => cases h
      | null | bool | int | float | arr | obj => rfl
  · rintro rfl
    cases response with
    | str text =>
      cases h : Json.parse? text with
      | some v =>
        rw [valueOf, h, Option.getD_some]
        exact .parsed h
      | none =>
        rw [valueOf, h, Option.getD_none]
        exact .text h
    | null | bool | int | float | arr | obj => exact .other rfl

/-- A response keeps to a schema as a value. -/
def Keeps (s : CompiledSchema) (response v : Json) : Prop := StandsFor response v ∧ s.check v = .ok ()

/-- A response stands for a value that a schema does not allow, for a reason. -/
def Breaks (s : CompiledSchema) (response : Json) (reason : String) : Prop :=
  ∃ v, StandsFor response v ∧ s.check v = .error reason

theorem Keeps.not_breaks (h : Keeps s response v) : ¬ Breaks s response reason := by
  rintro ⟨w, hw, hb⟩
  cases (standsFor_iff.mp h.1).symm.trans (standsFor_iff.mp hw)
  cases h.2.symm.trans hb

theorem conform_eq_error_iff : conform s response = .error reason ↔ Breaks s response reason := by
  simp only [Breaks, standsFor_iff, exists_eq_left', conform]
  cases s.check (valueOf response) <;> simp

theorem conform_eq_ok_iff : conform s response = .ok v ↔ Keeps s response v := by
  rw [Keeps, standsFor_iff, conform]
  cases hc : s.check (valueOf response) with
  | error reason =>
    refine iff_of_false (nomatch ·) ?_
    rintro ⟨rfl, hk⟩
    cases hc.symm.trans hk
  | ok u =>
    constructor
    · intro h
      cases h
      exact ⟨rfl, hc⟩
    · rintro ⟨rfl, -⟩
      rfl

/-- The same question to another model. -/
def retold (c : PromptCall) (root : Json) (other : String) : ModelRequest :=
  { c.request root with model := other }

/-- What comes of a prompt by what the model was asked and has answered. -/
inductive Settles (c : PromptCall) (root : Json) : List Exchange → Except InvokeError Json → Prop
  | failed (e : ModelError) : Settles c root [(c.request root, .error e)] (.error (.invocation e.message))
  | plain {response : Json} (hs : c.schema = none) :
      Settles c root [(c.request root, .ok response)] (.ok response)
  | kept {s : CompiledSchema} {response v : Json} (hs : c.schema = some s) (hk : Keeps s response v) :
      Settles c root [(c.request root, .ok response)] (.ok v)
  | raised {s : CompiledSchema} {response : Json} {reason : String} (hs : c.schema = some s)
      (hb : Breaks s response reason) (hf : c.prompt.fallback = .raise) :
      Settles c root [(c.request root, .ok response)] (.error (.outputSchema reason))
  | replaced {s : CompiledSchema} {response answer : Json} {reason : String} (hs : c.schema = some s)
      (hb : Breaks s response reason) (hf : c.prompt.fallback = .static answer) :
      Settles c root [(c.request root, .ok response)] (.ok answer)
  | failedAgain {s : CompiledSchema} {response : Json} {reason other : String} (e : ModelError)
      (hs : c.schema = some s) (hb : Breaks s response reason) (hf : c.prompt.fallback = .model other) :
      Settles c root [(c.request root, .ok response), (c.retold root other, .error e)]
        (.error (.invocation e.message))
  | keptAgain {s : CompiledSchema} {response second v : Json} {reason other : String}
      (hs : c.schema = some s) (hb : Breaks s response reason) (hf : c.prompt.fallback = .model other)
      (hk : Keeps s second v) :
      Settles c root [(c.request root, .ok response), (c.retold root other, .ok second)] (.ok v)
  | brokenAgain {s : CompiledSchema} {response second : Json} {reason why other : String}
      (hs : c.schema = some s) (hb : Breaks s response reason) (hf : c.prompt.fallback = .model other)
      (hb' : Breaks s second why) :
      Settles c root [(c.request root, .ok response), (c.retold root other, .ok second)]
        (.error (.outputSchema s!"fallback model '{other}': {why}"))

/-- What asking comes to is what the answers make of it. -/
theorem settles_of_comes (h : Comes now (c.ask model root) result fin) :
    ∃ talk, Converses model now talk fin ∧ c.Settles root talk result := by
  obtain ⟨answer, t, hanswer, h⟩ := h.of_bind
  cases answer with
  | error e =>
    cases h
    exact ⟨_, .cons hanswer (.nil _), .failed e⟩
  | ok response =>
    cases hs : c.schema with
    | none =>
      simp only [hs] at h
      cases h
      exact ⟨_, .cons hanswer (.nil _), .plain hs⟩
    | some s =>
      simp only [hs] at h
      cases hc : conform s response with
      | ok v =>
        simp only [hc] at h
        cases h
        exact ⟨_, .cons hanswer (.nil _), .kept hs (conform_eq_ok_iff.mp hc)⟩
      | error reason =>
        have hb := conform_eq_error_iff.mp hc
        simp only [hc] at h
        cases hf : c.prompt.fallback with
        | raise =>
          simp only [hf] at h
          cases h
          exact ⟨_, .cons hanswer (.nil _), .raised hs hb hf⟩
        | static fixed =>
          simp only [hf] at h
          cases h
          exact ⟨_, .cons hanswer (.nil _), .replaced hs hb hf⟩
        | model other =>
          simp only [hf] at h
          obtain ⟨answer, t', hagain, h⟩ := h.of_bind
          cases answer with
          | error e =>
            cases h
            exact ⟨_, .cons hanswer (.cons hagain (.nil _)), .failedAgain e hs hb hf⟩
          | ok second =>
            cases hc' : conform s second with
            | ok v =>
              simp only [hc'] at h
              cases h
              have hk := conform_eq_ok_iff.mp hc'
              exact ⟨_, .cons hanswer (.cons hagain (.nil _)), .keptAgain hs hb hf hk⟩
            | error why =>
              simp only [hc'] at h
              cases h
              have hb' := conform_eq_error_iff.mp hc'
              exact ⟨_, .cons hanswer (.cons hagain (.nil _)), .brokenAgain hs hb hf hb'⟩

/-- A response is not taken, and the same question is to go to another model. -/
def Refers (c : PromptCall) (response : Json) (other : String) : Prop :=
  c.prompt.fallback = .model other ∧ ∃ s reason, c.schema = some s ∧ Breaks s response reason

/-- What a prompt is to do. The model is asked the question of the prompt, and only a response that breaks the
schema leads to the same question to another model, and to no further one. With a schema, a value is what the last
response stands for and keeps to the schema, or it is the fixed answer in place of a response that breaks it;
without one, it is the first response. An error of a model is an invocation error, whatever the fallback, and there
is no other; and a violation of the schema is an error only if nothing is there to fall back on, or the second
response breaks the schema as well. -/
structure Prompted (c : PromptCall) (root : Json) (talk : List Exchange) (result : Except InvokeError Json) :
    Prop where
  asked : (∃ answer, talk = [(c.request root, answer)] ∧
      ∀ response other, answer = .ok response → ¬ c.Refers response other) ∨
    ∃ response other answer, c.Refers response other ∧
      talk = [(c.request root, .ok response), (c.retold root other, answer)]
  kept : ∀ s v, c.schema = some s → result = .ok v →
    (∃ request response, talk.getLast? = some (request, .ok response) ∧ Keeps s response v) ∨
      c.prompt.fallback = .static v ∧ ∃ response reason, talk = [(c.request root, .ok response)] ∧
        Breaks s response reason
  plain : c.schema = none → ∀ response, talk = [(c.request root, .ok response)] → result = .ok response
  failed : ∀ request e, (request, .error e) ∈ talk → result = .error (.invocation e.message)
  invocation : ∀ reason, result = .error (.invocation reason) →
    ∃ request e, (request, .error e) ∈ talk ∧ reason = e.message
  outputSchema : ∀ reason, result = .error (.outputSchema reason) → ∃ s, c.schema = some s ∧
    ((c.prompt.fallback = .raise ∧ ∃ response, talk = [(c.request root, .ok response)] ∧
        Breaks s response reason) ∨
      ∃ other response second why, c.prompt.fallback = .model other ∧
        talk = [(c.request root, .ok response), (c.retold root other, .ok second)] ∧
        Breaks s second why ∧ reason = s!"fallback model '{other}': {why}")

namespace Settles

theorem asked (h : c.Settles root talk result) :
    (∃ answer, talk = [(c.request root, answer)] ∧
      ∀ response other, answer = .ok response → ¬ c.Refers response other) ∨
    ∃ response other answer, c.Refers response other ∧
      talk = [(c.request root, .ok response), (c.retold root other, answer)] := by
  cases h with
  | failed e => exact .inl ⟨_, rfl, fun response other he => by cases he⟩
  | plain hs =>
    refine .inl ⟨_, rfl, fun response other he hr => ?_⟩
    obtain ⟨_, s, _, hs', _⟩ := hr
    cases hs.symm.trans hs'
  | kept hs hk =>
    refine .inl ⟨_, rfl, fun response other he hr => ?_⟩
    cases he
    obtain ⟨_, s, reason, hs', hb⟩ := hr
    cases hs.symm.trans hs'
    exact hk.not_breaks hb
  | raised _ _ hf | replaced _ _ hf =>
    refine .inl ⟨_, rfl, fun response other _ hr => ?_⟩
    cases hf.symm.trans hr.1
  | failedAgain e hs hb hf => exact .inr ⟨_, _, _, ⟨hf, _, _, hs, hb⟩, rfl⟩
  | keptAgain hs hb hf _ | brokenAgain hs hb hf _ => exact .inr ⟨_, _, _, ⟨hf, _, _, hs, hb⟩, rfl⟩

theorem kept_or_replaced (h : c.Settles root talk (.ok v)) (hs : c.schema = some s) :
    (∃ request response, talk.getLast? = some (request, .ok response) ∧ Keeps s response v) ∨
      c.prompt.fallback = .static v ∧ ∃ response reason, talk = [(c.request root, .ok response)] ∧
        Breaks s response reason := by
  cases h with
  | plain hs' => cases hs.symm.trans hs'
  | kept hs' hk | keptAgain hs' _ _ hk =>
    cases hs.symm.trans hs'
    exact .inl ⟨_, _, rfl, hk⟩
  | replaced hs' hb hf =>
    cases hs.symm.trans hs'
    exact .inr ⟨hf, _, _, rfl, hb⟩

theorem eq_response (h : c.Settles root [(c.request root, .ok response)] result) (hs : c.schema = none) :
    result = .ok response := by
  cases h with
  | plain _ => rfl
  | kept hs' _ | raised hs' _ _ | replaced hs' _ _ => cases hs.symm.trans hs'

theorem eq_error {request : ModelRequest} {e : ModelError} (h : c.Settles root talk result)
    (he : (request, .error e) ∈ talk) : result = .error (.invocation e.message) := by
  cases h <;> simp at he
  · rw [he.2]
  · rw [he.2]

theorem exists_error (h : c.Settles root talk (.error (.invocation reason))) :
    ∃ request e, (request, .error e) ∈ talk ∧ reason = e.message := by
  cases h with
  | failed e => exact ⟨_, e, List.mem_cons_self, rfl⟩
  | failedAgain e => exact ⟨_, e, List.mem_cons_of_mem _ List.mem_cons_self, rfl⟩

theorem exists_breaks (h : c.Settles root talk (.error (.outputSchema reason))) :
    ∃ s, c.schema = some s ∧
      ((c.prompt.fallback = .raise ∧ ∃ response, talk = [(c.request root, .ok response)] ∧
          Breaks s response reason) ∨
        ∃ other response second why, c.prompt.fallback = .model other ∧
          talk = [(c.request root, .ok response), (c.retold root other, .ok second)] ∧
          Breaks s second why ∧ reason = s!"fallback model '{other}': {why}") := by
  cases h with
  | raised hs hb hf => exact ⟨_, hs, .inl ⟨hf, _, rfl, hb⟩⟩
  | brokenAgain hs _ hf hb' => exact ⟨_, hs, .inr ⟨_, _, _, _, hf, rfl, hb', rfl⟩⟩

theorem prompted (h : c.Settles root talk result) : c.Prompted root talk result where
  asked := h.asked
  kept := fun _ _ hs hv => (hv ▸ h).kept_or_replaced hs
  plain := fun hs _ ht => (ht ▸ h).eq_response hs
  failed := fun _ _ he => h.eq_error he
  invocation := fun _ hr => (hr ▸ h).exists_error
  outputSchema := fun _ hr => (hr ▸ h).exists_breaks

end Settles

end PromptCall

namespace Capability

open PromptCall

variable {μ : Type}

/-- The value of the state of a node reads as something at a time, in some world. -/
inductive Reads (μ : Type) : Option Slot → Nat → Except StoreError Json → Prop
  | none (now : Nat) : Reads μ none now (.ok .null)
  | some (slot : Slot) (now : Nat) (w : World μ) :
      Reads μ (some slot) now ((slot.get now w).1.map fun v => v.getD .null)

theorem reads_of_comes {slot : Option Slot} {now fin : Nat} {read : Except StoreError Json}
    (h : Comes now (stateValue slot : Activity (World μ) (Except StoreError Json)) read fin) :
    Reads μ slot now read ∧ fin = now := by
  cases slot with
  | none =>
    cases h
    exact ⟨.none _, rfl⟩
  | some slot =>
    cases h with
    | act w h =>
      cases h
      exact ⟨.some slot _ w, rfl⟩

/-- Every prompt comes to a result, whatever the models answer and however long they take. It first reads the
state of its node, and when that fails no model is asked. Else it does what a prompt is to do, and all its time
goes by with the answers. -/
theorem prompts_invoke (w : World μ) (call : PromptCall) (model : Model (World μ)) (inputs : Inputs)
    (ctx : Context) (slot : Option Slot) (now : Nat) :
    (∃ result fin, Comes now (Capability.invoke (.prompt call model) inputs ctx slot) result fin) ∧
      ∀ result fin, Comes now (Capability.invoke (.prompt call model) inputs ctx slot) result fin →
        (∃ e, Reads μ slot now (.error e) ∧ fin = now ∧ result = .error (.invocation e.message)) ∨
          ∃ state talk, Reads μ slot now (.ok state) ∧ Converses model now talk fin ∧
            call.Prompted (view inputs ctx state) talk result := by
  refine ⟨exists_comes w _ now, fun result fin h => ?_⟩
  obtain ⟨read, t, hread, h⟩ := h.of_bind
  obtain ⟨hread, rfl⟩ := reads_of_comes hread
  cases read with
  | error e =>
    cases h
    exact .inl ⟨e, hread, rfl, rfl⟩
  | ok state =>
    obtain ⟨talk, htalk, hsettles⟩ := settles_of_comes h
    exact .inr ⟨state, talk, hread, htalk, hsettles.prompted⟩

def yesOrNo : CompiledSchema := ⟨.obj [("type", .str "boolean")], .rules [.kinds [.boolean]]⟩

/-- A question for yes or no, which a large model is asked if a small one does not say. -/
def poll : PromptCall where
  prompt := ⟨"well?", none, "small", some (.obj [("type", .str "boolean")]), .model "large"⟩
  schema := some yesOrNo

/-- Models that take five ms for each answer, which is a text. Only that of the large one holds a value. -/
def pollster : Model (World Unit) := fun request =>
  (sleep 5).bind fun _ => .done (.ok (.str (if request.model = "small" then "maybe" else "true")))

def pollContext : Context := ⟨none, none, "trace", "2024-01-01T00:00:00Z", none, []⟩

theorem comes_poll : Comes 0 (Capability.invoke (.prompt poll pollster) [] pollContext none)
    (.ok (.bool true)) 10 :=
  .rest (.rest (.done 10 _))

/-- Both models are asked, one after the other. The value is the one in the text of the second. -/
theorem prompted_poll : Keeps yesOrNo (.str "true") (.bool true) ∧
    ∃ talk, Converses pollster 0 talk 10 ∧ talk.length = 2 ∧
      poll.Prompted (view [] pollContext .null) talk (.ok (.bool true)) := by
  have h := (prompts_invoke ⟨(), [], []⟩ poll pollster [] pollContext none 0).2 _ _ comes_poll
  rcases h with ⟨e, _, _, he⟩ | ⟨state, talk, hread, htalk, hprompted⟩
  · cases he
  · cases hread
    have hfin : 10 = 0 + talk.length * 5 := htalk.fin_eq fun request answer t t' h => by
      obtain ⟨_, t'', hsleep, hdone⟩ := h.of_bind
      cases hdone
      exact hsleep.of_sleep
    exact ⟨⟨.parsed (by cbv), rfl⟩, talk, htalk, by omega, hprompted⟩

end Capability

end Workflow
