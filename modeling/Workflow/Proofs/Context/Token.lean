import Workflow.Proofs.Context.Fields
import Workflow.Run.Progress
import Workflow.State.Slot

namespace Workflow

namespace Context

/-- Two contexts that answer alike whatever is asked of them but the token itself. -/
structure Alike (c c' : Context) : Prop where
  raw : c.raw = c'.raw
  view : c.view = c'.view
  hasField : ∀ name, c.hasField name = c'.hasField name
  require : ∀ names, c.require names = c'.require names

/-- Two requests fare alike: their contexts are alike, or both have none for the same reason. -/
inductive FareAlike : Except ContextError Context → Except ContextError Context → Prop where
  | contexts {c c' : Context} (h : c.Alike c') : FareAlike (.ok c) (.ok c')
  | error (e : ContextError) : FareAlike (.error e) (.error e)

def withToken (c : Context) (token : String) : Context := { c with authToken := some token }

/-- A context without its token. -/
def redact (c : Context) : Context := { c with authToken := none }

variable {fields : Assoc Json} {token : String}

theorem require_congr {c c' : Context} (h : ∀ name, c.hasField name = c'.hasField name)
    (names : List String) : c.require names = c'.require names := by
  induction names with
  | nil => rfl
  | cons name rest ih => rw [require, require, h, ih]

/-- Which token a context has cannot be told from its answers. -/
theorem alike_withToken (c : Context) (a b : String) : (c.withToken a).Alike (c.withToken b) where
  raw := rfl
  view := rfl
  hasField _ := rfl
  require := require_congr fun _ => rfl

theorem readField_insert_of_ne {name : String} (h : name ≠ "auth_token") :
    readField (fields.insert "auth_token" (.str token)) name = readField (fields.erase "auth_token") name :=
  readField_congr (by rw [Assoc.get?_insert_of_ne _ _ h.symm, Assoc.get?_erase, if_neg h.symm])

/-- The token of a request has no part in its context but as the token there. -/
theorem ofFields_insert_token (defaults : Defaults) (fields : Assoc Json) (token : String) :
    ofFields defaults (fields.insert "auth_token" (.str token)) =
      (ofFields defaults (fields.erase "auth_token")).map (fun c => c.withToken token) := by
  have htoken : readField (fields.insert "auth_token" (.str token)) "auth_token" = .ok (some token) :=
    readField_eq_ok_iff.mpr (.text (by decide) (Assoc.get?_insert_self _ _ _))
  have hnone : readField (fields.erase "auth_token") "auth_token" = .ok none :=
    readField_eq_ok_iff.mpr (.missing (by rw [Assoc.get?_erase, if_pos rfl]))
  rw [ofFields_eq, ofFields_eq, htoken, hnone, readField_insert_of_ne (by decide),
    readField_insert_of_ne (by decide), readField_insert_of_ne (by decide), readField_insert_of_ne (by decide),
    Assoc.erase_insert_self, Assoc.erase_erase]
  cases readField (fields.erase "auth_token") "user_id" with
  | error e => rfl
  | ok userId =>
    cases readField (fields.erase "auth_token") "session_id" with
    | error e => rfl
    | ok sessionId =>
      cases readField (fields.erase "auth_token") "trace_id" with
      | error e => rfl
      | ok traceId => cases readField (fields.erase "auth_token") "event_time" <;> rfl

theorem fareAlike_ofFields (defaults : Defaults) (fields : Assoc Json) (a b : String) :
    FareAlike (ofFields defaults (fields.insert "auth_token" (.str a)))
      (ofFields defaults (fields.insert "auth_token" (.str b))) := by
  rw [ofFields_insert_token, ofFields_insert_token]
  cases ofFields defaults (fields.erase "auth_token") with
  | error e => exact .error e
  | ok c => exact .contexts (c.alike_withToken a b)

end Context

/-- What follows from the end of an execution does not depend on the token of the context: conditions and
transforms of links see the view of it alone. -/
theorem Progress.complete_redact {p : Plan} {c : Context} {s : Progress} (x : Completion) :
    s.complete p c.redact x = s.complete p c x := rfl

namespace Template

variable {id : String} {c : Context} {inputs : Inputs}

theorem values_redact (table : Assoc String) (names : List String) :
    KeySource.values ⟨id, c.redact, inputs⟩ table names = KeySource.values ⟨id, c, inputs⟩ table names := by
  induction names generalizing table with
  | nil => rfl
  | cons name rest ih =>
    rw [KeySource.values, KeySource.values, funext fun text => ih (table.insert name text)]
    rfl

/-- State keys do not depend on the token of the context. -/
theorem renderKey_redact (template : String) :
    renderKey ⟨id, c.redact, inputs⟩ template = renderKey ⟨id, c, inputs⟩ template := by
  rw [renderKey, renderKey, values_redact]

end Template

theorem Slot.bind_redact {μ : Type} (w : World μ) (run : Nat) (id : String) (c : Context)
    (inputs : Inputs) (config : Option StateConfig) :
    Slot.bind w run ⟨id, c.redact, inputs⟩ config = Slot.bind w run ⟨id, c, inputs⟩ config := by
  cases config with
  | none => rfl
  | some config => rw [Slot.bind, Slot.bind, Template.renderKey_redact]

end Workflow
