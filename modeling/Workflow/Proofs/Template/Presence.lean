import Workflow.Proofs.Context.Fields
import Workflow.Proofs.Template.Key

namespace Workflow

namespace Context

variable {fields : Assoc Json} {name : String} {o : Option String} {defaults : Defaults} {c : Context}

/-- A field of a request is there if it holds something other than null. -/
def Given (fields : Assoc Json) (name : String) : Prop := ∃ v, fields.get? name = some v ∧ v.isNull = false

theorem Says.isSome_iff (h : Says fields name o) : o.isSome = true ↔ Given fields name := by
  unfold Given
  cases h with
  | missing h => simp [h]
  | null h => simp [h, Json.isNull]
  | text _ h | time h _ => simp [h, Json.isNull]

/-- A context has the fields that its request gives, and always a trace id and a time. -/
theorem MadeOf.hasField_iff (h : MadeOf defaults fields c) :
    c.hasField name = true ↔ Given fields name ∨ name = "trace_id" ∨ name = "event_time" := by
  unfold hasField
  split
  · next hn =>
    rw [hn, h.userId.isSome_iff]
    simp
  split
  · next hn =>
    rw [hn, h.sessionId.isSome_iff]
    simp
  split
  · next hn => simp [hn]
  split
  · next hn =>
    rw [hn, h.authToken.isSome_iff]
    simp
  · next hother htoken =>
    rw [h.get?_raw htoken, Option.any_eq_true, or_iff_left hother]
    simp [Given]

end Context

namespace Template

open Context

variable {defaults : Defaults} {fields : Assoc Json} {c : Context} {inputs : Assoc Json}
variable {id name field text template key : String}

/-- A name of a key template that asks for a field of the request. -/
inductive Asks : String → String → Prop
  | userId : Asks "user_id" "user_id"
  | sessionId : Asks "session_id" "session_id"
  | traceId : Asks "trace_id" "trace_id"
  | raw (field : String) : Asks ("raw." ++ field) field

/-- Where the text comes from that stands in a key for a name that asks for a field: from the field, or from the
context if it is a trace id that the request does not give. A field that is null and asked for as it is
comes out as a word. -/
inductive Supplied (fields : Assoc Json) (c : Context) : String → String → String → Prop
  | given {name field : String} {v : Json} (h : fields.get? field = some v) (hnull : v.isNull = false) :
      Supplied fields c name field v.display
  | made (h : ¬ Given fields "trace_id") : Supplied fields c "trace_id" "trace_id" c.traceId
  | null {field : String} (h : fields.get? field = some .null) : Supplied fields c ("raw." ++ field) field "null"

theorem KeySource.value?_raw (s : KeySource) (field : String) :
    s.value? ("raw." ++ field) = (s.context.raw.get? field).map Json.display := by
  have hfield : after? "raw." ("raw." ++ field) = some field := after?_eq_some_iff.mpr rfl
  unfold value?
  rw [if_neg (ne_of_append rfl), if_neg (ne_of_append rfl), if_neg (ne_of_append rfl),
    if_neg (ne_of_append rfl), after?_inputs_raw, hfield]

theorem supplied_of_gives (hc : MadeOf defaults fields c) (ha : Asks name field)
    (hg : KeySource.Gives ⟨id, c, inputs⟩ name text) : Supplied fields c name field text := by
  rw [← KeySource.value?_eq_some_iff] at hg
  cases ha with
  | userId =>
    have hid : c.userId = some text := hg
    exact .given (Says.get?_eq (hid ▸ hc.userId) (by decide)) rfl
  | sessionId =>
    have hid : c.sessionId = some text := hg
    exact .given (Says.get?_eq (hid ▸ hc.sessionId) (by decide)) rfl
  | traceId =>
    cases hg
    obtain ⟨o, ho, htrace⟩ := hc.traceId
    cases o with
    | none => exact .made fun hgiven => Bool.false_ne_true (ho.isSome_iff.mpr hgiven)
    | some trace =>
      rw [htrace]
      exact .given (ho.get?_eq (by decide)) rfl
  | raw field =>
    rw [KeySource.value?_raw] at hg
    obtain ⟨v, hv, rfl⟩ := Option.map_eq_some_iff.mp hg
    have hfield := hc.get?_of_raw hv
    cases v with
    | null => exact .null hfield
    | _ => exact .given hfield rfl

/-- Every field that a rendered key asks for is one that its context has, but for one that is null and asked for
as it is. -/
theorem supplied_of_renderKey (hc : ofFields defaults fields = .ok c)
    (hk : renderKey ⟨id, c, inputs⟩ template = .ok key) (hn : name ∈ variableNames template)
    (ha : Asks name field) :
    (c.hasField field = true ∨ name = "raw." ++ field ∧ fields.get? field = some .null) ∧
      ∃ text, KeySource.Gives ⟨id, c, inputs⟩ name text ∧ Supplied fields c name field text := by
  rw [ofFields_eq_ok_iff] at hc
  obtain ⟨text, hg⟩ := exists_renderKey_iff.mp ⟨key, hk⟩ name hn
  have hs := supplied_of_gives hc ha hg
  refine ⟨?_, text, hg, hs⟩
  rw [hc.hasField_iff]
  cases hs with
  | given h hnull => exact .inl (.inl ⟨_, h, hnull⟩)
  | made _ => exact .inl (.inr (.inl rfl))
  | null h => exact .inr ⟨rfl, h⟩

/-- A request of an unknown tenant. -/
def untenanted : Assoc Json := [("tenant", .null), ("user_id", .str "u1")]

def untenantedContext : Context := ⟨some "u1", none, "trace", "2024-01-01T00:00:00Z", none, untenanted⟩

def untenantedSource : KeySource := ⟨"memo", untenantedContext, []⟩

def tenantTemplate : String := "\x7braw.tenant\x7d:\x7buser_id\x7d"

theorem ofFields_untenanted :
    ofFields ⟨"trace", "2024-01-01T00:00:00Z"⟩ untenanted = .ok untenantedContext := rfl

theorem variableNames_tenant : variableNames tenantTemplate = ["raw.tenant", "user_id"] := by
  with_unfolding_all rfl

theorem renderKey_untenanted : renderKey untenantedSource tenantTemplate = .ok "null:u1" := by
  with_unfolding_all rfl

theorem hasField_tenant : untenantedContext.hasField "tenant" = false := rfl

/-- The user is given, and the tenant is a word. -/
theorem supplied_untenanted : untenantedContext.hasField "user_id" = true ∧
    untenanted.get? "tenant" = some .null ∧
    ∃ text, untenantedSource.Gives "raw.tenant" text ∧
      Supplied untenanted untenantedContext "raw.tenant" "tenant" text := by
  have huser := supplied_of_renderKey ofFields_untenanted renderKey_untenanted
    (variableNames_tenant ▸ List.mem_cons_of_mem _ List.mem_cons_self) .userId
  have htenant := supplied_of_renderKey ofFields_untenanted renderKey_untenanted
    (variableNames_tenant ▸ List.mem_cons_self) (.raw "tenant")
  refine ⟨?_, ?_, htenant.2⟩
  · rcases huser.1 with h | ⟨hname, _⟩
    · exact h
    · exact absurd hname (by decide)
  · rcases htenant.1 with h | ⟨_, h⟩
    · cases hasField_tenant.symm.trans h
    · exact h

/-- The context of a request has every field that a key rendered from it asks for. -/
def AsksPresent : Prop :=
  ∀ (defaults : Defaults) (fields : Assoc Json) (c : Context) (id : String) (inputs : Assoc Json)
    (template key name field : String), ofFields defaults fields = .ok c →
    renderKey ⟨id, c, inputs⟩ template = .ok key → name ∈ variableNames template → Asks name field →
    c.hasField field = true

/-- A tenant that is null is not there, but has a word in the key all the same. -/
theorem not_asksPresent : ¬ AsksPresent := by
  intro h
  have hpresent := h _ _ _ _ _ _ _ _ _ ofFields_untenanted renderKey_untenanted
    (variableNames_tenant ▸ List.mem_cons_self) (.raw "tenant")
  cases hasField_tenant.symm.trans hpresent

end Template

end Workflow
