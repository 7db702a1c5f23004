import Workflow.Context.Basic
import Workflow.Proofs.Assoc
import Workflow.Proofs.Except

namespace Workflow.Context

variable {fields fields' : Assoc Json} {name : String} {o : Option String} {defaults : Defaults} {c : Context}
variable {e : ContextError}

/-- Two requests that differ in one field at most. -/
def SameBut (name : String) (fields fields' : Assoc Json) : Prop :=
  ∀ other, other ≠ name → fields.get? other = fields'.get? other

/-- What a field of a request says. A field that is null says as little as one that is missing, and a time is
said in the one way in which contexts write times. -/
inductive Says (fields : Assoc Json) : String → Option String → Prop
  | missing {name : String} (h : fields.get? name = none) : Says fields name none
  | null {name : String} (h : fields.get? name = some .null) : Says fields name none
  | text {name s : String} (hn : name ≠ "event_time") (h : fields.get? name = some (.str s)) :
      Says fields name (some s)
  | time {s : String} {t : Timestamp} (h : fields.get? "event_time" = some (.str s))
      (ht : Timestamp.parse? s = some t) : Says fields "event_time" (some t.render)

/-- What is wrong with a field: it holds neither null nor text, or a text that is no time. -/
inductive Faulty (fields : Assoc Json) : String → ContextError → Prop
  | notString {name : String} {v : Json} (h : fields.get? name = some v) (hnull : v.isNull = false)
      (hs : v.isString = false) : Faulty fields name (.invalidField name (.notString v))
  | notTime {s : String} (h : fields.get? "event_time" = some (.str s)) (ht : Timestamp.parse? s = none) :
      Faulty fields "event_time" (.invalidField "event_time" .notTime)

/-- The first of some fields with something wrong, and what it is. -/
inductive Fails (fields : Assoc Json) : List String → ContextError → Prop
  | here {name : String} {e : ContextError} (rest : List String) (h : Faulty fields name e) :
      Fails fields (name :: rest) e
  | later {name : String} {o : Option String} {rest : List String} {e : ContextError}
      (h : Says fields name o) (hr : Fails fields rest e) : Fails fields (name :: rest) e

theorem Faulty.exists_value (h : Faulty fields name e) (hn : name ≠ "event_time") : ∃ v,
    fields.get? name = some v ∧ v.isNull = false ∧ v.isString = false ∧
      e = .invalidField name (.notString v) := by
  cases h with
  | notString h hnull hs => exact ⟨_, h, hnull, hs, rfl⟩
  | notTime _ _ => exact absurd rfl hn

/-- A field as a context reads it. -/
def readField (fields : Assoc Json) (name : String) : Except ContextError (Option String) :=
  match fields.get? name with
  | none => .ok none
  | some .null => .ok none
  | some (.str s) =>
    if name = "event_time" then
      match Timestamp.parse? s with
      | some t => .ok (some t.render)
      | none => .error (.invalidField name .notTime)
    else .ok (some s)
  | some v => .error (.invalidField name (.notString v))

theorem stringField_eq (h : name ≠ "event_time") : stringField fields name = readField fields name := by
  unfold stringField readField
  split <;> simp [*]

theorem timeField_eq : timeField fields "event_time" = readField fields "event_time" := by
  unfold timeField stringField readField
  cases fields.get? "event_time" with
  | none => rfl
  | some v =>
    cases v with
    | str s => cases ht : Timestamp.parse? s <;> simp [bind, Except.bind, ht] <;> rfl
    | _ => rfl

theorem readField_eq_ok_iff : readField fields name = .ok o ↔ Says fields name o := by
  unfold readField
  constructor
  · intro h
    split at h
    · next hv =>
      cases h
      exact .missing hv
    · next hv =>
      cases h
      exact .null hv
    · next s hv =>
      split at h
      · next hn =>
        subst hn
        split at h
        · next t ht =>
          cases h
          exact .time hv ht
        · cases h
      · next hn =>
        cases h
        exact .text hn hv
    · cases h
  · intro h
    cases h with
    | missing h | null h => rw [h]
    | text hn h => simp [h, hn]
    | time h ht => simp [h, ht]

theorem readField_eq_error_iff : readField fields name = .error e ↔ Faulty fields name e := by
  unfold readField
  constructor
  · intro h
    split at h
    · cases h
    · cases h
    · next s hv =>
      split at h
      · next hn =>
        subst hn
        split at h
        · cases h
        · next ht =>
          cases h
          exact .notTime hv ht
      · cases h
    · next v hnull hs hv =>
      cases h
      refine .notString hv ?_ ?_
      · cases v with
        | null => exact absurd rfl hnull
        | _ => rfl
      · cases v with
        | str s => exact absurd rfl (hs s)
        | _ => rfl
  · intro h
    cases h with
    | @notString _ v h hnull hs =>
      rw [h]
      cases v with
      | null => cases hnull
      | str s => cases hs
      | _ => rfl
    | notTime h ht => simp [h, ht]

theorem readField_congr (h : fields.get? name = fields'.get? name) :
    readField fields name = readField fields' name := by
  rw [readField, readField, h]

theorem Says.congr {o : Option String} (h : fields.get? name = fields'.get? name) (hs : Says fields name o) :
    Says fields' name o := by
  rwa [← readField_eq_ok_iff, ← readField_congr h, readField_eq_ok_iff]

theorem Faulty.congr (h : fields.get? name = fields'.get? name) (hf : Faulty fields name e) :
    Faulty fields' name e := by
  rwa [← readField_eq_error_iff, ← readField_congr h, readField_eq_error_iff]

theorem Says.unique {o' : Option String} (h : Says fields name o) (h' : Says fields name o') : o = o' := by
  rw [← readField_eq_ok_iff] at h h'
  exact Except.ok.inj (h.symm.trans h')

theorem Says.get?_eq {s : String} (h : Says fields name (some s)) (hn : name ≠ "event_time") :
    fields.get? name = some (.str s) := by
  cases h with
  | text _ h => exact h
  | time _ _ => exact absurd rfl hn

theorem Says.get?_of_none (h : Says fields name none) :
    fields.get? name = none ∨ fields.get? name = some .null := by
  cases h with
  | missing h => exact .inl h
  | null h => exact .inr h

theorem Fails.congr {names : List String} (h : ∀ name ∈ names, fields.get? name = fields'.get? name)
    (hf : Fails fields names e) : Fails fields' names e := by
  induction hf with
  | here rest hfaulty => exact .here rest (hfaulty.congr (h _ List.mem_cons_self))
  | later ho _ ih =>
    exact .later (ho.congr (h _ List.mem_cons_self)) (ih fun name hname => h name (List.mem_cons_of_mem _ hname))

/-- The fields that a context reads, in order. -/
def readNames : List String := ["user_id", "session_id", "trace_id", "event_time", "auth_token"]

def fault? (fields : Assoc Json) (name : String) : Option ContextError :=
  match readField fields name with
  | .error e => some e
  | .ok _ => none

theorem fault?_eq_some_iff : fault? fields name = some e ↔ Faulty fields name e := by
  rw [← readField_eq_error_iff, fault?]
  cases readField fields name <;> simp

theorem fault?_eq_none_iff : fault? fields name = none ↔ ∃ o, Says fields name o := by
  simp only [← readField_eq_ok_iff, fault?]
  cases readField fields name <;> simp

theorem fails_iff {names : List String} : Fails fields names e ↔ names.findSome? (fault? fields) = some e := by
  constructor
  · intro h
    induction h with
    | here rest h => rw [List.findSome?_cons, fault?_eq_some_iff.mpr h]
    | later h _ ih => rw [List.findSome?_cons, fault?_eq_none_iff.mpr ⟨_, h⟩, ih]
  · intro h
    induction names with
    | nil => cases h
    | cons name names ih =>
      rw [List.findSome?_cons] at h
      cases hf : fault? fields name with
      | some e' =>
        rw [hf] at h
        cases h
        exact .here names (fault?_eq_some_iff.mp hf)
      | none =>
        obtain ⟨o, ho⟩ := fault?_eq_none_iff.mp hf
        rw [hf] at h
        exact .later ho (ih h)

theorem forall_says_iff {names : List String} :
    (∀ name ∈ names, ∃ o, Says fields name o) ↔ ∀ e, ¬ Fails fields names e := by
  simp only [fails_iff, ← fault?_eq_none_iff]
  rw [← List.findSome?_eq_none_iff, Option.eq_none_iff_forall_ne_some]

theorem fails_append {names rest : List String} : Fails fields (names ++ rest) e ↔
    Fails fields names e ∨ (∀ name ∈ names, ∃ o, Says fields name o) ∧ Fails fields rest e := by
  simp only [fails_iff, List.findSome?_append, Option.or_eq_some_iff, List.findSome?_eq_none_iff,
    fault?_eq_none_iff]

theorem ofFields_eq (defaults : Defaults) (fields : Assoc Json) : ofFields defaults fields = (do
    let userId ← readField fields "user_id"
    let sessionId ← readField fields "session_id"
    let traceId ← readField fields "trace_id"
    let eventTime ← readField fields "event_time"
    let authToken ← readField fields "auth_token"
    return ⟨userId, sessionId, traceId.getD defaults.traceId, eventTime.getD defaults.eventTime, authToken,
      fields.erase "auth_token"⟩) := by
  rw [ofFields, timeField_eq, stringField_eq (by decide), stringField_eq (by decide), stringField_eq (by decide),
    stringField_eq (by decide)]

/-- A request whose fields cannot all be used has no context, and the first of them is reported. -/
theorem ofFields_eq_error_iff : ofFields defaults fields = .error e ↔ Fails fields readNames e := by
  simp only [fails_iff, ofFields_eq, readNames, List.findSome?_cons, fault?]
  cases readField fields "user_id" with
  | error e' => simp [bind, Except.bind]
  | ok userId =>
    cases readField fields "session_id" with
    | error e' => simp [bind, Except.bind]
    | ok sessionId =>
      cases readField fields "trace_id" with
      | error e' => simp [bind, Except.bind]
      | ok traceId =>
        cases readField fields "event_time" with
        | error e' => simp [bind, Except.bind]
        | ok eventTime =>
          cases readField fields "auth_token" <;> simp [bind, Except.bind, pure, Except.pure]

/-- What a context is made of: what the fields of its request say, with something else for a trace id or a time
that is not said. Of the fields themselves all but the token are kept. -/
structure MadeOf (defaults : Defaults) (fields : Assoc Json) (c : Context) : Prop where
  userId : Says fields "user_id" c.userId
  sessionId : Says fields "session_id" c.sessionId
  traceId : ∃ o, Says fields "trace_id" o ∧ c.traceId = o.getD defaults.traceId
  eventTime : ∃ o, Says fields "event_time" o ∧ c.eventTime = o.getD defaults.eventTime
  authToken : Says fields "auth_token" c.authToken
  raw : c.raw = fields.erase "auth_token"

namespace MadeOf

theorem get?_raw (h : MadeOf defaults fields c) (hn : name ≠ "auth_token") :
    c.raw.get? name = fields.get? name := by
  rw [h.raw, Assoc.get?_erase, if_neg hn.symm]

theorem get?_of_raw {v : Json} (h : MadeOf defaults fields c) (hv : c.raw.get? name = some v) :
    fields.get? name = some v := by
  rw [h.raw, Assoc.get?_erase] at hv
  split at hv
  · cases hv
  · exact hv

theorem traceId_eq {trace : String} (h : MadeOf defaults fields c)
    (ht : fields.get? "trace_id" = some (.str trace)) : c.traceId = trace := by
  obtain ⟨o, ho, hc⟩ := h.traceId
  rw [hc, ho.unique (.text (by decide) ht), Option.getD_some]

end MadeOf

theorem ofFields_eq_ok_iff : ofFields defaults fields = .ok c ↔ MadeOf defaults fields c := by
  rw [ofFields_eq]
  constructor
  · intro h
    obtain ⟨userId, huser, h⟩ := exists_of_bind_eq_ok h
    obtain ⟨sessionId, hsession, h⟩ := exists_of_bind_eq_ok h
    obtain ⟨traceId, htrace, h⟩ := exists_of_bind_eq_ok h
    obtain ⟨eventTime, htime, h⟩ := exists_of_bind_eq_ok h
    obtain ⟨authToken, htoken, h⟩ := exists_of_bind_eq_ok h
    cases h
    rw [readField_eq_ok_iff] at huser hsession htrace htime htoken
    exact ⟨huser, hsession, ⟨traceId, htrace, rfl⟩, ⟨eventTime, htime, rfl⟩, htoken, rfl⟩
  · obtain ⟨userId, sessionId, trace, time, authToken, raw⟩ := c
    rintro ⟨huser, hsession, ⟨traceId, htrace, rfl⟩, ⟨eventTime, htime, rfl⟩, htoken, rfl⟩
    rw [← readField_eq_ok_iff] at huser hsession htrace htime htoken
    rw [huser, hsession, htrace, htime, htoken]
    rfl

end Workflow.Context
