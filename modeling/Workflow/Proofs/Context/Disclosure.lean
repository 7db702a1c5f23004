import Workflow.Proofs.Context.Fields

namespace Workflow

theorem Json.isString_iff_kind {v : Json} : v.isString = true ↔ v.kind = "string" := by
  cases v <;> simp [isString, kind]

namespace Context

variable {fields fields' : Assoc Json} {names : List String} {v v' : Json} {name : String} {e : ContextError}
variable {defaults defaults' : Defaults}

/-- The fields that a context reads before the token, in order. -/
def openNames : List String := ["user_id", "session_id", "trace_id", "event_time"]

theorem readNames_eq : readNames = openNames ++ ["auth_token"] := rfl

theorem ne_of_mem_openNames (h : name ∈ openNames) : name ≠ "auth_token" := by
  rintro rfl
  revert h
  decide

theorem ofFields_of_fails (h : Fails fields openNames e) : ofFields defaults fields = .error e := by
  rw [ofFields_eq_error_iff, readNames_eq, fails_append]
  exact .inl h

/-- A request with nothing wrong but its token. -/
theorem ofFields_of_notString (hopen : ∀ name ∈ openNames, ∃ o, Says fields name o)
    (hv : fields.get? "auth_token" = some v) (hnull : v.isNull = false) (hs : v.isString = false) :
    ofFields defaults fields = .error (.invalidField "auth_token" (.notString v)) := by
  rw [ofFields_eq_error_iff, readNames_eq, fails_append]
  exact .inr ⟨hopen, .here _ (.notString hv hnull hs)⟩

theorem exists_ofFields (defaults : Defaults) (hopen : ∀ name ∈ openNames, ∃ o, Says fields name o)
    (hv : fields.get? "auth_token" = some v) (hs : v.isString = true) :
    ∃ c, ofFields defaults fields = .ok c := by
  cases hc : ofFields defaults fields with
  | ok c => exact ⟨c, rfl⟩
  | error e =>
    rw [ofFields_eq_error_iff, readNames_eq, fails_append] at hc
    rcases hc with hc | ⟨_, hc⟩
    · exact absurd hc (forall_says_iff.mp hopen e)
    · cases hc with
      | later _ hc => cases hc
      | here _ hc =>
        obtain ⟨w, hw, _, hs', _⟩ := hc.exists_value (by decide)
        cases hv.symm.trans hw
        cases hs.symm.trans hs'

/-- How two requests fare that differ in their tokens alone. Something wrong with another field is reported of
both in the same words. Only when there is nothing else, a token that is no text is reported, and it is
quoted. -/
inductive Told (fields : Assoc Json) (v v' : Json) :
    Except ContextError Context → Except ContextError Context → Prop
  | accepted {c c' : Context} (hs : v.isString = true) (hs' : v'.isString = true) :
      Told fields v v' (.ok c) (.ok c')
  | other {e : ContextError} (h : Fails fields openNames e) : Told fields v v' (.error e) (.error e)
  | quoted {e e' : ContextError} (hs : v.isString = false) (hs' : v'.isString = false)
      (hopen : ∀ name ∈ openNames, ∃ o, Says fields name o)
      (he : e.message = "context field 'auth_token' is invalid: expected a string, got " ++ v.compact)
      (he' : e'.message = "context field 'auth_token' is invalid: expected a string, got " ++ v'.compact) :
      Told fields v v' (.error e) (.error e')

/-- Two requests that differ in their tokens alone, of one kind and not null, are told apart by what is reported
of them only if they have nothing wrong but the tokens. -/
theorem told_of_sameBut (h : SameBut "auth_token" fields fields') (hv : fields.get? "auth_token" = some v)
    (hv' : fields'.get? "auth_token" = some v') (hnull : v.isNull = false) (hnull' : v'.isNull = false)
    (hkind : v.kind = v'.kind) (defaults defaults' : Defaults) :
    Told fields v v' (ofFields defaults fields) (ofFields defaults' fields') := by
  have hsame : ∀ name ∈ openNames, fields.get? name = fields'.get? name := fun name hname =>
    h name (ne_of_mem_openNames hname)
  by_cases hfails : ∃ e, Fails fields openNames e
  · obtain ⟨e, he⟩ := hfails
    rw [ofFields_of_fails he, ofFields_of_fails (he.congr hsame)]
    exact .other he
  have hopen := forall_says_iff.mpr (not_exists.mp hfails)
  have hopen' : ∀ name ∈ openNames, ∃ o, Says fields' name o := fun name hname =>
    (hopen name hname).imp fun o ho => ho.congr (hsame name hname)
  cases hs : v.isString with
  | true =>
    have hs' : v'.isString = true := Json.isString_iff_kind.mpr (hkind ▸ Json.isString_iff_kind.mp hs)
    obtain ⟨c, hc⟩ := exists_ofFields defaults hopen hv hs
    obtain ⟨c', hc'⟩ := exists_ofFields defaults' hopen' hv' hs'
    rw [hc, hc']
    exact .accepted hs hs'
  | false =>
    have hs' : v'.isString = false := Bool.eq_false_iff.mpr fun ht =>
      Bool.eq_false_iff.mp hs (Json.isString_iff_kind.mpr (hkind ▸ Json.isString_iff_kind.mp ht))
    rw [ofFields_of_notString hopen hv hnull hs, ofFields_of_notString hopen' hv' hnull' hs']
    exact .quoted hs hs' hopen rfl rfl

/-- A request with a number for a token. -/
def numbered (n : Int) : Assoc Json := [("auth_token", .int n), ("trace_id", .str "trace")]

def noDefaults : Defaults := ⟨"", ""⟩

theorem sameBut_numbered (m n : Int) : SameBut "auth_token" (numbered m) (numbered n) := by
  intro other hne
  rw [numbered, numbered, Assoc.get?_cons_of_ne hne.symm, Assoc.get?_cons_of_ne hne.symm]

theorem says_numbered (n : Int) : ∀ name ∈ openNames, ∃ o, Says (numbered n) name o := by
  simp only [openNames, List.forall_mem_cons]
  exact ⟨⟨_, .missing rfl⟩, ⟨_, .missing rfl⟩, ⟨_, .text (by decide) rfl⟩, ⟨_, .missing rfl⟩, by simp⟩

/-- Each of two numbers is told. -/
theorem told_numbered : ∃ e e', ofFields noDefaults (numbered 17) = .error e ∧
    ofFields noDefaults (numbered 42) = .error e' ∧
    e.message = "context field 'auth_token' is invalid: expected a string, got 17" ∧
    e'.message = "context field 'auth_token' is invalid: expected a string, got 42" := by
  have h := told_of_sameBut (sameBut_numbered 17 42) rfl rfl rfl rfl rfl noDefaults noDefaults
  generalize ofFields noDefaults (numbered 17) = made at h
  generalize ofFields noDefaults (numbered 42) = made' at h
  cases h with
  | accepted hs _ => cases hs
  | other h => exact absurd h (forall_says_iff.mp (says_numbered 17) _)
  | quoted _ _ _ he he' => exact ⟨_, _, rfl, rfl, he, he'⟩

/-- Requests that differ in their tokens alone, of one kind and not null, fail in the same words. -/
def Conceals : Prop :=
  ∀ (defaults defaults' : Defaults) (fields fields' : Assoc Json) (v v' : Json) (e : ContextError),
    SameBut "auth_token" fields fields' → fields.get? "auth_token" = some v →
    fields'.get? "auth_token" = some v' → v.isNull = false → v'.isNull = false → v.kind = v'.kind →
    ofFields defaults fields = .error e →
    ∃ e', ofFields defaults' fields' = .error e' ∧ e'.message = e.message

/-- Which number a token is can be read off what is reported of it. -/
theorem not_conceals : ¬ Conceals := by
  intro h
  have hfails : ∀ n, ofFields noDefaults (numbered n) =
      .error (.invalidField "auth_token" (.notString (.int n))) := fun n =>
    ofFields_of_notString (says_numbered n) rfl rfl rfl
  obtain ⟨e, he, hmessage⟩ := h noDefaults noDefaults _ _ _ _ _ (sameBut_numbered 17 42) rfl rfl rfl rfl rfl
    (hfails 17)
  cases he.symm.trans (hfails 42)
  revert hmessage
  decide

end Context

end Workflow
