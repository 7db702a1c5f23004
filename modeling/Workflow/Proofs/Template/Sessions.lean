import Workflow.Proofs.Context.Fields
import Workflow.Proofs.Template.Key

namespace Workflow.Template

variable {s s' : KeySource} {a b name text template key key' : String} {body : List Char}

/-- Two sources of keys that are alike but for the session, which is `a` for the one and `b` for the other. -/
structure KeySource.Apart (s s' : KeySource) (a b : String) : Prop where
  nodeId : s.nodeId = s'.nodeId
  userId : s.context.userId = s'.context.userId
  sessionId : s.context.sessionId = some a
  sessionId' : s'.context.sessionId = some b
  traceId : s.context.traceId = s'.context.traceId
  inputs : s.inputs = s'.inputs
  raw : ∀ field, field ≠ "session_id" → s.context.raw.get? field = s'.context.raw.get? field
  rawSession : s.context.raw.get? "session_id" = some (.str a)
  rawSession' : s'.context.raw.get? "session_id" = some (.str b)

namespace KeySource.Apart

theorem symm (h : s.Apart s' a b) : s'.Apart s b a :=
  ⟨h.nodeId.symm, h.userId.symm, h.sessionId', h.sessionId, h.traceId.symm, h.inputs.symm,
    fun field hf => (h.raw field hf).symm, h.rawSession', h.rawSession⟩

/-- A name stands for the same in both, or for the session. -/
theorem gives (h : s.Apart s' a b) (hg : s.Gives name text) :
    s'.Gives name text ∨ text = a ∧ s'.Gives name b := by
  cases hg with
  | nodeId => exact .inl (h.nodeId ▸ .nodeId)
  | userId hid => exact .inl (.userId (h.userId ▸ hid))
  | sessionId hid =>
    cases h.sessionId.symm.trans hid
    exact .inr ⟨rfl, .sessionId h.sessionId'⟩
  | traceId => exact .inl (h.traceId ▸ .traceId)
  | input hv => exact .inl (.input (h.inputs ▸ hv))
  | @raw field v hv =>
    by_cases hf : field = "session_id"
    · subst hf
      cases h.rawSession.symm.trans hv
      exact .inr ⟨rfl, .raw h.rawSession'⟩
    · exact .inl (.raw (h.raw field hf ▸ hv))

theorem textOf (h : s.Apart s' a b)
    (hbody : variableName body ≠ "" → ∃ text, s.Gives (variableName body) text) :
    s.textOf body = s'.textOf body ∨ s.textOf body = a.toList ∧ s'.textOf body = b.toList := by
  by_cases hn : variableName body = ""
  · rw [variableName_eq_empty_iff] at hn
    exact .inl ((textOf_eq_nil hn).trans (textOf_eq_nil hn).symm)
  · have htrims := variableName_eq_iff.mp (rfl : variableName body = variableName body)
    obtain ⟨text, hg⟩ := hbody hn
    rcases h.gives hg with hg' | ⟨rfl, hg'⟩
    · exact .inl ((textOf_of_gives htrims hn hg).trans (textOf_of_gives htrims hn hg').symm)
    · exact .inr ⟨textOf_of_gives htrims hn hg, textOf_of_gives htrims hn hg'⟩

end KeySource.Apart

theorem gives_of_renderKey (hk : renderKey s template = .ok key) (hn : name ∈ variableNames template) :
    ∃ text, s.Gives name text :=
  exists_renderKey_iff.mp ⟨key, hk⟩ name hn

theorem toList_of_renderKey (hk : renderKey s template = .ok key) :
    key.toList = fill s.textOf (segments keyMarks template.toList) :=
  (renderKey_eq_ok_iff.mp hk).eq_fill.symm

/-- Two sources with one key have one session. With the shorter session in the first, no piece of its key is longer
than the piece of the other in its place, so that equal keys are equal piece by piece. -/
theorem KeySource.Apart.session_eq (h : s.Apart s' a b) (hlen : a.toList.length ≤ b.toList.length)
    (hsession : "session_id" ∈ variableNames template) (hk : renderKey s template = .ok key)
    (hk' : renderKey s' template = .ok key) : a = b := by
  have hbody : ∀ body ∈ holes (segments keyMarks template.toList),
      s.textOf body = s'.textOf body ∨ s.textOf body = a.toList ∧ s'.textOf body = b.toList := fun body hbody =>
    h.textOf fun hn => gives_of_renderKey hk (mem_variableNames.mpr ⟨hn, body, hbody, rfl⟩)
  have hle : ∀ body ∈ holes (segments keyMarks template.toList),
      (s.textOf body).length ≤ (s'.textOf body).length := fun body hm => by
    rcases hbody body hm with he | ⟨ha, hb⟩
    · exact he ▸ Nat.le_refl _
    · rwa [ha, hb]
  have heq := eq_of_fill_eq hle ((toList_of_renderKey hk).symm.trans (toList_of_renderKey hk'))
  obtain ⟨hne, body, hm, hname⟩ := mem_variableNames.mp hsession
  have htrims := variableName_eq_iff.mp hname
  have hsame := heq body hm
  rw [KeySource.textOf_of_gives htrims hne (.sessionId h.sessionId),
    KeySource.textOf_of_gives htrims hne (.sessionId h.sessionId')] at hsame
  exact String.toList_inj.mp hsame

theorem KeySource.Apart.key_ne (h : s.Apart s' a b) (hab : a ≠ b)
    (hsession : "session_id" ∈ variableNames template)
    (hk : renderKey s template = .ok key) (hk' : renderKey s' template = .ok key') : key ≠ key' := by
  rintro rfl
  rcases Nat.le_total a.toList.length b.toList.length with hlen | hlen
  · exact hab (h.session_eq hlen hsession hk hk')
  · exact hab (h.symm.session_eq hlen hsession hk' hk).symm

section Requests

open Context

variable {defaults defaults' : Defaults} {fields fields' : Assoc Json} {c c' : Context} {trace : String}

theorem sessionId_of_renderKey (hsession : "session_id" ∈ variableNames template)
    (hk : renderKey s template = .ok key) : ∃ a, s.context.sessionId = some a := by
  obtain ⟨a, ha⟩ := gives_of_renderKey hk hsession
  exact ⟨a, KeySource.value?_eq_some_iff.mpr ha⟩

theorem apart_of_sameBut (hsame : SameBut "session_id" fields fields')
    (htrace : fields.get? "trace_id" = some (.str trace)) (hc : MadeOf defaults fields c)
    (hc' : MadeOf defaults' fields' c') (ha : c.sessionId = some a) (hb : c'.sessionId = some b) (id : String)
    (inputs : Assoc Json) : KeySource.Apart ⟨id, c, inputs⟩ ⟨id, c', inputs⟩ a b where
  nodeId := rfl
  userId := (hc.userId.congr (hsame "user_id" (by decide))).unique hc'.userId
  sessionId := ha
  sessionId' := hb
  traceId := (hc.traceId_eq htrace).trans
    (hc'.traceId_eq ((hsame "trace_id" (by decide)).symm.trans htrace)).symm
  inputs := rfl
  raw := fun field hf => by
    rw [hc.raw, hc'.raw, Assoc.get?_erase, Assoc.get?_erase, hsame field hf]
  rawSession := (hc.get?_raw (by decide)).trans (Says.get?_eq (ha ▸ hc.sessionId) (by decide))
  rawSession' := (hc'.get?_raw (by decide)).trans (Says.get?_eq (hb ▸ hc'.sessionId) (by decide))

/-- In a valid workflow, a node keeps what belongs to a session under a key that no other session has, as long as
nothing else in the requests differs and their trace ids are their own. -/
theorem key_ne_of_sessions {d : Document} {f : Flow} (hv : Flow.validate d = .ok f) {id : String} {n : Node}
    {config : StateConfig} (hn : (id, n) ∈ f.nodes) (hstate : n.state = some config)
    (hscope : config.scope = .session) (inputs : Assoc Json) (hsame : SameBut "session_id" fields fields')
    (hsession : fields.get? "session_id" ≠ fields'.get? "session_id")
    (htrace : fields.get? "trace_id" = some (.str trace)) (hc : ofFields defaults fields = .ok c)
    (hc' : ofFields defaults' fields' = .ok c') (hk : renderKey ⟨id, c, inputs⟩ config.keyTemplate = .ok key)
    (hk' : renderKey ⟨id, c', inputs⟩ config.keyTemplate = .ok key') : key ≠ key' := by
  have hmem := ((Flow.sound_of_validate hv hn).state config hstate).session_key hscope
  rw [ofFields_eq_ok_iff] at hc hc'
  obtain ⟨a, ha⟩ := sessionId_of_renderKey hmem hk
  obtain ⟨b, hb⟩ := sessionId_of_renderKey hmem hk'
  have hapart := apart_of_sameBut hsame htrace hc hc' ha hb id inputs
  refine hapart.key_ne (fun hab => hsession ?_) hmem hk hk'
  rw [← hc.get?_raw (by decide), ← hc'.get?_raw (by decide), hapart.rawSession, hapart.rawSession', hab]

/-- A key that has the session twice, with nothing between. -/
def twiceState : StateConfig :=
  ⟨.session, "\x7bsession_id\x7d\x7b raw.session_id \x7da", none, none⟩

def counter : Node where
  inputs := []
  outputs := []
  errorPort := none
  transform := .code ""
  policy := {}
  state := some twiceState

def counting : Document where
  version := "1.0"
  metadata := []
  requires := []
  nodes := [("count", counter)]
  links := []
  deployment := none

def countingFlow : Flow where
  version := "1.0"
  metadata := []
  requires := []
  nodes := counting.nodes
  links := []
  deployment := none

set_option maxRecDepth 10000 in
theorem validate_counting : Flow.validate counting = .ok countingFlow := by with_unfolding_all rfl

/-- A request of a session. -/
def visit (session : String) : Assoc Json :=
  [("session_id", .str session), ("trace_id", .str "trace"), ("user_id", .null)]

def visitor (session : String) : Context :=
  ⟨none, some session, "trace", "2024-01-01T00:00:00Z", none, visit session⟩

theorem sameBut_visit (a b : String) : SameBut "session_id" (visit a) (visit b) := by
  intro other hne
  rw [visit, visit, Assoc.get?_cons_of_ne hne.symm, Assoc.get?_cons_of_ne hne.symm]

/-- Both keys are made of one letter, and differ all the same. -/
theorem key_ne_counting : renderKey ⟨"count", visitor "a", []⟩ twiceState.keyTemplate = .ok "aaa" ∧
    renderKey ⟨"count", visitor "aa", []⟩ twiceState.keyTemplate = .ok "aaaaa" ∧ "aaa" ≠ "aaaaa" := by
  have hc : ∀ session, ofFields ⟨"", "2024-01-01T00:00:00Z"⟩ (visit session) = .ok (visitor session) :=
    fun session => rfl
  have hk : renderKey ⟨"count", visitor "a", []⟩ twiceState.keyTemplate = .ok "aaa" := by
    with_unfolding_all rfl
  have hk' : renderKey ⟨"count", visitor "aa", []⟩ twiceState.keyTemplate = .ok "aaaaa" := by
    with_unfolding_all rfl
  exact ⟨hk, hk', key_ne_of_sessions validate_counting List.mem_cons_self rfl rfl [] (sameBut_visit "a" "aa")
    (by simp [visit]) rfl (hc "a") (hc "aa") hk hk'⟩

end Requests

end Workflow.Template
