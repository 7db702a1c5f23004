import Workflow.Proofs.Assoc
import Workflow.Proofs.Flow.Validation
import Workflow.Proofs.Template.Reading
import Workflow.State.Slot

namespace Workflow.Template

variable {s : KeySource} {segs : List Segment} {body : List Char} {name key text template : String}
variable {names : List String} {out : List Char} {table table' : Assoc String} {e : ContextError}

/-- The names in the holes of a key template, in order. A hole with blanks alone has none. -/
inductive Names : List Segment → List String → Prop
  | nil : Names [] []
  | text (cs : List Char) {segs : List Segment} {names : List String} (h : Names segs names) :
      Names (.text cs :: segs) names
  | blank {body : List Char} {segs : List Segment} {names : List String} (hb : Text.Trims body [])
      (h : Names segs names) : Names (.hole body :: segs) names
  | hole {body : List Char} {name : String} {segs : List Segment} {names : List String}
      (hb : Text.Trims body name.toList) (hn : name ≠ "") (h : Names segs names) :
      Names (.hole body :: segs) (name :: names)

/-- What a name stands for in a state key. -/
inductive KeySource.Gives (s : KeySource) : String → String → Prop
  | nodeId : s.Gives "node_id" s.nodeId
  | userId {id : String} (h : s.context.userId = some id) : s.Gives "user_id" id
  | sessionId {id : String} (h : s.context.sessionId = some id) : s.Gives "session_id" id
  | traceId : s.Gives "trace_id" s.context.traceId
  | input {port : String} {v : Json} (h : s.inputs.get? port = some v) : s.Gives ("inputs." ++ port) v.display
  | raw {field : String} {v : Json} (h : s.context.raw.get? field = some v) :
      s.Gives ("raw." ++ field) v.display

/-- What is written for a key template: its literal text as it is, and for each hole what its name stands
for. Nothing is written for a hole with blanks alone. -/
inductive KeySource.Writes (s : KeySource) : List Segment → List Char → Prop
  | nil : s.Writes [] []
  | text (cs : List Char) {segs : List Segment} {out : List Char} (h : s.Writes segs out) :
      s.Writes (.text cs :: segs) (cs ++ out)
  | blank {body : List Char} {segs : List Segment} {out : List Char} (hb : Text.Trims body [])
      (h : s.Writes segs out) : s.Writes (.hole body :: segs) out
  | hole {body : List Char} {name text : String} {segs : List Segment} {out : List Char}
      (hb : Text.Trims body name.toList) (hn : name ≠ "") (hg : s.Gives name text) (h : s.Writes segs out) :
      s.Writes (.hole body :: segs) (text.toList ++ out)

theorem variableName_eq_iff : variableName body = name ↔ Text.Trims body name.toList := by
  rw [variableName, ← Text.trim_eq_iff, ← String.toList_inj, String.toList_ofList]

theorem variableName_eq_empty_iff : variableName body = "" ↔ Text.Trims body [] := variableName_eq_iff

theorem names_filter (segs : List Segment) : Names segs (((holes segs).map variableName).filter (· ≠ "")) := by
  induction segs with
  | nil => exact .nil
  | cons seg segs ih =>
    cases seg with
    | text cs => exact .text cs ih
    | hole body =>
      rw [holes, List.map_cons, List.filter_cons]
      by_cases h : variableName body = ""
      · simpa [h] using Names.blank (variableName_eq_empty_iff.mp h) ih
      · simpa [h] using Names.hole (variableName_eq_iff.mp rfl) h ih

theorem namesIn_eq (cs : List Char) :
    namesIn cs = ((holes (segments keyMarks cs)).map variableName).filter (· ≠ "") := by
  fun_induction namesIn cs with
  | case1 cs h =>
    rw [segments_of_none h]
    rfl
  | case2 cs before body after h hlt hn ih =>
    rw [segments_of_some h, holes, holes, List.map_cons, List.filter_cons_of_neg (by simpa using hn), ih]
  | case3 cs before body after h hlt hn ih =>
    rw [segments_of_some h, holes, holes, List.map_cons, List.filter_cons_of_pos (by simpa using hn), ih]

theorem mem_variableNames : name ∈ variableNames template ↔ name ≠ "" ∧
    ∃ body ∈ holes (segments keyMarks template.toList), variableName body = name := by
  rw [variableNames, namesIn_eq, List.mem_filter, List.mem_map, decide_eq_true_eq, and_comm]

/-- A template has the names in its holes, and no other list of names is one of them. -/
theorem names_iff {template : String} :
    Names (segments keyMarks template.toList) names ↔ variableNames template = names := by
  constructor
  · intro h
    rw [variableNames, namesIn_eq]
    generalize segments keyMarks template.toList = segs at h
    induction h with
    | nil => rfl
    | text cs _ ih => exact ih
    | blank hb _ ih => simpa [holes, variableName_eq_empty_iff.mpr hb] using ih
    | hole hb hn _ ih => simpa [holes, variableName_eq_iff.mpr hb, hn] using ih
  · rintro rfl
    rw [variableNames, namesIn_eq]
    exact names_filter _

theorem ne_of_append {start rest name : String} (h : after? start name = none) : start ++ rest ≠ name := by
  intro he
  rw [after?_eq_some_iff.mpr he.symm] at h
  cases h

namespace KeySource

theorem value?_eq_some_iff : s.value? name = some text ↔ s.Gives name text := by
  constructor
  · intro h
    unfold value? at h
    split at h
    · next hname =>
      cases h
      exact hname ▸ .nodeId
    split at h
    · next hname => exact hname ▸ .userId h
    split at h
    · next hname => exact hname ▸ .sessionId h
    split at h
    · next hname =>
      cases h
      exact hname ▸ .traceId
    split at h
    · next port hport =>
      obtain ⟨v, hv, rfl⟩ := Option.map_eq_some_iff.mp h
      rw [after?_eq_some_iff.mp hport]
      exact .input hv
    split at h
    · next field hfield =>
      obtain ⟨v, hv, rfl⟩ := Option.map_eq_some_iff.mp h
      rw [after?_eq_some_iff.mp hfield]
      exact .raw hv
    · cases h
  · intro h
    cases h with
    | nodeId => rfl
    | userId h => exact h
    | sessionId h => exact h
    | traceId => rfl
    | @input port v h =>
      have hport : after? "inputs." ("inputs." ++ port) = some port := after?_eq_some_iff.mpr rfl
      unfold value?
      rw [if_neg (ne_of_append rfl), if_neg (ne_of_append rfl), if_neg (ne_of_append rfl),
        if_neg (ne_of_append rfl), hport]
      simp [h]
    | @raw field v h =>
      have hfield : after? "raw." ("raw." ++ field) = some field := after?_eq_some_iff.mpr rfl
      unfold value?
      rw [if_neg (ne_of_append rfl), if_neg (ne_of_append rfl), if_neg (ne_of_append rfl),
        if_neg (ne_of_append rfl), after?_inputs_raw, hfield]
      simp [h]

theorem value?_eq_none_iff : s.value? name = none ↔ ¬ ∃ text, s.Gives name text := by
  simp only [Option.eq_none_iff_forall_ne_some, ne_eq, value?_eq_some_iff, not_exists]

theorem exists_values_iff :
    (∃ table', s.values table names = .ok table') ↔ ∀ name ∈ names, ∃ text, s.Gives name text := by
  induction names generalizing table with
  | nil => simp [values]
  | cons name names ih =>
    rw [values, List.forall_mem_cons]
    cases hv : s.value? name with
    | none => simp [value?_eq_none_iff.mp hv]
    | some text => exact ih.trans (and_iff_right ⟨text, value?_eq_some_iff.mp hv⟩).symm

/-- The first of the names that stands for nothing is reported. -/
theorem values_eq_error_iff : s.values table names = .error e ↔ ∃ before name after,
    names = before ++ name :: after ∧ (∀ x ∈ before, ∃ text, s.Gives x text) ∧
      (¬ ∃ text, s.Gives name text) ∧ e = .unresolvedVariable name := by
  induction names generalizing table with
  | nil => simp [values]
  | cons first names ih =>
    rw [values]
    cases hv : s.value? first with
    | some text =>
      have hg : ∃ text, s.Gives first text := ⟨text, value?_eq_some_iff.mp hv⟩
      dsimp only
      rw [ih]
      constructor
      · rintro ⟨before, name, after, rfl, hbefore, hname⟩
        exact ⟨first :: before, name, after, rfl, List.forall_mem_cons.mpr ⟨hg, hbefore⟩, hname⟩
      · rintro ⟨before, name, after, he, hbefore, hname⟩
        cases before with
        | nil =>
          cases he
          exact absurd hg hname.1
        | cons x before =>
          cases he
          exact ⟨before, name, after, rfl, (List.forall_mem_cons.mp hbefore).2, hname⟩
    | none =>
      have hg := value?_eq_none_iff.mp hv
      constructor
      · intro he
        cases he
        exact ⟨[], first, names, rfl, by simp, hg, rfl⟩
      · rintro ⟨before, name, after, he, hbefore, hname, rfl⟩
        cases before with
        | nil =>
          cases he
          rfl
        | cons x before =>
          cases he
          exact absurd (hbefore first List.mem_cons_self) hg

/-- The table of some variables has their texts, and what it had before. -/
theorem get?_of_values (h : s.values table names = .ok table') (name : String) :
    table'.get? name = if name ∈ names then s.value? name else table.get? name := by
  induction names generalizing table with
  | nil =>
    cases h
    rw [if_neg List.not_mem_nil]
  | cons first names ih =>
    rw [values] at h
    cases hv : s.value? first with
    | none =>
      rw [hv] at h
      cases h
    | some text =>
      rw [hv] at h
      rw [ih h, Assoc.get?_insert]
      by_cases hf : first = name
      · subst hf
        rw [hv, if_pos rfl, ite_self, if_pos List.mem_cons_self]
      · simp only [List.mem_cons, Ne.symm hf, false_or, if_neg hf]

/-- What stands for a hole of a key; a blank one is dropped. -/
def textOf (s : KeySource) (body : List Char) : List Char :=
  if variableName body = "" then [] else ((s.value? (variableName body)).getD "").toList

theorem textOf_eq_nil (h : Text.Trims body []) : s.textOf body = [] := by
  rw [textOf, if_pos (variableName_eq_empty_iff.mpr h)]

theorem textOf_of_gives (hb : Text.Trims body name.toList) (hn : name ≠ "") (hg : s.Gives name text) :
    s.textOf body = text.toList := by
  rw [textOf, variableName_eq_iff.mpr hb, if_neg hn, value?_eq_some_iff.mpr hg, Option.getD_some]

/-- When every name stands for something, what is written is the template with its holes filled. -/
theorem writes_fill (hnames : Names segs names) (h : ∀ name ∈ names, ∃ text, s.Gives name text) :
    s.Writes segs (fill s.textOf segs) := by
  induction hnames with
  | nil => exact .nil
  | text cs _ ih => exact .text cs (ih h)
  | blank hb _ ih =>
    rw [fill, textOf_eq_nil hb]
    exact .blank hb (ih h)
  | hole hb hn _ ih =>
    obtain ⟨⟨text, hg⟩, h⟩ := List.forall_mem_cons.mp h
    rw [fill, textOf_of_gives hb hn hg]
    exact .hole hb hn hg (ih h)

theorem Writes.eq_fill (h : s.Writes segs out) : fill s.textOf segs = out := by
  induction h with
  | nil => rfl
  | text cs _ ih => rw [fill, ih]
  | blank hb _ ih => rw [fill, textOf_eq_nil hb, ih, List.nil_append]
  | hole hb hn hg _ ih => rw [fill, textOf_of_gives hb hn hg, ih]

/-- No hole with a name is left out of what is written. -/
theorem Writes.gives (h : s.Writes segs out) : ∃ names, Names segs names ∧
    ∀ name ∈ names, ∃ text, s.Gives name text := by
  induction h with
  | nil => exact ⟨[], .nil, by simp⟩
  | text cs _ ih =>
    obtain ⟨names, hnames, hall⟩ := ih
    exact ⟨names, .text cs hnames, hall⟩
  | blank hb _ ih =>
    obtain ⟨names, hnames, hall⟩ := ih
    exact ⟨names, .blank hb hnames, hall⟩
  | @hole body name text segs out hb hn hg _ ih =>
    obtain ⟨names, hnames, hall⟩ := ih
    exact ⟨name :: names, .hole hb hn hnames, List.forall_mem_cons.mpr ⟨⟨text, hg⟩, hall⟩⟩

end KeySource

theorem substitute_eq_fill (table : Assoc String) (cs : List Char) : substitute table cs =
    fill (fun body => ((table.get? (variableName body)).getD "").toList) (segments keyMarks cs) := by
  fun_induction substitute table cs with
  | case1 cs h => rw [segments_of_none h, fill, fill, List.append_nil]
  | case2 cs before body after h hlt ih => rw [segments_of_some h, fill, fill, ih]

/-- With the table of its own variables, a template has each hole filled with the text of the variable there. -/
theorem substitute_of_values (h : s.values [] (variableNames template) = .ok table) :
    substitute table template.toList = fill s.textOf (segments keyMarks template.toList) := by
  rw [substitute_eq_fill]
  refine fill_congr fun body hbody => ?_
  rw [KeySource.textOf, KeySource.get?_of_values h]
  by_cases hn : variableName body = ""
  · rw [if_pos hn, if_neg fun hm => (mem_variableNames.mp hm).1 hn]
    rfl
  · rw [if_neg hn, if_pos (mem_variableNames.mpr ⟨hn, body, hbody, rfl⟩)]

theorem renderKey_eq_error_iff :
    renderKey s template = .error e ↔ s.values [] (variableNames template) = .error e := by
  rw [renderKey]
  cases s.values [] (variableNames template) with
  | error e' => exact ⟨fun h => congrArg _ (Except.error.inj h), fun h => congrArg _ (Except.error.inj h)⟩
  | ok table => exact ⟨fun h => (by cases h), fun h => (by cases h)⟩

theorem renderKey_of_gives (h : ∀ name ∈ variableNames template, ∃ text, s.Gives name text) :
    renderKey s template = .ok (String.ofList (fill s.textOf (segments keyMarks template.toList))) := by
  obtain ⟨table, ht⟩ := KeySource.exists_values_iff.mpr h
  rw [renderKey, ht, ← substitute_of_values ht]
  rfl

theorem exists_renderKey_iff : (∃ key, renderKey s template = .ok key) ↔
    ∀ name ∈ variableNames template, ∃ text, s.Gives name text := by
  constructor
  · rintro ⟨key, h⟩
    cases hv : s.values [] (variableNames template) with
    | ok table => exact KeySource.exists_values_iff.mp ⟨table, hv⟩
    | error e => cases h.symm.trans (renderKey_eq_error_iff.mpr hv)
  · exact fun h => ⟨_, renderKey_of_gives h⟩

theorem renderKey_eq_ok_iff :
    renderKey s template = .ok key ↔ s.Writes (segments keyMarks template.toList) key.toList := by
  constructor
  · intro h
    have hall := exists_renderKey_iff.mp ⟨key, h⟩
    rw [renderKey_of_gives hall] at h
    cases h
    rw [String.toList_ofList]
    exact KeySource.writes_fill (names_iff.mpr rfl) hall
  · intro h
    obtain ⟨names, hnames, hall⟩ := h.gives
    rw [← names_iff.mp hnames] at hall
    rw [renderKey_of_gives hall, h.eq_fill, String.ofList_toList]

/-- A name that may stand in the key templates of a node, and stands for nothing: the request has no such id,
nothing was delivered to the port, or the request has no such field. -/
inductive KeySource.Lacks (n : Node) (s : KeySource) : String → Prop
  | userId (h : s.context.userId = none) : s.Lacks n "user_id"
  | sessionId (h : s.context.sessionId = none) : s.Lacks n "session_id"
  | input {p : Port} (hp : p ∈ n.inputs) (h : s.inputs.get? p.name = none) : s.Lacks n ("inputs." ++ p.name)
  | raw {field : String} (hf : field ≠ "") (h : s.context.raw.get? field = none) :
      s.Lacks n ("raw." ++ field)

theorem KeySource.lacks_of_keyVariable {n : Node} (h : KeyVariable n name)
    (hg : ¬ ∃ text, s.Gives name text) : s.Lacks n name := by
  cases h with
  | id h =>
    simp only [List.mem_cons, List.not_mem_nil, or_false] at h
    rcases h with rfl | rfl | rfl | rfl
    · exact absurd ⟨_, .nodeId⟩ hg
    · exact .userId (Option.eq_none_iff_forall_ne_some.mpr fun id hid => hg ⟨id, .userId hid⟩)
    · exact .sessionId (Option.eq_none_iff_forall_ne_some.mpr fun id hid => hg ⟨id, .sessionId hid⟩)
    · exact absurd ⟨_, .traceId⟩ hg
  | input hp => exact .input hp (Option.eq_none_iff_forall_ne_some.mpr fun v hv => hg ⟨_, .input hv⟩)
  | raw hf => exact .raw hf (Option.eq_none_iff_forall_ne_some.mpr fun v hv => hg ⟨_, .raw hv⟩)

/-- How the key of the state of a node comes about. Its template is read in one way, and has certain names.
There is a key exactly when each of them stands for something, and then it is the template with the names
replaced. Else the first name that stands for nothing is reported, and it is one that the node may use. -/
structure Keyed (n : Node) (s : KeySource) (config : StateConfig) (segs : List Segment) (names : List String) :
    Prop where
  reads : ∀ xs, Reads config.keyTemplate.toList xs ↔ xs = segs
  lists : ∀ xs, Names segs xs ↔ xs = names
  found : variableNames config.keyTemplate = names
  renders : (∃ key, renderKey s config.keyTemplate = .ok key) ↔ ∀ name ∈ names, ∃ text, s.Gives name text
  writes : ∀ key, renderKey s config.keyTemplate = .ok key ↔ s.Writes segs key.toList
  fails : ∀ e, renderKey s config.keyTemplate = .error e ↔ ∃ before name after,
    names = before ++ name :: after ∧ (∀ x ∈ before, ∃ text, s.Gives x text) ∧
      (¬ ∃ text, s.Gives name text) ∧ e = .unresolvedVariable name
  lacks : ∀ e, renderKey s config.keyTemplate = .error e →
    ∃ name ∈ names, e = .unresolvedVariable name ∧ s.Lacks n name
  bind : ∀ (μ : Type) (w : World μ) (run : Nat) (e : ContextError),
    Slot.bind w run s (some config) = .error (.key e) ↔ renderKey s config.keyTemplate = .error e

theorem bind_eq_error_iff {μ : Type} {w : World μ} {run : Nat} {config : StateConfig} :
    Slot.bind w run s (some config) = .error (.key e) ↔ renderKey s config.keyTemplate = .error e := by
  rw [Slot.bind]
  cases renderKey s config.keyTemplate with
  | error e' =>
    constructor
    · intro h
      cases h
      rfl
    · intro h
      cases h
      rfl
  | ok key =>
    refine ⟨fun h => ?_, fun h => (by cases h)⟩
    cases hs : config.scope with
    | request =>
      simp only [hs] at h
      cases h
    | session =>
      simp only [hs] at h
      cases hw : w.store? config.backend with
      | error e' =>
        rw [hw] at h
        cases h
      | ok store =>
        rw [hw] at h
        cases h

/-- In a valid workflow, whatever the request and the inputs of a node, its state has a key unless something
is missing that its key is made of. -/
theorem keyed_of_validate {d : Document} {f : Flow} (hv : Flow.validate d = .ok f) {id : String} {n : Node}
    {config : StateConfig} (hn : (id, n) ∈ f.nodes) (hc : n.state = some config) (ctx : Context)
    (inputs : Assoc Json) : ∃ segs names, Keyed n ⟨id, ctx, inputs⟩ config segs names := by
  have hd := Flow.denotes_of_validate hv
  have hw := Flow.issues_eq_nil_iff.mp (Flow.issues_eq_nil_of_validate hv)
  have hfits : config.Fits n := (hw.nodes (id, n) (hd.nodes ▸ hn)).state config hc
  refine ⟨segments keyMarks config.keyTemplate.toList, variableNames config.keyTemplate, ?_, ?_, rfl, ?_, ?_,
    ?_, ?_, ?_⟩
  · exact fun xs => segments_eq_iff.symm.trans eq_comm
  · exact fun xs => names_iff.trans eq_comm
  · exact exists_renderKey_iff
  · exact fun key => renderKey_eq_ok_iff
  · exact fun e => renderKey_eq_error_iff.trans KeySource.values_eq_error_iff
  · intro e he
    obtain ⟨before, name, after, hnames, _, hg, rfl⟩ :=
      KeySource.values_eq_error_iff.mp (renderKey_eq_error_iff.mp he)
    have hmem : name ∈ variableNames config.keyTemplate := by simp [hnames]
    exact ⟨name, hmem, rfl, KeySource.lacks_of_keyVariable (hfits.known name hmem) hg⟩
  · exact fun μ w run e => bind_eq_error_iff

/-- A key with a padded name, a blank hole, a name right after it, and a brace that is not closed. -/
def chatState : StateConfig :=
  ⟨.session, "\x7b session_id \x7d/\x7b \x7d\x7binputs.topic\x7d\x7b", none, none⟩

def asker : Node where
  inputs := [⟨"topic", .string, false, none⟩]
  outputs := []
  errorPort := none
  transform := .code ""
  policy := {}
  state := some chatState

def chat : Document where
  version := "1.0"
  metadata := []
  requires := []
  nodes := [("ask", asker)]
  links := [⟨"_input.topic", "ask.topic", none, none⟩]
  deployment := none

def chatFlow : Flow where
  version := "1.0"
  metadata := []
  requires := []
  nodes := chat.nodes
  links := [⟨⟨.input, "topic"⟩, ⟨.node "ask", "topic"⟩, none, none, .identity⟩]
  deployment := none

set_option maxRecDepth 10000 in
theorem validate_chat : Flow.validate chat = .ok chatFlow := by with_unfolding_all rfl

def chatContext : Context := ⟨none, some "s1", "trace", "2024-01-01T00:00:00Z", none, []⟩

def chatSource : KeySource := ⟨"ask", chatContext, [("topic", .str "\x7buser_id\x7d")]⟩

/-- What a topic has between braces is not read as part of the template. -/
theorem keyed_chat : (∃ segs, Keyed asker chatSource chatState segs ["session_id", "inputs.topic"]) ∧
    renderKey chatSource chatState.keyTemplate = .ok "s1/\x7buser_id\x7d\x7b" := by
  obtain ⟨segs, names, h⟩ := keyed_of_validate validate_chat List.mem_cons_self (rfl : asker.state = some chatState)
    chatContext [("topic", .str "\x7buser_id\x7d")]
  have hnames : variableNames chatState.keyTemplate = ["session_id", "inputs.topic"] := by with_unfolding_all rfl
  rw [← h.found] at h
  exact ⟨⟨segs, hnames ▸ h⟩, by with_unfolding_all rfl⟩

end Workflow.Template
