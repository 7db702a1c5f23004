import Mathlib
import Workflow.Command.Run
import Workflow.Proofs.Engine.Tracing

namespace Workflow

namespace Context

/-- All fields of a request are in its context: as they are but for the token, and as what they say where a
context reads them. -/
structure Carries (fields : Assoc Json) (c : Context) : Prop where
  raw : ∀ name v, fields.get? name = some v → name ≠ "auth_token" → c.raw.get? name = some v
  userId : Says fields "user_id" c.userId
  sessionId : Says fields "session_id" c.sessionId
  traceId : ∀ id, Says fields "trace_id" (some id) → c.traceId = id
  eventTime : ∀ time, Says fields "event_time" (some time) → c.eventTime = time
  authToken : Says fields "auth_token" c.authToken

variable {fields fields' : Assoc Json} {defaults : Defaults} {c : Context}

/-- A context has all fields of a request that were there before a trace id was added. -/
theorem MadeOf.carries (h : MadeOf defaults fields' c) (hsame : SameBut "trace_id" fields fields')
    (htrace : ∀ v, fields.get? "trace_id" = some v → fields'.get? "trace_id" = some v) :
    Carries fields c where
  raw name v hv hn := by
    rw [h.get?_raw hn]
    by_cases ht : name = "trace_id"
    · exact ht ▸ htrace v (ht ▸ hv)
    · rw [← hsame name ht, hv]
  userId := h.userId.congr (hsame _ (by decide)).symm
  sessionId := h.sessionId.congr (hsame _ (by decide)).symm
  traceId id hid := h.traceId_eq (htrace _ (hid.get?_eq (by decide)))
  eventTime time ht := by
    obtain ⟨o, ho, hc⟩ := h.eventTime
    rw [hc, ho.unique (ht.congr (hsame _ (by decide))), Option.getD_some]
  authToken := h.authToken.congr (hsame _ (by decide)).symm

end Context

namespace Command

open Context

variable {s : Surroundings} {c : Config} {asJson : Bool} {file name : String} {o : RunOptions}
variable {f : Flow} {inputs : Inputs} {fields : Assoc Json} {store : Store}

theorem sorted_of_assignments {texts : List String} (h : assignments texts = .ok fields) : fields.Sorted := by
  rw [assignments] at h
  cases hm : texts.mapM assignment with
  | error err =>
    rw [hm] at h
    cases h
  | ok entries =>
    rw [hm] at h
    cases h
    exact .ofList entries

/-- A trace id that a request says is noted again as it is. -/
theorem insert_traceIdOf (hs : fields.Sorted) {id : String} (h : Says fields "trace_id" (some id)) :
    fields.insert "trace_id" (.str (traceIdOf s fields)) = fields := by
  have hget := h.get?_eq (by decide)
  rw [traceIdOf, hget]
  exact hs.insert_self hget

/-- Otherwise a fresh one is noted. -/
theorem traceIdOf_of_says_none (h : Says fields "trace_id" none) : traceIdOf s fields = s.traceId := by
  rcases h.get?_of_none with h | h
  · rw [traceIdOf, h]
    rfl
  · rw [traceIdOf, h]
    rfl

/-- A response tells that a run could not start. -/
def Response.CouldNotStart (r : Response) : Prop := "Error: Run could not start: ".toList <+: r.errors.toList

/-- What is said of a run that was made: everything that an engine reports. -/
def reported (s : Surroundings) (asJson : Bool) (name : String) (report : Report) : String :=
  if asJson then json (reportJson s.naming report) else reportText s.naming name report

/-- A response tells the result of an engine: that a run could not start, and why, if it was refused, and
otherwise everything in the report. A run that did not succeed is an error of the command, too. -/
structure Tells (s : Surroundings) (asJson : Bool) (name : String) (result : Except StartError Report)
    (r : Response) : Prop where
  couldNotStart : r.CouldNotStart ↔ ∃ err, result = .error err
  refusal : ∀ err, result = .error err →
    r.output = "" ∧ r.errors = lines ["Error: Run could not start: " ++ err.message]
  output : ∀ report, result = .ok report → r.output = reported s asJson name report
  errors : ∀ report, result = .ok report →
    r.errors = if report.status = .succeeded then "" else lines ["Error: run " ++ report.status.name]
  success : r.status = 0 ↔ ∃ report, result = .ok report ∧ report.status = .succeeded

theorem lines_singleton (line : String) : lines [line] = line ++ "\n" := by
  simp [lines, String.join]

theorem text_couldNotStart (message : String) :
    Failure.text ⟨"Run could not start: " ++ message, []⟩ =
      lines ["Error: Run could not start: " ++ message] :=
  congrArg (fun line => lines [line]) String.append_assoc.symm

theorem tells_error (err : StartError) :
    Tells s asJson name (.error err)
      (Failure.response ⟨"Run could not start: " ++ err.message, []⟩ "") where
  couldNotStart := by
    refine iff_of_true ?_ ⟨err, rfl⟩
    rw [Response.CouldNotStart, Failure.response, text_couldNotStart, lines_singleton, String.toList_append,
      String.toList_append, List.append_assoc]
    exact List.prefix_append _ _
  refusal err' h := by
    cases h
    exact ⟨rfl, text_couldNotStart _⟩
  output _ h := nomatch h
  errors _ h := nomatch h
  success := iff_of_false Nat.one_ne_zero (nomatch ·)

theorem tells_succeeded {report : Report} (h : report.status = .succeeded) (elapsedMs : Nat) :
    Tells s asJson name (.ok report) { output := reported s asJson name report, elapsedMs } where
  couldNotStart := by
    refine iff_of_false ?_ (nomatch ·)
    change ¬ "Error: Run could not start: ".toList <+: "".toList
    decide
  refusal _ h := nomatch h
  output _ h := by
    cases h
    rfl
  errors _ h' := by
    cases h'
    rw [if_pos h]
  success := iff_of_true rfl ⟨report, rfl, h⟩

theorem tells_stopped {report : Report} (h : report.status ≠ .succeeded) (elapsedMs : Nat) :
    Tells s asJson name (.ok report)
      { Failure.response ⟨"run " ++ report.status.name, []⟩ (reported s asJson name report) with
        elapsedMs } where
  couldNotStart := by
    refine iff_of_false ?_ (nomatch ·)
    change ¬ "Error: Run could not start: ".toList <+:
      (Failure.text ⟨"run " ++ report.status.name, []⟩).toList
    cases report.status <;> decide
  refusal _ h := nomatch h
  output _ h := by
    cases h
    rfl
  errors _ h' := by
    cases h'
    rw [if_neg h]
    exact congrArg (fun line => lines [line]) String.append_assoc.symm
  success := iff_of_false Nat.one_ne_zero fun ⟨_, h', hs⟩ => by
    cases h'
    exact h hs

theorem load_of_ofText {text : String} (hs : s.file? file = some text)
    (ht : Flow.ofText (.ofFileName file) text = .ok f) : load s file = .ok f := by
  rw [load, hs]
  dsimp only [Flow.load]
  rw [ht]
  rfl

theorem requestOf_eq (hi : assignments o.inputs = .ok inputs) (hd : assignments o.fields = .ok fields) :
    requestOf s o = .ok ⟨inputs, fields.insert "trace_id" (.str (traceIdOf s fields)), o.deadlineMs⟩ := by
  rw [requestOf, hi, hd]
  rfl

/-- Without its database, nothing is run. -/
theorem run_of_storeOf_error (c : Config) (asJson : Bool) (hf : load s file = .ok f)
    (hi : assignments o.inputs = .ok inputs) (hd : assignments o.fields = .ok fields) {failure : Failure}
    (h : storeOf s o = .error failure) : run s c asJson file o = failure.response "" := by
  rw [run, hf, requestOf_eq hi hd, h]
  rfl

/-- A run tells what an engine answers to the request with the trace id that is noted. -/
theorem tells_run (c : Config) (asJson : Bool) (hf : load s file = .ok f)
    (hi : assignments o.inputs = .ok inputs) (hd : assignments o.fields = .ok fields)
    (hstore : storeOf s o = .ok store) :
    Tells s asJson f.name
      ((engine s c).execute f ⟨inputs, fields.insert "trace_id" (.str (traceIdOf s fields)), o.deadlineMs⟩
        (scheduleOf store)).1 (run s c asJson file o) := by
  rw [run, hf, requestOf_eq hi hd, hstore]
  dsimp only [bind, Except.bind, pure, Except.pure]
  rcases (engine s c).execute f _ (scheduleOf store) with ⟨result, after⟩
  cases result with
  | error err => exact tells_error err
  | ok report =>
    dsimp only
    rw [Report.isSuccess]
    by_cases h : report.status = .succeeded
    · rw [if_pos (decide_eq_true h)]
      exact tells_succeeded h after.now
    · rw [if_neg (by rwa [decide_eq_true_eq])]
      exact tells_stopped h after.now

theorem carried {fields' : Assoc Json} {p : Prepared Unit}
    (hp : (engine s c).prepare f ⟨inputs, fields', o.deadlineMs⟩ = .ok p)
    (hsame : SameBut "trace_id" fields fields')
    (htrace : ∀ v, fields.get? "trace_id" = some v → fields'.get? "trace_id" = some v) :
    Carries fields p.context ∧ p.inputs = inputs ∧ p.deadlineMs = o.deadlineMs.or c.timeoutMs := by
  obtain ⟨ctx, hctx, hp⟩ := exists_of_bind_eq_ok hp
  obtain ⟨_, _, hp⟩ := exists_of_bind_eq_ok hp
  obtain ⟨_, _, hp⟩ := exists_of_bind_eq_ok hp
  obtain ⟨_, _, hp⟩ := exists_of_bind_eq_ok hp
  cases hp
  exact ⟨(ofFields_eq_ok_iff.mp (Except.eq_ok_of_mapError hctx)).carries hsame htrace, rfl, rfl⟩

/-- What a command line makes of a run with the store that it names. It tells exactly what an engine answers to its inputs, its fields and
its time limit. When it says no trace id, a fresh one is among the fields. Then a run is still refused just when
an engine refuses it without that, and for the same reason, and else it is made ready as an engine would make it
ready, and has the same outcome if only the flow does not look for the trace id among the raw fields. All that
was given is there when a run starts. -/
structure Executes (s : Surroundings) (c : Config) (asJson : Bool) (file : String) (o : RunOptions)
    (store : Store) (f : Flow) (inputs : Inputs) (fields : Assoc Json) : Prop where
  exactly : (∃ id, Says fields "trace_id" (some id)) ∨ (engine s c).Overlooks f → Tells s asJson f.name
    ((engine s c).execute f ⟨inputs, fields, o.deadlineMs⟩ (scheduleOf store)).1 (run s c asJson file o)
  fresh : Says fields "trace_id" none → Tells s asJson f.name
    ((engine s c).execute f ⟨inputs, fields.insert "trace_id" (.str s.traceId), o.deadlineMs⟩
      (scheduleOf store)).1 (run s c asJson file o)
  starts : Says fields "trace_id" none → (engine s c).StartsAlike f
    ((engine s c).prepare f ⟨inputs, fields, o.deadlineMs⟩)
    ((engine s c).prepare f ⟨inputs, fields.insert "trace_id" (.str s.traceId), o.deadlineMs⟩)
  refused : (run s c asJson file o).CouldNotStart ↔
    ∃ err, ((engine s c).execute f ⟨inputs, fields, o.deadlineMs⟩ (scheduleOf store)).1 = .error err
  refusal : ∀ err,
    ((engine s c).execute f ⟨inputs, fields, o.deadlineMs⟩ (scheduleOf store)).1 = .error err →
      (run s c asJson file o).errors = lines ["Error: Run could not start: " ++ err.message]
  carries : fields.get? "trace_id" ≠ some .null → ∀ request p, requestOf s o = .ok request →
    (engine s c).prepare f request = .ok p →
      Carries fields p.context ∧ p.inputs = inputs ∧ p.deadlineMs = o.deadlineMs.or c.timeoutMs

/-- A run with a trace id in its fields. -/
theorem executes_given (c : Config) (asJson : Bool) (hf : load s file = .ok f)
    (hi : assignments o.inputs = .ok inputs) (hd : assignments o.fields = .ok fields)
    (hstore : storeOf s o = .ok store) {id : String} (ht : Says fields "trace_id" (some id)) : Executes s c asJson file o store f inputs fields := by
  have hrequest := requestOf_eq (s := s) hi hd
  have htells := tells_run c asJson hf hi hd hstore
  rw [insert_traceIdOf (sorted_of_assignments hd) ht] at htells hrequest
  have hsaid : ¬ Says fields "trace_id" none := fun h => nomatch ht.unique h
  exact {
    exactly := fun _ => htells
    fresh := fun h => absurd h hsaid
    starts := fun h => absurd h hsaid
    refused := htells.couldNotStart
    refusal := fun err he => (htells.refusal err he).2
    carries := fun _ request p hr hp => by
      cases hrequest.symm.trans hr
      exact carried hp (fun _ _ => rfl) fun _ hv => hv }

/-- A run to whose fields a trace id is added. -/
theorem executes_fresh (c : Config) (asJson : Bool) (hf : load s file = .ok f)
    (hi : assignments o.inputs = .ok inputs) (hd : assignments o.fields = .ok fields)
    (hstore : storeOf s o = .ok store) (ht : Says fields "trace_id" none) : Executes s c asJson file o store f inputs fields := by
  have hrequest := requestOf_eq (s := s) hi hd
  have htells := tells_run c asJson hf hi hd hstore
  rw [traceIdOf_of_says_none ht] at htells hrequest
  have hstarts := (engine s c).prepare_insert_traceId f inputs o.deadlineMs ht
  have herror : ∀ err,
      ((engine s c).execute f ⟨inputs, fields, o.deadlineMs⟩ (scheduleOf store)).1 = .error err ↔
        ((engine s c).execute f ⟨inputs, fields.insert "trace_id" (.str s.traceId), o.deadlineMs⟩
          (scheduleOf store)).1 = .error err := fun err => by
    rw [Engine.execute_eq_error_iff, Engine.execute_eq_error_iff]
    exact hstarts.error_iff
  exact {
    exactly := fun h => by
      have hover := h.resolve_left fun ⟨_, hid⟩ => nomatch ht.unique hid
      rw [Engine.execute_insert_traceId hover inputs o.deadlineMs (scheduleOf store) ht]
      exact htells
    fresh := fun _ => htells
    starts := fun _ => hstarts
    refused := htells.couldNotStart.trans (exists_congr fun err => (herror err).symm)
    refusal := fun err he => (htells.refusal err ((herror err).mp he)).2
    carries := fun hnull request p hr hp => by
      cases hrequest.symm.trans hr
      refine carried hp (fun _ hn => (Assoc.get?_insert_of_ne _ _ hn.symm).symm) fun v hv => ?_
      rcases ht.get?_of_none with h | h
      · cases h.symm.trans hv
      · exact absurd h hnull }

/-- The command line adds nothing to an engine but a trace id, unless what it is given for one is neither text
nor null. All that it tells of a database which cannot be opened is why. -/
theorem executes_run (c : Config) (asJson : Bool) (hf : load s file = .ok f)
    (hi : assignments o.inputs = .ok inputs) (hd : assignments o.fields = .ok fields)
    (ht : ∃ trace, Says fields "trace_id" trace) :
    (∀ store, storeOf s o = .ok store → Executes s c asJson file o store f inputs fields) ∧
      ∀ failure, storeOf s o = .error failure → run s c asJson file o = failure.response "" := by
  refine ⟨fun store hstore => ?_, fun failure h => run_of_storeOf_error c asJson hf hi hd h⟩
  obtain ⟨trace, ht⟩ := ht
  cases trace with
  | none => exact executes_fresh c asJson hf hi hd hstore ht
  | some id => exact executes_given c asJson hf hi hd hstore ht

def sayer : Node where
  inputs := []
  outputs := [⟨"o", .string, false, none⟩]
  errorPort := none
  transform := .declarative "constant" (.obj [("value", .str "hi")])
  policy := {}
  state := none

def sayFlow : Flow where
  version := "1.0"
  metadata := []
  requires := []
  nodes := [("say", sayer)]
  links := [⟨⟨.node "say", "o"⟩, ⟨.output, "o"⟩, none, none, .identity⟩]
  deployment := none

def sayText : String :=
  "\x7b\"version\":\"1.0\",\"nodes\":\x7b\"say\":\x7b\"output_ports\":[\x7b\"name\":\"o\"," ++
    "\"type\":\"string\"\x7d],\"transform\":\x7b\"kind\":\"declarative\",\"op_name\":\"constant\"," ++
    "\"args\":\x7b\"value\":\"hi\"\x7d\x7d\x7d\x7d,\"edges\":[\x7b\"from\":\"say.o\",\"to\":\"_output.o\"" ++
    "\x7d]\x7d"

/-- Nothing but one file. No database can be opened. -/
def desk : Surroundings where
  file? name := if name = "flow.json" then some sayText else none
  database _ := .error ["unable to open database file"]
  traceId := "fresh"
  eventTime := "2024-01-01T00:00:00+00:00"
  naming := ⟨"run", fun _ => "now"⟩

set_option maxRecDepth 20000 in
theorem ofText_say : Flow.ofText .json sayText = .ok sayFlow := by
  have hd : Document.ofText? .json sayText = some sayFlow.toDocument := by
    unfold Document.ofText? Format.tree? Tree.ofJsonText? sayText
    rewrite [String.toList_append, String.toList_append, String.toList_append]
    cbv
  rw [Flow.ofText, hd]
  with_unfolding_all rfl

theorem load_say : load desk "flow.json" = .ok sayFlow := by
  have hformat : Format.ofFileName "flow.json" = .json := by cbv
  exact load_of_ofText rfl (hformat ▸ ofText_say)

/-- The file does nothing with its context. -/
theorem overlooks_say : (engine desk {}).Overlooks sayFlow where
  passes l hl _ _ _ _ := by
    cases List.mem_singleton.mp hl
    rfl
  transformed l hl _ _ _ _ := by
    cases List.mem_singleton.mp hl
    rfl
  key id n config hn hs := by
    cases List.mem_singleton.mp hn
    cases hs
  work id n capability hn hr _ _ _ := by
    cases List.mem_singleton.mp hn
    cases hr
    rfl

/-- A run with or without a trace id of its own. -/
def sayOptions (trace : List String) : RunOptions where
  fields := trace ++ ["user_id=ada"]

theorem executes_say : ∃ report,
    Executes desk {} true "flow.json" (sayOptions ["trace_id=t1"]) (.memory []) sayFlow []
      [("trace_id", .str "t1"), ("user_id", .str "ada")] ∧
    Executes desk {} true "flow.json" (sayOptions []) (.memory []) sayFlow [] [("user_id", .str "ada")] ∧
    ((engine desk {}).execute sayFlow ⟨[], [("user_id", .str "ada")], none⟩ (scheduleOf (.memory []))).1 =
      .ok report ∧
    report.status = .succeeded ∧
    (run desk {} true "flow.json" (sayOptions [])).output = json (reportJson desk.naming report) ∧
    run desk {} true "flow.json" { sayOptions [] with database := some "states.db" } =
      Failure.response ⟨"Failed to open state database states.db", ["unable to open database file"]⟩ "" := by
  have hgiven : assignments (sayOptions ["trace_id=t1"]).fields =
      .ok [("trace_id", .str "t1"), ("user_id", .str "ada")] := by cbv
  have hfresh : assignments (sayOptions []).fields = .ok [("user_id", .str "ada")] := by cbv
  have hinputs : assignments (sayOptions []).inputs = .ok [] := rfl
  have hsays : ∃ trace, Says [("user_id", .str "ada")] "trace_id" trace := ⟨none, .missing rfl⟩
  have hexecutes := (executes_run {} true load_say hinputs hfresh hsays).1 (.memory []) rfl
  refine ⟨_, (executes_run {} true load_say rfl hgiven ⟨some "t1", .text (by decide) rfl⟩).1 _ rfl, hexecutes,
    rfl, by decide +kernel, (hexecutes.exactly (.inr overlooks_say)).output _ rfl, ?_⟩
  exact (executes_run (o := { sayOptions [] with database := some "states.db" }) {} true load_say hinputs hfresh
    hsays).2 _ rfl

/-- A run of a command line is refused just when an engine refuses its inputs, its fields and its time
limit. -/
def StartsExactly : Prop :=
  ∀ (s : Surroundings) (c : Config) (asJson : Bool) (file : String) (o : RunOptions) (store : Store) (f : Flow)
    (inputs fields : Assoc Json), load s file = .ok f → assignments o.inputs = .ok inputs →
    assignments o.fields = .ok fields → storeOf s o = .ok store → ((run s c asJson file o).CouldNotStart ↔
      ∃ err, ((engine s c).execute f ⟨inputs, fields, o.deadlineMs⟩ (scheduleOf store)).1 = .error err)

/-- An engine refuses a trace id that is a number. A command line replaces it. -/
theorem not_startsExactly : ¬ StartsExactly := by
  intro h
  let o : RunOptions := { fields := ["trace_id=42"] }
  have hinputs : assignments o.inputs = .ok [] := rfl
  have hfields : assignments o.fields = .ok [("trace_id", .int 42)] := by cbv
  have hstore : storeOf desk o = .ok (.memory []) := rfl
  have hrefused : ∃ err, ((engine desk {}).execute sayFlow ⟨[], [("trace_id", .int 42)], none⟩
      (scheduleOf (.memory []))).1 = .error err := ⟨_, rfl⟩
  obtain ⟨err, herr⟩ := (tells_run {} true load_say hinputs hfields hstore).couldNotStart.mp
    ((h desk {} true "flow.json" o _ sayFlow [] _ load_say hinputs hfields hstore).mpr hrefused)
  cases herr

end Command

end Workflow
