import Mathlib
import Workflow.Flow.Load
import Workflow.Proofs.Document.Written
import Workflow.Proofs.Flow.Validation
import Workflow.Proofs.Port.Ref

namespace Workflow

theorem LinkSpec.Denotes.spec_eq {nodes : List (String × Node)} {spec : LinkSpec} {l : Link}
    (h : spec.Denotes nodes l) : l.spec = spec := by
  obtain ⟨source, target, condition, transform⟩ := spec
  rw [Link.spec, PortRef.render_of_parse? h.source, PortRef.render_of_parse? h.target, h.condition,
    h.transform]

theorem Document.Denotes.toDocument_eq {d : Document} {f : Flow} (h : d.Denotes f) :
    f.toDocument = d := by
  have hlinks : f.links.map Link.spec = d.links := by
    have hspec := h.links.imp fun _ _ => LinkSpec.Denotes.spec_eq
    rw [← List.forall₂_eq_eq_eq, List.forall₂_map_left_iff]
    exact hspec.flip
  obtain ⟨version, metadata, requires, nodes, links, deployment⟩ := d
  rw [Flow.toDocument, h.version, h.metadata, h.requires, h.nodes, h.deployment, hlinks]

theorem Json.isNull_eq_false {v : Json} (h : v ≠ .null) : v.isNull = false := by
  cases v with
  | null => exact absurd rfl h
  | bool | int | float | str | arr | obj => rfl

theorem Json.filter_isNull_eq {o : Option Json} (h : ∀ v ∈ o, v.isNull = false) :
    o.filter (fun v => !v.isNull) = o := by
  cases o with
  | none => rfl
  | some v => rw [Option.filter_some, h v rfl, Bool.not_false, if_pos rfl]

theorem IsSchema.isNull_eq {v : Json} (h : IsSchema v) : v.isNull = false := by
  obtain ⟨s, hs⟩ := h
  refine Json.isNull_eq_false fun hv => ?_
  subst hv
  cases hs

theorem Node.Sound.schemed {requires : List String} {n : Node} (h : n.Sound requires) : n.Schemed where
  ports p hp := Json.filter_isNull_eq fun v hv => (h.schemas p hp v hv).isNull_eq
  answer p hp := Json.filter_isNull_eq fun v hv => (h.answer p hp v hv).isNull_eq

namespace Flow

/-- Nothing in a flow depends on its deployment. -/
theorem validate_deployment {d : Document} {f : Flow} (h : validate d = .ok f) (v : Option Json) :
    validate { d with deployment := v } = .ok { f with deployment := v } := by
  have hi := issues_eq_nil_of_validate h
  rw [validate_of_issues_eq_nil hi] at h
  cases h
  exact validate_of_issues_eq_nil (d := { d with deployment := v }) hi

/-- The document of a flow that was compiled from a text is accepted again, as the same flow. So is its
JSON text, where reading that text gives back the tree that was written, unless the deployment is null: that
comes back as none, and all the rest as it was. -/
theorem recompile_of_ofText {fmt : Format} {text : String} {f : Flow} (h : ofText fmt text = .ok f) :
    validate f.toDocument = .ok f ∧
      (Tree.ofJsonText? f.toDocument.toText = some f.toDocument.toTree →
        (f.deployment ≠ some .null → ofText .json f.toDocument.toText = .ok f) ∧
        (f.deployment = some .null → ofText .json f.toDocument.toText = .ok { f with deployment := none })) := by
  unfold ofText at h
  split at h
  · next d hd =>
    have hdoc : f.toDocument = d := (denotes_of_validate h).toDocument_eq
    have hw : d.WellFormed := ((validate_eq_ok_iff d).1.mp ⟨f, h⟩)
    obtain ⟨t, -, hread⟩ := Option.bind_eq_some_iff.mp hd
    rw [hdoc]
    refine ⟨h, fun hcodec => ?_⟩
    have hback := Document.read?_toTree hread fun e he => (hw.nodes e he).schemed
    have hdep : d.deployment = f.deployment := (denotes_of_validate h).deployment.symm
    have hjson : ofText .json d.toText =
        .ok { f with deployment := f.deployment.filter (fun v => !v.isNull) } := by
      have htext : Document.ofText? .json d.toText =
          some { d with deployment := f.deployment.filter (fun v => !v.isNull) } := by
        rw [Document.ofText?, Format.tree?, hcodec, Option.bind_some, hback, hdep]
      rw [ofText, htext]
      exact validate_deployment h _
    refine ⟨fun hn => ?_, fun hn => ?_⟩
    · have hkept := Json.filter_isNull_eq fun v hv => Json.isNull_eq_false fun hv' => hn (hv' ▸ hv)
      rw [hjson, hkept]
    · rw [hjson, hn]
      rfl
  · cases h

def ask : Node where
  inputs := [⟨"who", .string, false, none⟩]
  outputs := []
  errorPort := none
  transform := .prompt ⟨"Hi", none, "m", none, .raise⟩
  policy := {}
  state := none

def askFlow : Flow where
  version := "1"
  metadata := []
  requires := []
  nodes := [("ask", ask)]
  links := [⟨⟨.input, "who"⟩, ⟨.node "ask", "who"⟩, none, none, .identity⟩]
  deployment := none

/-- A document that leaves out what may be left out. -/
def askText : String :=
  "\x7b\"version\":\"1\",\"nodes\":\x7b\"ask\":\x7b\"input_ports\":[\x7b\"name\":\"who\"," ++
    "\"type\":\"string\"\x7d],\"transform\":\x7b\"kind\":\"prompt\",\"template\":\"Hi\"," ++
    "\"model_ref\":\"m\"\x7d\x7d\x7d,\"edges\":[\x7b\"from\":\"_input.who\",\"to\":\"ask.who\"\x7d]\x7d"

/-- What its flow is written as, where nothing is left out that has a default. -/
def askWritten : String :=
  "\x7b\"version\":\"1\",\"context\":\x7b\"requires\":[]\x7d,\"nodes\":\x7b\"ask\":\x7b\"input_ports\":[" ++
    "\x7b\"name\":\"who\",\"optional\":false,\"type\":\"string\"\x7d],\"output_ports\":[]," ++
    "\"runtime_policy\":\x7b\"retries\":1,\"retry_backoff_ms\":1000,\"timeout_ms\":30000\x7d," ++
    "\"transform\":\x7b\"fallback\":\x7b\"policy\":\"raise\"\x7d,\"kind\":\"prompt\",\"model_ref\":\"m\"," ++
    "\"template\":\"Hi\"\x7d\x7d\x7d,\"edges\":[\x7b\"from\":\"_input.who\",\"to\":\"ask.who\"\x7d]\x7d"

set_option maxRecDepth 20000 in
theorem ofText_ask : ofText .json askText = .ok askFlow := by
  have hd : Document.ofText? .json askText = some askFlow.toDocument := by
    unfold Document.ofText? Format.tree? Tree.ofJsonText? askText
    rewrite [String.toList_append, String.toList_append]
    cbv
  rw [ofText, hd]
  with_unfolding_all rfl

set_option maxRecDepth 20000 in
theorem toText_ask : askFlow.toDocument.toText = askWritten := by cbv

set_option maxRecDepth 20000 in
theorem ofJsonText?_ask : Tree.ofJsonText? askWritten = some askFlow.toDocument.toTree := by
  unfold Tree.ofJsonText? askWritten
  rewrite [String.toList_append, String.toList_append, String.toList_append, String.toList_append]
  cbv

theorem recompile_ask : ofText .json askText = .ok askFlow ∧ validate askFlow.toDocument = .ok askFlow ∧
    Tree.ofJsonText? askFlow.toDocument.toText = some askFlow.toDocument.toTree ∧
    ofText .json askWritten = .ok askFlow := by
  obtain ⟨hv, hw⟩ := recompile_of_ofText ofText_ask
  have hcodec : Tree.ofJsonText? askFlow.toDocument.toText = some askFlow.toDocument.toTree :=
    toText_ask ▸ ofJsonText?_ask
  refine ⟨ofText_ask, hv, hcodec, ?_⟩
  rw [← toText_ask]
  exact (hw hcodec).1 nofun

/-- The flow that a text is compiled to is always compiled again from its own document, and from the JSON text
of that, where reading that text gives back the tree that was written. -/
def Recompiles : Prop :=
  ∀ (fmt : Format) (text : String) (f : Flow), ofText fmt text = .ok f →
    validate f.toDocument = .ok f ∧
      (Tree.ofJsonText? f.toDocument.toText = some f.toDocument.toTree →
        ofText .json f.toDocument.toText = .ok f)

/-- A deployment and nothing else. -/
def deployed (deployment : Option Json) : Flow where
  version := "1"
  metadata := []
  requires := []
  nodes := []
  links := []
  deployment := deployment

/-- A text with a deployment that is not a number, and so is no JSON value. -/
def deployedText : String := "version: '1'\ndeployment: .nan\n"

def deployedTree : Tree :=
  .map none [(.scalar (.written "version" .bare none), .scalar (.written "1" .quoted none)),
    (.scalar (.written "deployment" .bare none), .scalar (.written ".nan" .bare none))]

set_option maxRecDepth 10000 in
theorem ofYamlText?_deployed : Tree.ofYamlText? deployedText = some deployedTree := by
  have hnode : Yaml.nodeOf? deployedText = some
      (.map none [(.scalar "version" .bare none, .scalar "1" .quoted none),
        (.scalar "deployment" .bare none, .scalar ".nan" .bare none)], []) := by
    unfold Yaml.nodeOf? Yaml.tokensOf? deployedText
    cbv
  rw [Tree.ofYamlText?, hnode]
  with_unfolding_all rfl

theorem ofText_deployed : ofText .yaml deployedText = .ok (deployed (some .null)) := by
  have hd : Document.ofText? .yaml deployedText = some (deployed (some .null)).toDocument := by
    rw [Document.ofText?, Format.tree?, ofYamlText?_deployed]
    with_unfolding_all rfl
  rw [ofText, hd]
  with_unfolding_all rfl

theorem ofJsonText?_deployed : Tree.ofJsonText? (deployed (some .null)).toDocument.toText =
    some (deployed (some .null)).toDocument.toTree := by
  have htext : (deployed (some .null)).toDocument.toText =
      "\x7b\"version\":\"1\",\"context\":\x7b\"requires\":[]\x7d,\"nodes\":\x7b\x7d,\"edges\":[]," ++
        "\"deployment\":null\x7d" := by cbv
  unfold Tree.ofJsonText?
  rw [htext, String.toList_append]
  cbv

/-- The deployment is read as null. Written as null, it is read as none. -/
theorem not_recompiles : ¬ Recompiles := by
  intro h
  have hagain : ofText .json (deployed (some .null)).toDocument.toText = .ok (deployed none) := by
    rw [ofText, Document.ofText?, Format.tree?, ofJsonText?_deployed]
    with_unfolding_all rfl
  cases hagain.symm.trans ((h .yaml _ _ ofText_deployed).2 ofJsonText?_deployed)

end Flow

end Workflow
