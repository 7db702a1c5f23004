import Workflow.Proofs.Document.Members

namespace Workflow

open Workflow.Tree

namespace Port

theorem asRecord?_toJson (p : Port) :
    ∃ r, asRecord? .json ["name", "type", "optional", "validation_schema"] (ofJson p.toJson) = some r ∧
      r.get? "name" = some (ofJson (.str p.name)) ∧ r.get? "type" = some (ofJson (.str p.kind.name)) ∧
      r.get? "optional" = some (ofJson (.bool p.optional)) ∧
      r.get? "validation_schema" = p.schema.map ofJson := by
  obtain ⟨r, hr, hget⟩ := asRecord?_ofJson .json ["name", "type", "optional", "validation_schema"]
    (rfl : p.toJson = _) ((sublist_member? (.refl _)).nodup (by simp))
  exact ⟨r, hr, by simpa using hget⟩

theorem readsBack_schema {f : Format} {t : Tree} {p : Port} (h : Port.read? f t = some p) :
    ∀ v ∈ p.schema, v.ReadsBack := by
  simp only [Port.read?, Option.bind_eq_bind, Option.bind_eq_some_iff, Option.some.injEq] at h
  obtain ⟨r, -, name, -, kind, -, optional, -, schema, hschema, rfl⟩ := h
  rintro v rfl
  obtain ⟨t, ht⟩ := exists_of_optional? hschema
  exact readsBack_of_toJson? ht

/-- A port that was read comes back, unless its schema is null. -/
theorem read?_toJson {f : Format} {t : Tree} {p : Port} (h : Port.read? f t = some p)
    (hs : p.schema.filter (fun v => !v.isNull) = p.schema) :
    Port.read? .json (ofJson p.toJson) = some p := by
  obtain ⟨r, hr, hname, hkind, hoptional, hschema⟩ := p.asRecord?_toJson
  have hback := optional?_toJson?_of_get? hschema (readsBack_schema h)
  have hk : (asName? .json (ofJson (.str p.kind.name))).bind PortKind.ofName? = some p.kind :=
    PortKind.ofName?_name p.kind
  rw [Port.read?, hr, Option.bind_eq_bind, Option.bind_some, need_of_get? hname, need_of_get? hkind,
    hk, orElse_of_get? hoptional, hback, hs]
  rfl

end Port

namespace Fallback

theorem readsBack_static {t : Tree} {response : Json} (h : Fallback.read? t = some (.static response)) :
    response.ReadsBack := by
  simp only [Fallback.read?, Option.bind_eq_bind, Option.bind_eq_some_iff] at h
  obtain ⟨⟨choice, body⟩, -, name, -, h⟩ := h
  split at h
  · cases h
  · simp [Option.bind_eq_some_iff] at h
  · simp only [Option.bind_eq_some_iff, Option.some.injEq, Fallback.static.injEq] at h
    obtain ⟨r, -, v, hv, rfl⟩ := h
    obtain ⟨t, ht⟩ := exists_of_need hv
    exact readsBack_of_toJson? ht

/-- A fallback comes back when the response that it may hold does. -/
theorem read?_toJson {x : Fallback} (h : ∀ v, x = .static v → v.ReadsBack) :
    Fallback.read? (ofJson x.toJson) = some x := by
  cases x with
  | raise =>
    obtain ⟨body, hc, -⟩ := asChoice?_ofJson "policy" (.str "raise")
      (rfl : Fallback.raise.toJson = _) (by simp) rfl
    rw [Fallback.read?, hc]
    rfl
  | model ref =>
    obtain ⟨body, hc, hbody⟩ := asChoice?_ofJson "policy" (.str "model")
      (rfl : (Fallback.model ref).toJson = _) (by simp) rfl
    obtain ⟨r, hr, hget⟩ := hbody ["model_ref"] (by simp)
    have href : r.get? "model_ref" = some (ofJson (.str ref)) := by simpa using hget
    rw [Fallback.read?, hc]
    change (asRecord? .json ["model_ref"] body).bind _ = _
    rw [hr, Option.bind_some, need_of_get? href]
    rfl
  | static v =>
    obtain ⟨body, hc, hbody⟩ := asChoice?_ofJson "policy" (.str "static")
      (rfl : (Fallback.static v).toJson = _) (by simp) rfl
    obtain ⟨r, hr, hget⟩ := hbody ["response"] (by simp)
    have hv : r.get? "response" = some (ofJson v) := by simpa using hget
    have hback : (ofJson v).toJson? = some v := h v rfl
    rw [Fallback.read?, hc]
    change (asRecord? .json ["response"] body).bind _ = _
    rw [hr, Option.bind_some, need_of_get? hv, hback]
    rfl

end Fallback

namespace Prompt

theorem asRecord?_body (p : Prompt) :
    ∃ body, asChoice? "kind" (ofJson (Transform.prompt p).toJson) = some (ofJson (.str "prompt"), body) ∧
      ∃ r, asRecord? .json ["template", "system", "model_ref", "output_schema", "fallback"] body = some r ∧
        r.get? "template" = some (ofJson (.str p.template)) ∧
        r.get? "system" = (p.system.map .str).map ofJson ∧
        r.get? "model_ref" = some (ofJson (.str p.model)) ∧
        r.get? "output_schema" = p.schema.map ofJson ∧
        r.get? "fallback" = some (ofJson p.fallback.toJson) := by
  obtain ⟨body, hc, hbody⟩ := asChoice?_ofJson "kind" (.str "prompt")
    (rfl : (Transform.prompt p).toJson = _)
    ((sublist_member? (sublist_member? (.refl _))).nodup (by simp)) rfl
  obtain ⟨r, hr, hget⟩ := hbody ["template", "system", "model_ref", "output_schema", "fallback"]
    (by simp)
  refine ⟨body, hc, r, hr, ?_⟩
  simpa using hget

theorem readsBack_of_read? {t : Tree} {p : Prompt} (h : Prompt.read? t = some p) :
    (∀ v ∈ p.schema, v.ReadsBack) ∧ ∀ v, p.fallback = .static v → v.ReadsBack := by
  simp only [Prompt.read?, Option.bind_eq_bind, Option.bind_eq_some_iff, Option.some.injEq] at h
  obtain ⟨r, -, template, -, system, -, model, -, schema, hschema, fallback, hfallback, rfl⟩ := h
  constructor
  · rintro v rfl
    obtain ⟨t, ht⟩ := exists_of_optional? hschema
    exact readsBack_of_toJson? ht
  · rintro v rfl
    obtain hraise | ⟨t, ht⟩ := exists_of_orElse hfallback
    · cases hraise
    · exact Fallback.readsBack_static ht

/-- A prompt that was read comes back from what stands beside the kind of its node, unless its answer
has to fit a null schema. -/
theorem read?_body {t : Tree} {p : Prompt} (h : Prompt.read? t = some p)
    (hs : p.schema.filter (fun v => !v.isNull) = p.schema) :
    ∃ body, asChoice? "kind" (ofJson (Transform.prompt p).toJson) = some (ofJson (.str "prompt"), body) ∧
      Prompt.read? body = some p := by
  obtain ⟨hschema, hfallback⟩ := readsBack_of_read? h
  obtain ⟨body, hc, r, hr, htemplate, hsystem, hmodel, hsch, hfall⟩ := p.asRecord?_body
  have hsys : optional? r "system" asText? = some p.system :=
    optional?_of_get? hsystem (fun _ => rfl) fun _ _ => rfl
  refine ⟨body, hc, ?_⟩
  rw [Prompt.read?, hr, Option.bind_eq_bind, Option.bind_some, need_of_get? htemplate, hsys,
    need_of_get? hmodel, optional?_toJson?_of_get? hsch hschema, hs, orElse_of_get? hfall,
    Fallback.read?_toJson hfallback]
  rfl

end Prompt

namespace Transform

theorem asRecord?_declarative (operation : String) (args : Json) :
    ∃ body, asChoice? "kind" (ofJson (declarative operation args).toJson) =
        some (ofJson (.str "declarative"), body) ∧
      ∃ r, asRecord? .json ["op_name", "args"] body = some r ∧
        r.get? "op_name" = some (ofJson (.str operation)) ∧ r.get? "args" = some (ofJson args) := by
  obtain ⟨body, hc, hbody⟩ := asChoice?_ofJson "kind" (.str "declarative")
    (rfl : (declarative operation args).toJson = _) (by simp) rfl
  obtain ⟨r, hr, hget⟩ := hbody ["op_name", "args"] (by simp)
  exact ⟨body, hc, r, hr, by simpa using hget⟩

theorem asRecord?_code (text : String) :
    ∃ body, asChoice? "kind" (ofJson (code text).toJson) = some (ofJson (.str "code"), body) ∧
      ∃ r, asRecord? .json ["body"] body = some r ∧ r.get? "body" = some (ofJson (.str text)) := by
  obtain ⟨body, hc, hbody⟩ := asChoice?_ofJson "kind" (.str "code")
    (rfl : (code text).toJson = _) (by simp) rfl
  obtain ⟨r, hr, hget⟩ := hbody ["body"] (by simp)
  exact ⟨body, hc, r, hr, by simpa using hget⟩

/-- What a node does comes back, unless an answer has to fit a null schema. -/
theorem read?_toJson {t : Tree} {x : Transform} (h : Transform.read? t = some x)
    (hs : ∀ p, x = .prompt p → p.schema.filter (fun v => !v.isNull) = p.schema) :
    Transform.read? (ofJson x.toJson) = some x := by
  simp only [Transform.read?, Option.bind_eq_bind, Option.bind_eq_some_iff] at h
  obtain ⟨t, -, ⟨choice, given⟩, -, kind, -, h⟩ := h
  rw [Transform.read?, resolve?_ofJson, Option.bind_eq_bind, Option.bind_some]
  split at h
  · simp only [Option.bind_eq_some_iff, Option.some.injEq] at h
    obtain ⟨r, -, operation, -, args, hargs, rfl⟩ := h
    have hback : (ofJson args).toJson? = some args := by
      obtain rfl | ⟨t, ht⟩ := exists_of_orElse hargs
      · rfl
      · exact readsBack_of_toJson? ht
    obtain ⟨body, hc, r, hr, hname, hargs⟩ := asRecord?_declarative operation args
    rw [hc]
    change (asRecord? .json ["op_name", "args"] body).bind _ = _
    rw [hr, Option.bind_some, need_of_get? hname, orElse_of_get? hargs, hback]
    rfl
  · simp only [Option.bind_eq_some_iff, Option.some.injEq] at h
    obtain ⟨r, -, text, -, rfl⟩ := h
    obtain ⟨body, hc, r, hr, htext⟩ := asRecord?_code text
    rw [hc]
    change (asRecord? .json ["body"] body).bind _ = _
    rw [hr, Option.bind_some, need_of_get? htext]
    rfl
  · obtain ⟨p, hp, rfl⟩ := Option.map_eq_some_iff.mp h
    obtain ⟨body, hc, hbody⟩ := Prompt.read?_body hp (hs p rfl)
    rw [hc]
    change (Prompt.read? body).map Transform.prompt = _
    rw [hbody, Option.map_some]
  · cases h

end Transform

/-- Attempts, times and numbers of executions have as many bits as documents can hold, and the needed
fields are a set. -/
structure RuntimePolicy.Bounded (p : RuntimePolicy) : Prop where
  timeout : p.timeoutMs < Number.word64
  retries : p.retries < Number.word32
  backoff : p.backoffMs < Number.word64
  concurrency : ∀ n ∈ p.maxConcurrency, n < Number.word32
  required : asTextSet? (ofJson (.strings p.requiredFields)) = some p.requiredFields

namespace RuntimePolicy

theorem bounded_default : ({} : RuntimePolicy).Bounded where
  timeout := by decide
  retries := by decide
  backoff := by decide
  concurrency := fun _ h => nomatch h
  required := rfl

theorem bounded_of_read? {f : Format} {t : Tree} {p : RuntimePolicy}
    (h : RuntimePolicy.read? f t = some p) : p.Bounded := by
  simp only [RuntimePolicy.read?, Option.bind_eq_bind, Option.bind_eq_some_iff,
    Option.some.injEq] at h
  obtain ⟨r, -, timeout, htimeout, retries, hretries, backoff, hbackoff, limit, hlimit, required,
    hrequired, rfl⟩ := h
  constructor
  · obtain rfl | ⟨t, ht⟩ := exists_of_orElse htimeout
    · exact bounded_default.timeout
    · exact lt_of_asNat? ht
  · obtain rfl | ⟨t, ht⟩ := exists_of_orElse hretries
    · exact bounded_default.retries
    · exact lt_of_asNat? ht
  · obtain rfl | ⟨t, ht⟩ := exists_of_orElse hbackoff
    · exact bounded_default.backoff
    · exact lt_of_asNat? ht
  · rintro n rfl
    obtain ⟨t, ht⟩ := exists_of_optional? hlimit
    exact lt_of_asNat? ht
  · obtain rfl | ⟨t, ht⟩ := exists_of_orElse hrequired
    · exact bounded_default.required
    · exact asTextSet?_strings ht

theorem asRecord?_toJson (p : RuntimePolicy) :
    ∃ r, asRecord? .json ["timeout_ms", "retries", "retry_backoff_ms", "max_concurrency",
        "required_context_fields"] (ofJson p.toJson) = some r ∧
      r.get? "timeout_ms" = some (ofJson (.ofNat p.timeoutMs)) ∧
      r.get? "retries" = some (ofJson (.ofNat p.retries)) ∧
      r.get? "retry_backoff_ms" = some (ofJson (.ofNat p.backoffMs)) ∧
      r.get? "max_concurrency" = (p.maxConcurrency.map .ofNat).map ofJson ∧
      r.get? "required_context_fields" =
        if p.requiredFields.isEmpty then none else some (ofJson (.strings p.requiredFields)) := by
  obtain ⟨r, hr, hget⟩ := asRecord?_ofJson .json ["timeout_ms", "retries", "retry_backoff_ms",
      "max_concurrency", "required_context_fields"] (rfl : p.toJson = _)
    ((sublist_member? (sublist_member? (.refl _))).nodup (by simp))
  refine ⟨r, hr, ?_⟩
  simpa [apply_ite (Option.map ofJson)] using hget

theorem read?_toJson {p : RuntimePolicy} (h : p.Bounded) :
    RuntimePolicy.read? .json (ofJson p.toJson) = some p := by
  obtain ⟨r, hr, htimeout, hretries, hbackoff, hlimit, hrequired⟩ := p.asRecord?_toJson
  have hlim : optional? r "max_concurrency" (asNat? Number.word32) = some p.maxConcurrency :=
    optional?_of_get? hlimit (fun _ => rfl) fun n hn => asNat?_ofNat (h.concurrency n hn)
  have hreq : orElse r "required_context_fields" [] asTextSet? = some p.requiredFields := by
    split at hrequired
    · next hempty => rw [orElse_of_get?_eq_none hrequired, List.isEmpty_iff.mp hempty]
    · rw [orElse_of_get? hrequired, h.required]
  rw [RuntimePolicy.read?, hr, Option.bind_eq_bind, Option.bind_some, orElse_of_get? htimeout,
    asNat?_ofNat h.timeout, orElse_of_get? hretries, asNat?_ofNat h.retries, orElse_of_get? hbackoff,
    asNat?_ofNat h.backoff, hlim, hreq]
  rfl

end RuntimePolicy

namespace StateConfig

theorem asRecord?_toJson (s : StateConfig) :
    ∃ r, asRecord? .json ["scope", "key_template", "ttl_secs", "backend_ref"] (ofJson s.toJson) = some r ∧
      r.get? "scope" = some (ofJson (.str s.scope.name)) ∧
      r.get? "key_template" = some (ofJson (.str s.keyTemplate)) ∧
      r.get? "ttl_secs" = (s.ttlSecs.map .ofNat).map ofJson ∧
      r.get? "backend_ref" = (s.backend.map .str).map ofJson := by
  obtain ⟨r, hr, hget⟩ := asRecord?_ofJson .json ["scope", "key_template", "ttl_secs", "backend_ref"]
    (rfl : s.toJson = _) ((sublist_member? (sublist_member? (.refl _))).nodup (by simp))
  exact ⟨r, hr, by simpa using hget⟩

theorem ttl_lt_of_read? {f : Format} {t : Tree} {s : StateConfig} (h : StateConfig.read? f t = some s) :
    ∀ n ∈ s.ttlSecs, n < Number.word64 := by
  simp only [StateConfig.read?, Option.bind_eq_bind, Option.bind_eq_some_iff, Option.some.injEq] at h
  obtain ⟨r, -, scope, -, template, -, ttl, httl, backend, -, rfl⟩ := h
  rintro n rfl
  obtain ⟨t, ht⟩ := exists_of_optional? httl
  exact lt_of_asNat? ht

theorem read?_toJson {f : Format} {t : Tree} {s : StateConfig} (h : StateConfig.read? f t = some s) :
    StateConfig.read? .json (ofJson s.toJson) = some s := by
  obtain ⟨r, hr, hscope, htemplate, httl, hbackend⟩ := s.asRecord?_toJson
  have hsc : (asName? .json (ofJson (.str s.scope.name))).bind StateScope.ofName? = some s.scope := by
    cases s.scope <;> rfl
  have ht : optional? r "ttl_secs" (asNat? Number.word64) = some s.ttlSecs :=
    optional?_of_get? httl (fun _ => rfl) fun n hn => asNat?_ofNat (ttl_lt_of_read? h n hn)
  have hb : optional? r "backend_ref" asText? = some s.backend :=
    optional?_of_get? hbackend (fun _ => rfl) fun _ _ => rfl
  rw [StateConfig.read?, hr, Option.bind_eq_bind, Option.bind_some, need_of_get? hscope, hsc,
    orElse_of_get? htemplate, ht, hb]
  rfl

end StateConfig

/-- No schema of a node is null. -/
structure Node.Schemed (n : Node) : Prop where
  ports : ∀ p ∈ n.ports, p.schema.filter (fun v => !v.isNull) = p.schema
  answer : ∀ p, n.transform = .prompt p → p.schema.filter (fun v => !v.isNull) = p.schema

namespace Node

theorem asRecord?_toJson (n : Node) :
    ∃ r, asRecord? .json ["input_ports", "output_ports", "error_port", "transform", "runtime_policy",
        "state_config"] (ofJson n.toJson) = some r ∧
      r.get? "input_ports" = some (ofJson (.arr (n.inputs.map Port.toJson))) ∧
      r.get? "output_ports" = some (ofJson (.arr (n.outputs.map Port.toJson))) ∧
      r.get? "error_port" = (n.errorPort.map Port.toJson).map ofJson ∧
      r.get? "transform" = some (ofJson n.transform.toJson) ∧
      r.get? "runtime_policy" = some (ofJson n.policy.toJson) ∧
      r.get? "state_config" = (n.state.map StateConfig.toJson).map ofJson := by
  obtain ⟨r, hr, hget⟩ := asRecord?_ofJson .json ["input_ports", "output_ports", "error_port",
      "transform", "runtime_policy", "state_config"] (rfl : n.toJson = _)
    ((sublist_member? (sublist_member? (.refl _))).nodup (by simp))
  exact ⟨r, hr, by simpa using hget⟩

theorem ports_read?_toJson {f : Format} {r : Assoc Tree} {name : String} {ports : List Port}
    (h : orElse r name [] (eachOf (Port.read? f)) = some ports)
    (hs : ∀ p ∈ ports, p.schema.filter (fun v => !v.isNull) = p.schema) :
    eachOf (Port.read? .json) (ofJson (.arr (ports.map Port.toJson))) = some ports := by
  refine eachOf_ofJson fun p hp => ?_
  obtain ⟨t, ht⟩ := exists_of_orElse_eachOf h p hp
  exact Port.read?_toJson ht (hs p hp)

/-- A node that was read comes back, unless it has a null schema. -/
theorem read?_toJson {f : Format} {t : Tree} {n : Node} (h : Node.read? f t = some n)
    (hs : n.Schemed) : Node.read? .json (ofJson n.toJson) = some n := by
  simp only [Node.read?, Option.bind_eq_bind, Option.bind_eq_some_iff, Option.some.injEq] at h
  obtain ⟨s, -, inputs, hinputs, outputs, houtputs, error, herror, transform, htransform, policy,
    hpolicy, state, hstate, rfl⟩ := h
  obtain ⟨r, hr, hin, hout, herr, htr, hpol, hst⟩ := Node.asRecord?_toJson
    ⟨inputs, outputs, error, transform, policy, state⟩
  have hinb := ports_read?_toJson hinputs fun p hp => hs.ports p (List.mem_append_left _ hp)
  have houtb := ports_read?_toJson houtputs fun p hp =>
    hs.ports p (List.mem_append_right _ (List.mem_append_left _ hp))
  have herrb : optional? r "error_port" (Port.read? .json) = some error :=
    optional?_of_get? herr (fun _ => rfl) fun p hp => by
      subst hp
      obtain ⟨t, ht⟩ := exists_of_optional? herror
      exact Port.read?_toJson ht (hs.ports p (List.mem_append_right _ (List.mem_append_right _
        (List.mem_singleton_self p))))
  have htrb : Transform.read? (ofJson transform.toJson) = some transform := by
    obtain ⟨t, ht⟩ := exists_of_need htransform
    exact Transform.read?_toJson ht hs.answer
  have hpolb : RuntimePolicy.read? .json (ofJson policy.toJson) = some policy := by
    obtain rfl | ⟨t, ht⟩ := exists_of_orElse hpolicy
    · exact RuntimePolicy.read?_toJson RuntimePolicy.bounded_default
    · exact RuntimePolicy.read?_toJson (RuntimePolicy.bounded_of_read? ht)
  have hstb : optional? r "state_config" (StateConfig.read? .json) = some state :=
    optional?_of_get? hst (fun _ => rfl) fun s hs => by
      subst hs
      obtain ⟨t, ht⟩ := exists_of_optional? hstate
      exact StateConfig.read?_toJson ht
  rw [Node.read?, hr, Option.bind_eq_bind, Option.bind_some, orElse_of_get? hin, hinb,
    orElse_of_get? hout, houtb, herrb, need_of_get? htr, htrb, orElse_of_get? hpol, hpolb, hstb]
  rfl

end Node

theorem LinkSpec.read?_toJson (l : LinkSpec) : LinkSpec.read? .json (ofJson l.toJson) = some l := by
  obtain ⟨r, hr, hget⟩ := asRecord?_ofJson .json ["from", "to", "condition", "inline_transform"]
    (rfl : l.toJson = _) ((sublist_member? (sublist_member? (.refl _))).nodup (by simp))
  obtain ⟨hfrom, hto, hcondition, htransform⟩ : r.get? "from" = some (ofJson (.str l.source)) ∧
      r.get? "to" = some (ofJson (.str l.target)) ∧
      r.get? "condition" = (l.condition.map .str).map ofJson ∧
      r.get? "inline_transform" = (l.transform.map .str).map ofJson := by
    simpa using hget
  have hc : optional? r "condition" asText? = some l.condition :=
    optional?_of_get? hcondition (fun _ => rfl) fun _ _ => rfl
  have ht : optional? r "inline_transform" asText? = some l.transform :=
    optional?_of_get? htransform (fun _ => rfl) fun _ _ => rfl
  rw [LinkSpec.read?, hr, Option.bind_eq_bind, Option.bind_some, need_of_get? hfrom,
    need_of_get? hto, hc, ht]
  rfl

namespace Document

/-- The entries of the tree of a document. -/
def members (d : Document) : List (String × Tree) :=
  [("version", ofJson (.str d.version))]
  ++ (if d.metadata.isEmpty then [] else [("metadata", ofJson (.obj d.metadata))])
  ++ [("context", ofJson (.obj [("requires", .strings d.requires)])),
    ("nodes", .map none (d.nodes.map (fun e => entry e.1 (ofJson e.2.toJson)))),
    ("edges", ofJson (.arr (d.links.map LinkSpec.toJson)))]
  ++ (d.deployment.map (fun v => ("deployment", ofJson v))).toList

theorem toTree_eq (d : Document) : d.toTree = .map none (d.members.map named) := by
  have hlinks : ofJson (.arr (d.links.map LinkSpec.toJson)) =
      .list none (d.links.map (fun l => ofJson l.toJson)) := by
    rw [ofJson, ofItems_eq_map, List.map_map]
    rfl
  unfold toTree members
  rw [hlinks]
  cases d.deployment <;> cases d.metadata <;> rfl

theorem asRecord?_toTree (d : Document) :
    ∃ r, asRecord? .json ["version", "metadata", "context", "nodes", "edges", "deployment"] d.toTree =
        some r ∧
      r.get? "version" = some (ofJson (.str d.version)) ∧
      r.get? "metadata" = (if d.metadata.isEmpty then none else some (ofJson (.obj d.metadata))) ∧
      r.get? "context" = some (ofJson (.obj [("requires", .strings d.requires)])) ∧
      r.get? "nodes" = some (.map none (d.nodes.map (fun e => entry e.1 (ofJson e.2.toJson)))) ∧
      r.get? "edges" = some (ofJson (.arr (d.links.map LinkSpec.toJson))) ∧
      r.get? "deployment" = d.deployment.map ofJson := by
  have hnames : (d.members.map Prod.fst).Nodup := by
    unfold members
    cases d.deployment <;> cases d.metadata <;> simp
  obtain ⟨r, hr, hget⟩ := asRecord?_named .json
    ["version", "metadata", "context", "nodes", "edges", "deployment"] hnames
  refine ⟨r, d.toTree_eq ▸ hr, ?_⟩
  obtain ⟨version, metadata, requires, nodes, links, deployment⟩ := d
  cases deployment <;> cases metadata <;> simpa [members] using hget

theorem readRequires?_toJson {f : Format} {r : Assoc Tree} {names : List String}
    (h : orElse r "context" [] (readRequires? f) = some names) :
    readRequires? .json (ofJson (.obj [("requires", .strings names)])) = some names := by
  have hset : asTextSet? (ofJson (.strings names)) = some names := by
    obtain rfl | ⟨t, ht⟩ := exists_of_orElse h
    · rfl
    · obtain ⟨s, -, hs⟩ := Option.bind_eq_some_iff.mp ht
      obtain rfl | ⟨t, ht⟩ := exists_of_orElse hs
      · rfl
      · exact asTextSet?_strings ht
  exact hset

theorem readMetadata?_obj {t : Tree} {fields : Assoc Json} (h : readMetadata? t = some fields) :
    readMetadata? (ofJson (.obj fields)) = some fields := by
  simp only [readMetadata?, Option.bind_eq_bind, Option.bind_eq_some_iff, Option.some.injEq] at h
  obtain ⟨entries, -, found, hfound, rfl⟩ := h
  have hback : entriesToJson? (ofFields (Assoc.ofList found)) = some (Assoc.ofList found) :=
    entriesToJson?_ofFields fun e he =>
      readsBack_of_entriesToJson? hfound e (Assoc.mem_of_mem_ofList he)
  rw [readMetadata?]
  change (entriesToJson? (ofFields (Assoc.ofList found))).bind _ = _
  rw [hback, Option.bind_some, (Assoc.Sorted.ofList found).ofList_eq]

theorem exists_of_readNodes? {f : Format} {r : Assoc Tree} {nodes : List (String × Node)}
    (h : orElse r "nodes" [] (readNodes? f) = some nodes) :
    ∀ e ∈ nodes, ∃ t, Node.read? f t = some e.2 := by
  intro e he
  obtain rfl | ⟨t, ht⟩ := exists_of_orElse h
  · exact absurd he List.not_mem_nil
  · obtain ⟨entries, -, hm⟩ := Option.bind_eq_some_iff.mp ht
    obtain ⟨k, hk⟩ := exists_of_mapM hm e he
    simp only [Option.bind_eq_bind, Option.bind_eq_some_iff, Option.some.injEq] at hk
    obtain ⟨id, -, n, hn, rfl⟩ := hk
    exact ⟨_, hn⟩

theorem readNodes?_entries {nodes : List (String × Node)}
    (h : ∀ e ∈ nodes, Node.read? .json (ofJson e.2.toJson) = some e.2) :
    readNodes? .json (.map none (nodes.map (fun e => entry e.1 (ofJson e.2.toJson)))) = some nodes := by
  change (nodes.map _).mapM _ = _
  refine mapM_eq_some_of_forall fun e he => ?_
  change (Node.read? .json (ofJson e.2.toJson)).bind _ = _
  rw [h e he]
  rfl

/-- A document that was read comes back from the tree it is written as, but a null deployment as
none. -/
theorem read?_toTree {f : Format} {t : Tree} {d : Document} (h : Document.read? f t = some d)
    (hs : ∀ e ∈ d.nodes, e.2.Schemed) :
    Document.read? .json d.toTree =
      some { d with deployment := d.deployment.filter (fun v => !v.isNull) } := by
  simp only [Document.read?, Option.bind_eq_bind, Option.bind_eq_some_iff, Option.some.injEq] at h
  obtain ⟨s, -, version, -, metadata, hmetadata, requires, hrequires, nodes, hnodes, links, hlinks,
    deployment, hdeployment, rfl⟩ := h
  obtain ⟨r, hr, hver, hmeta, hreq, hnod, hlin, hdep⟩ := asRecord?_toTree
    ⟨version, metadata, requires, nodes, links, deployment⟩
  have hmetab : orElse r "metadata" [] readMetadata? = some metadata := by
    obtain rfl | ⟨t, ht⟩ := exists_of_orElse hmetadata
    · exact orElse_of_get?_eq_none hmeta
    · split at hmeta
      · next hempty =>
        have hnil : metadata = [] := List.isEmpty_iff.mp hempty
        rw [orElse_of_get?_eq_none hmeta, hnil]
      · rw [orElse_of_get? hmeta, readMetadata?_obj ht]
  have hnodb : readNodes? .json (.map none (nodes.map (fun e => entry e.1 (ofJson e.2.toJson)))) =
      some nodes := readNodes?_entries fun e he => by
    obtain ⟨t, ht⟩ := exists_of_readNodes? hnodes e he
    exact Node.read?_toJson ht (hs e he)
  have hlinb : eachOf (LinkSpec.read? .json) (ofJson (.arr (links.map LinkSpec.toJson))) = some links :=
    eachOf_ofJson fun l _ => l.read?_toJson
  have hdepb := optional?_toJson?_of_get? hdep fun v hv => by
    subst hv
    obtain ⟨t, ht⟩ := exists_of_optional? hdeployment
    exact readsBack_of_toJson? ht
  rw [Document.read?, hr, Option.bind_eq_bind, Option.bind_some, need_of_get? hver, hmetab,
    orElse_of_get? hreq, readRequires?_toJson hrequires, orElse_of_get? hnod, hnodb,
    orElse_of_get? hlin, hlinb, hdepb]
  rfl

end Document

end Workflow
