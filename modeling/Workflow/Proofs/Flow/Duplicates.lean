import Mathlib.Order.Bounds.Basic
import Workflow.Proofs.Flow.Links
import Workflow.Proofs.Port.Ref

namespace Workflow

variable {i j place : Nat} {id : String} {n : Node} {nodes : List (String × Node)} {d : Document}

/-- Two written links that say the same: their ends are read as the same ports, and they have the same
condition and transform. -/
structure LinkSpec.Agrees (a b : LinkSpec) : Prop where
  source : ∃ r, PortRef.parse? a.source = some r ∧ PortRef.parse? b.source = some r
  target : ∃ r, PortRef.parse? a.target = some r ∧ PortRef.parse? b.target = some r
  condition : a.condition = b.condition
  transform : a.transform = b.transform

theorem LinkSpec.Agrees.eq {a b : LinkSpec} (h : a.Agrees b) : a = b := by
  obtain ⟨⟨r, ha, hb⟩, ⟨q, ha', hb'⟩, hc, ht⟩ := h
  obtain ⟨source, target, condition, transform⟩ := a
  rw [LinkSpec.mk.injEq]
  exact ⟨PortRef.eq_of_parse? ha hb, PortRef.eq_of_parse? ha' hb', hc, ht⟩

theorem LinkSpec.agrees_iff {a b : LinkSpec} (hs : ∃ r, PortRef.parse? b.source = some r)
    (ht : ∃ r, PortRef.parse? b.target = some r) : a.Agrees b ↔ a = b := by
  refine ⟨LinkSpec.Agrees.eq, ?_⟩
  rintro rfl
  exact ⟨hs.imp fun _ h => ⟨h, h⟩, ht.imp fun _ h => ⟨h, h⟩, rfl, rfl⟩

namespace Flow

theorem findIdx?_eq_some_iff_isLeast {α : Type} [DecidableEq α] {xs : List α} {a : α} :
    xs.findIdx? (· = a) = some j ↔ IsLeast {k | xs[k]? = some a} j := by
  rw [List.findIdx?_eq_some_iff_getElem]
  constructor
  · rintro ⟨hj, hp, hfirst⟩
    refine ⟨List.getElem?_eq_some_iff.mpr ⟨hj, of_decide_eq_true hp⟩, fun k hk => ?_⟩
    refine not_lt.mp fun hlt => hfirst k hlt ?_
    exact decide_eq_true (List.getElem?_eq_some_iff.mp hk).2
  · rintro ⟨hj, hleast⟩
    obtain ⟨hlt, ha⟩ := List.getElem?_eq_some_iff.mp hj
    refine ⟨hlt, decide_eq_true ha, fun k hk hp => ?_⟩
    exact not_le.mpr hk (hleast (List.getElem?_eq_some_iff.mpr ⟨hk.trans hlt, of_decide_eq_true hp⟩))

theorem duplicateLink_notMem_portIssues {seen : List String} {ports : List Port} :
    .duplicateLink i j ∉ portIssues id seen ports := by
  induction ports generalizing seen with
  | nil => exact List.not_mem_nil
  | cons p rest ih => simp [portIssues, ih, List.mem_ite_nil_left, List.mem_ite_nil_right]

theorem duplicateLink_notMem_stateIssues {s : StateConfig} : .duplicateLink i j ∉ stateIssues id n s := by
  simp [stateIssues]

theorem duplicateLink_notMem_nodeIssues {requires : List String} :
    .duplicateLink i j ∉ nodeIssues requires id n := by
  have hanswer : .duplicateLink i j ∉ answerIssues id n.transform := by
    cases n.transform <;> simp [answerIssues]
  have herror : .duplicateLink i j ∉ errorPortIssues id n.errorPort := by
    cases n.errorPort <;> simp [errorPortIssues]
  have hstate : .duplicateLink i j ∉ (n.state.map (stateIssues id n)).getD [] := by
    cases n.state <;> simp [duplicateLink_notMem_stateIssues]
  simp [nodeIssues, policyIssues, requirementIssues, duplicateLink_notMem_portIssues, hanswer, herror, hstate]

theorem duplicateLink_notMem_nodesIssues {requires seen : List String} :
    .duplicateLink i j ∉ nodesIssues requires seen nodes := by
  induction nodes generalizing seen with
  | nil => exact List.not_mem_nil
  | cons e rest ih =>
    obtain ⟨id, n⟩ := e
    by_cases h : id ∈ seen
    · simp [nodesIssues, h, ih]
    · simp [nodesIssues, h, ih, duplicateLink_notMem_nodeIssues]

theorem ne_duplicateLink_of_kindAt {asSource : Bool} {r : PortRef} {e : Issue}
    (h : kindAt nodes place asSource r = .error e) : e ≠ .duplicateLink i j := by
  unfold kindAt at h
  split at h
  · cases h
  · split at h
    · cases h
      exact nofun
    · split at h <;> cases h
      exact nofun

theorem duplicateLink_notMem_of_coercionOf {s t : PortRef} {found : List Issue}
    (h : coercionOf nodes place s t = .error found) : .duplicateLink i j ∉ found := by
  unfold coercionOf at h
  split at h
  · split at h <;> cases h
    simp
  · cases h
  · next hs _ =>
    cases h
    simpa using (ne_duplicateLink_of_kindAt hs).symm
  · next ht =>
    cases h
    simpa using (ne_duplicateLink_of_kindAt ht).symm
  · next hs ht =>
    cases h
    simpa using ⟨(ne_duplicateLink_of_kindAt hs).symm, (ne_duplicateLink_of_kindAt ht).symm⟩

theorem duplicateLink_mem_duplicateIssues {before : List LinkSpec} {spec : LinkSpec} :
    .duplicateLink i j ∈ duplicateIssues before spec ↔
      i = before.length ∧ before.findIdx? (· = spec) = some j := by
  unfold duplicateIssues
  cases before.findIdx? (· = spec) with
  | none => simp
  | some first => simp [eq_comm]

theorem duplicateLink_mem_linkIssues {before : List LinkSpec} {spec : LinkSpec} :
    .duplicateLink i j ∈ linkIssues nodes before spec ↔
      i = before.length ∧ before.findIdx? (· = spec) = some j := by
  have hfault : ∀ x, .duplicateLink i j ∉ faultIssues before.length x := by
    rintro (e | r) <;> simp [faultIssues]
  simp only [linkIssues, List.mem_append, duplicateLink_mem_duplicateIssues, hfault, or_false]
  refine or_iff_left ?_
  split
  · split
    · exact List.not_mem_nil
    · next h => exact duplicateLink_notMem_of_coercionOf h
  · exact List.not_mem_nil

theorem duplicateLink_mem_linksIssues {before specs : List LinkSpec} :
    .duplicateLink i j ∈ linksIssues nodes before specs ↔ ∃ k spec, specs[k]? = some spec ∧
      i = before.length + k ∧ (before ++ specs.take k).findIdx? (· = spec) = some j := by
  induction specs generalizing before with
  | nil => simp [linksIssues]
  | cons spec rest ih =>
    rw [linksIssues, List.mem_append, duplicateLink_mem_linkIssues, ih]
    refine Iff.trans ?_ Nat.or_exists_add_one
    refine or_congr ?_ (exists_congr fun k => exists_congr fun other => ?_)
    · simp
    · simp [Nat.add_assoc, Nat.add_comm 1]

/-- A link is reported as a duplicate of the first one before it with the same text. -/
theorem duplicateLink_mem_issues : .duplicateLink i j ∈ issues d ↔
    ∃ spec, d.links[i]? = some spec ∧ (d.links.take i).findIdx? (· = spec) = some j := by
  have hversion : .duplicateLink i j ∉ if isSupportedVersion d.version then [] else
      [Issue.unsupportedVersion d.version] := by
    split <;> simp
  have hunwired : .duplicateLink i j ∉ unwiredIssues (firstNodes [] d.nodes) d.links := by
    simp [unwiredIssues]
  have hcycle : .duplicateLink i j ∉ cycleIssues (firstNodes [] d.nodes) d.links := by
    simp [cycleIssues]
  simp only [issues, List.mem_append, hversion, hunwired, hcycle, duplicateLink_notMem_nodesIssues,
    duplicateLink_mem_linksIssues, or_false, false_or]
  simp

/-- A link between ports is reported as a duplicate of the first one before it that says the same. -/
theorem duplicateLink_mem_issues_iff_isLeast {spec : LinkSpec} (hi : d.links[i]? = some spec)
    (hs : ∃ r, PortRef.parse? spec.source = some r) (ht : ∃ r, PortRef.parse? spec.target = some r) :
    .duplicateLink i j ∈ issues d ↔
      IsLeast {k | k < i ∧ ∃ first, d.links[k]? = some first ∧ first.Agrees spec} j := by
  have hset : {k | (d.links.take i)[k]? = some spec} =
      {k | k < i ∧ ∃ first, d.links[k]? = some first ∧ first.Agrees spec} := by
    ext k
    simp [List.getElem?_take, LinkSpec.agrees_iff hs ht]
  rw [duplicateLink_mem_issues, ← hset, ← findIdx?_eq_some_iff_isLeast]
  simp [hi]

/-- Texts and port references correspond one to one: a text is read exactly when its only point has text on
both sides, and then the port reference is written as that text; and a port reference with names that are
not empty, have no point and are not those of the sides of the run is read from the text it is written as.
So links with the same ends are written alike, and looking for a link with the same text before another one
finds the first with the same ends, condition and transform. -/
theorem references_exact :
    (∀ s, (∃ r, PortRef.parse? s = some r) ↔ s.toList.count '.' = 1 ∧
      ∃ name port, name ≠ [] ∧ port ≠ [] ∧ s.toList = name ++ '.' :: port) ∧
    (∀ s r, PortRef.parse? s = some r ↔ r.Proper ∧ r.render = s) ∧
    (∀ a b : LinkSpec, (∃ r, PortRef.parse? a.source = some r ∧ PortRef.parse? b.source = some r) →
      (∃ r, PortRef.parse? a.target = some r ∧ PortRef.parse? b.target = some r) →
      a.source = b.source ∧ a.target = b.target) ∧
    ∀ (d : Document) (i : Nat) spec, d.links[i]? = some spec →
      (∃ r, PortRef.parse? spec.source = some r) → (∃ r, PortRef.parse? spec.target = some r) →
      ∀ j, .duplicateLink i j ∈ issues d ↔
        IsLeast {k | k < i ∧ ∃ first, d.links[k]? = some first ∧ first.Agrees spec} j := by
  refine ⟨fun s => PortRef.exists_parse?_iff, fun s r => PortRef.parse?_eq_some_iff, ?_, ?_⟩
  · rintro a b ⟨r, ha, hb⟩ ⟨q, ha', hb'⟩
    exact ⟨PortRef.eq_of_parse? ha hb, PortRef.eq_of_parse? ha' hb'⟩
  · intro d i spec hi hs ht j
    exact duplicateLink_mem_issues_iff_isLeast hi hs ht

/-- A link that is written three times, and once with a condition. -/
def restated : Document where
  version := "1"
  metadata := []
  requires := []
  nodes := []
  links := [⟨"_input.größe", "x.b", none, none⟩, ⟨"_input.größe", "x.b", some "true", none⟩,
    ⟨"_input.größe", "x.b", none, none⟩, ⟨"_input.größe", "x.b", none, none⟩]
  deployment := none

/-- The last of the links is a duplicate of the first one, and not of the one that is nearer. -/
theorem references_exact_restated : PortRef.parse? "_input.größe" = some ⟨.input, "größe"⟩ ∧
    PortRef.parse? "x.b" = some ⟨.node "x", "b"⟩ ∧
    .duplicateLink 3 0 ∈ issues restated ∧ .duplicateLink 3 2 ∉ issues restated := by
  obtain ⟨-, hread, -, hdup⟩ := references_exact
  have hs : PortRef.parse? "_input.größe" = some ⟨.input, "größe"⟩ :=
    (hread _ _).mpr ⟨⟨⟨by decide, by decide⟩, nofun⟩, by decide⟩
  have ht : PortRef.parse? "x.b" = some ⟨.node "x", "b"⟩ := by
    refine (hread _ _).mpr ⟨⟨⟨by decide, by decide⟩, ?_⟩, by decide⟩
    rintro _ ⟨⟩
    exact ⟨⟨by decide, by decide⟩, by decide, by decide⟩
  have hiff := hdup restated 3 _ rfl ⟨_, hs⟩ ⟨_, ht⟩
  have hfirst : IsLeast {k | k < 3 ∧ ∃ first, restated.links[k]? = some first ∧
      first.Agrees ⟨"_input.größe", "x.b", none, none⟩} 0 :=
    ⟨⟨by decide, _, rfl, ⟨_, hs, hs⟩, ⟨_, ht, ht⟩, rfl, rfl⟩, fun _ _ => Nat.zero_le _⟩
  refine ⟨hs, ht, (hiff 0).mpr hfirst, fun h => ?_⟩
  exact absurd (((hiff 2).mp h).2 hfirst.1) (by decide)

end Flow

end Workflow
