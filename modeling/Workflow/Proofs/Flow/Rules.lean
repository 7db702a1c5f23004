import Workflow.Proofs.Flow.Wellformed
import Workflow.Proofs.Text.Split

namespace Workflow

theorem Template.after?_eq_some_iff {start name rest : String} :
    Template.after? start name = some rest ↔ name = start ++ rest := by
  simp only [Template.after?, Option.ite_none_right_eq_some, List.isPrefixOf_iff_prefix,
    Option.some.injEq]
  constructor
  · rintro ⟨⟨t, ht⟩, hr⟩
    rw [← ht, ← String.length_toList, List.drop_left] at hr
    rw [← String.toList_inj, String.toList_append, ← ht, ← hr, String.toList_ofList]
  · rintro rfl
    rw [String.toList_append, ← String.length_toList, List.drop_left, String.ofList_toList]
    exact ⟨List.prefix_append _ _, rfl⟩

theorem Template.after?_inputs_raw (field : String) : Template.after? "inputs." ("raw." ++ field) = none := by
  rw [Option.eq_none_iff_forall_ne_some]
  intro rest hr
  have he := congrArg String.toList (Template.after?_eq_some_iff.mp hr)
  simp at he

namespace Flow

theorem isDigit_iff {c : Char} : c.isDigit = true ↔ '0' ≤ c ∧ c ≤ '9' := by
  simp [Char.isDigit, Char.le_def]

theorem isLower_iff {c : Char} : c.isLower = true ↔ 'a' ≤ c ∧ c ≤ 'z' := by
  have h : c.isLower = (decide ('a' ≤ c) && decide (c ≤ 'z')) := rfl
  rw [h, Bool.and_eq_true, decide_eq_true_iff, decide_eq_true_iff]

theorem isSupportedVersion_iff {version : String} :
    isSupportedVersion version = true ↔ IsVersion version := by
  unfold isSupportedVersion
  constructor
  · intro h
    split at h
    · next groups hs =>
      refine ⟨groups, ?_, fun g hg => ?_⟩
      · simpa using (Text.join_split hs).symm
      · have hd := List.all_eq_true.mp h g hg
        simpa [isDigit_iff] using hd
    · cases h
  · rintro ⟨groups, hv, hg⟩
    have hdot : ∀ g ∈ groups, '.' ∉ g := by
      intro g hm hd
      exact absurd ((hg g hm).2 '.' hd) (by decide)
    have hs : Text.split '.' version.toList = ['1'] :: groups := by
      rw [hv]
      exact Text.split_join (by decide : '.' ∉ ['1']) hdot
    rw [hs]
    simpa [isDigit_iff] using hg

theorem isNodeId_iff {id : String} : isNodeId id = true ↔ IsNodeId id := by
  unfold isNodeId IsNodeId
  cases id.toList with
  | nil => simp
  | cons c rest => simp [isLower_iff, isDigit_iff, or_assoc]

theorem isSchema_iff {v : Json} : isSchema v = true ↔ IsSchema v := by
  simp [isSchema, IsSchema, Option.isSome_iff_exists]

theorem inputPort?_isSome_iff {n : Node} {name : String} :
    (n.inputPort? name).isSome = true ↔ ∃ p ∈ n.inputs, p.name = name := by
  simp [Node.inputPort?]

theorem isKeyVariable_iff {n : Node} {name : String} :
    isKeyVariable n name = true ↔ KeyVariable n name := by
  simp only [isKeyVariable, Bool.or_eq_true, decide_eq_true_eq]
  constructor
  · rintro (h | h)
    · exact .id h
    · split at h
      · next port hp =>
        obtain ⟨p, hm, rfl⟩ := inputPort?_isSome_iff.mp h
        rw [Template.after?_eq_some_iff.mp hp]
        exact .input hm
      · obtain ⟨field, hf, hne⟩ := (Option.any_eq_true _ _).mp h
        rw [Template.after?_eq_some_iff.mp hf]
        exact .raw (by simpa using hne)
  · intro h
    cases h with
    | id h => exact .inl h
    | @input p h =>
      have ha := Template.after?_eq_some_iff.mpr (rfl : "inputs." ++ p.name = "inputs." ++ p.name)
      rw [ha]
      exact .inr (inputPort?_isSome_iff.mpr ⟨p, h, rfl⟩)
    | @raw field h =>
      have ha := Template.after?_eq_some_iff.mpr (rfl : "raw." ++ field = "raw." ++ field)
      rw [Template.after?_inputs_raw, ha]
      exact .inr (by simpa using h)

theorem ite_nil_eq_nil {α : Type} {c : Prop} [Decidable c] {x : α} :
    (if c then [] else [x]) = [] ↔ c := by
  split <;> simp [*]

theorem ite_singleton_eq_nil {α : Type} {c : Prop} [Decidable c] {x : α} :
    (if c then [x] else []) = [] ↔ ¬ c := by
  split <;> simp [*]

theorem policyIssues_eq_nil_iff {id : String} {p : RuntimePolicy} :
    policyIssues id p = [] ↔ 1 ≤ p.retries ∧ 0 < p.timeoutMs ∧ p.maxConcurrency ≠ some 0 := by
  simp only [policyIssues, List.append_eq_nil_iff, ite_singleton_eq_nil, Nat.not_lt,
    Nat.pos_iff_ne_zero, ne_eq, and_assoc]

theorem portIssues_eq_nil_iff {id : String} {seen : List String} {ports : List Port} :
    portIssues id seen ports = [] ↔
      (∀ p ∈ ports, p.name ∉ seen) ∧ (ports.map Port.name).Nodup ∧
      ∀ p ∈ ports, ∀ v, p.schema = some v → IsSchema v := by
  induction ports generalizing seen with
  | nil => simp [portIssues]
  | cons p rest ih =>
    have hs : p.schema.all isSchema = true ↔ ∀ v, p.schema = some v → IsSchema v := by
      cases p.schema <;> simp [isSchema_iff]
    simp only [portIssues, List.append_eq_nil_iff, ite_singleton_eq_nil, ite_nil_eq_nil, hs, ih,
      List.forall_mem_cons, List.map_cons, List.nodup_cons, List.mem_append, List.mem_singleton,
      not_or, List.mem_map, not_exists, not_and]
    constructor
    · rintro ⟨⟨hp, hv⟩, hr, hd, hvs⟩
      exact ⟨⟨hp, fun q hq => (hr q hq).1⟩, ⟨fun q hq => (hr q hq).2, hd⟩, hv, hvs⟩
    · rintro ⟨⟨hp, hr⟩, ⟨hne, hd⟩, hv, hvs⟩
      exact ⟨⟨hp, hv⟩, fun q hq => ⟨hr q hq, hne q hq⟩, hd, hvs⟩

theorem answerIssues_eq_nil_iff {id : String} {t : Transform} :
    answerIssues id t = [] ↔ ∀ p, t = .prompt p → ∀ v, p.schema = some v → IsSchema v := by
  cases t with
  | prompt p =>
    have hs : p.schema.all isSchema = true ↔ ∀ v, p.schema = some v → IsSchema v := by
      cases p.schema <;> simp [isSchema_iff]
    simp [answerIssues, hs]
  | declarative | code => simp [answerIssues]

theorem errorPortIssues_eq_nil_iff {id : String} {port : Option Port} :
    errorPortIssues id port = [] ↔ ∀ p, port = some p → p.kind = .object ∨ p.kind = .string := by
  cases port <;> simp [errorPortIssues, Decidable.imp_iff_not_or]

theorem requirementIssues_eq_nil_iff {id : String} {requires fields : List String} :
    requirementIssues id requires fields = [] ↔ ∀ field ∈ fields, field ∈ requires := by
  simp [requirementIssues, List.filter_eq_nil_iff]

theorem stateIssues_eq_nil_iff {id : String} {n : Node} {s : StateConfig} :
    stateIssues id n s = [] ↔ s.Fits n := by
  simp only [stateIssues, List.append_eq_nil_iff, ite_singleton_eq_nil, List.map_eq_nil_iff,
    List.filter_eq_nil_iff, Bool.not_eq_false, isKeyVariable_iff,
    Option.isSome_iff_ne_none, Bool.not_eq_eq_eq_not, Bool.not_true]
  constructor
  · rintro ⟨⟨⟨hr, hs⟩, hv⟩, hk⟩
    exact ⟨fun h => by_contra fun hn => hr ⟨h, hn⟩, fun h ht => hs ⟨h, ht⟩, hv,
      fun h => by_contra fun hn => hk ⟨h, hn⟩⟩
  · rintro ⟨hr, hs, hv, hk⟩
    exact ⟨⟨⟨fun h => h.2 (hr h.1), fun h => hs h.1 h.2⟩, hv⟩, fun h => h.2 (hk h.1)⟩

theorem nodeIssues_eq_nil_iff {requires : List String} {id : String} {n : Node} :
    nodeIssues requires id n = [] ↔ n.Sound requires := by
  have hs : (n.state.map (stateIssues id n)).getD [] = [] ↔
      ∀ s, n.state = some s → s.Fits n := by
    cases n.state <;> simp [stateIssues_eq_nil_iff]
  simp only [nodeIssues, List.append_eq_nil_iff, policyIssues_eq_nil_iff, portIssues_eq_nil_iff,
    answerIssues_eq_nil_iff, errorPortIssues_eq_nil_iff, requirementIssues_eq_nil_iff, hs]
  constructor
  · rintro ⟨⟨⟨⟨⟨⟨hr, ht, hc⟩, -, hd, hv⟩, ha⟩, he⟩, hq⟩, hst⟩
    exact ⟨hr, ht, hc, hd, hv, ha, he, hq, hst⟩
  · rintro ⟨hr, ht, hc, hd, hv, ha, he, hq, hst⟩
    exact ⟨⟨⟨⟨⟨⟨hr, ht, hc⟩, by simp, hd, hv⟩, ha⟩, he⟩, hq⟩, hst⟩

theorem nodesIssues_eq_nil_iff {requires seen : List String} {nodes : List (String × Node)} :
    nodesIssues requires seen nodes = [] ↔
      (∀ e ∈ nodes, IsNodeId e.1) ∧ (∀ e ∈ nodes, e.1 ∉ seen) ∧ (nodes.map Prod.fst).Nodup ∧
      ∀ e ∈ nodes, e.2.Sound requires := by
  induction nodes generalizing seen with
  | nil => simp [nodesIssues]
  | cons e rest ih =>
    obtain ⟨id, n⟩ := e
    by_cases hs : id ∈ seen
    · simp [nodesIssues, hs]
    · simp only [nodesIssues, hs, if_false, List.append_eq_nil_iff, ite_nil_eq_nil, isNodeId_iff,
        nodeIssues_eq_nil_iff, ih, List.forall_mem_cons, List.map_cons, List.nodup_cons,
        List.mem_append, List.mem_singleton, not_or, List.mem_map, not_exists, not_and,
        not_false_eq_true, true_and]
      constructor
      · rintro ⟨hi, hn, hr, hd, hu, hv⟩
        exact ⟨⟨hi, hr⟩, fun e he => (hd e he).1, ⟨fun e he => (hd e he).2, hu⟩, hn, hv⟩
      · rintro ⟨⟨hi, hr⟩, hd, ⟨hne, hu⟩, hn, hv⟩
        exact ⟨hi, hn, hr, fun e he => ⟨hd e he, hne e he⟩, hu, hv⟩

theorem firstNodes_eq_self {seen : List String} {nodes : List (String × Node)}
    (hs : ∀ e ∈ nodes, e.1 ∉ seen) (hd : (nodes.map Prod.fst).Nodup) :
    firstNodes seen nodes = nodes := by
  induction nodes generalizing seen with
  | nil => rfl
  | cons e rest ih =>
    simp only [List.forall_mem_cons, List.map_cons, List.nodup_cons] at hs hd
    rw [firstNodes, if_neg hs.1, ih _ hd.2]
    intro x hx hm
    rcases List.mem_append.mp hm with hm | hm
    · exact hs.2 x hx hm
    · rw [List.mem_singleton] at hm
      exact hd.1 (hm ▸ List.mem_map_of_mem hx)

end Flow

end Workflow
