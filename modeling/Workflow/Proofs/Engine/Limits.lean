import Workflow.Proofs.Engine.Barrier
import Workflow.Proofs.Engine.InOrder
import Workflow.Proofs.Flow.Validation

namespace Workflow

variable {μ : Type}

theorem IsNodeId.notMem_colon {id : String} (h : IsNodeId id) : ':' ∉ id.toList := by
  obtain ⟨c, rest, hid, hc, hrest⟩ := h
  rw [hid, List.mem_cons, not_or]
  refine ⟨fun he => ?_, fun hm => ?_⟩
  · subst he
    exact absurd hc.1 (by decide)
  · rcases hrest ':' hm with h | h | h
    · exact absurd h.1 (by decide)
    · exact absurd h.2 (by decide)
    · exact absurd h (by decide)

theorem eq_of_append_colons {a b a' b' : List Char} (hb : ':' ∉ b) (hb' : ':' ∉ b')
    (h : a ++ ':' :: ':' :: b = a' ++ ':' :: ':' :: b') : a = a' ∧ b = b' := by
  -- what one of them has before its colons and the other does not is empty
  have hnil : ∀ {t b b' : List Char}, ':' ∉ b → ':' :: ':' :: b = t ++ ':' :: ':' :: b' →
      t = [] ∧ b = b' := by
    intro t b b' hb ht
    match t with
    | [] => simpa using ht
    | [_] =>
      simp only [List.cons_append, List.nil_append, List.cons.injEq] at ht
      exact absurd (ht.2.2 ▸ List.mem_cons_self) hb
    | _ :: _ :: t =>
      simp only [List.cons_append, List.cons.injEq] at ht
      exact absurd (ht.2.2 ▸ List.mem_append_right t List.mem_cons_self) hb
  rcases List.append_eq_append_iff.mp h with ⟨t, rfl, ht⟩ | ⟨t, rfl, ht⟩
  · obtain ⟨rfl, rfl⟩ := hnil hb ht
    simp
  · obtain ⟨rfl, rfl⟩ := hnil hb' ht
    simp

/-- The name of permits tells the name of the flow and the node. -/
theorem eq_of_limit_name {name name₁ id id₁ : String} (hid : IsNodeId id) (hid₁ : IsNodeId id₁)
    (h : s!"{name}::{id}" = s!"{name₁}::{id₁}") : name = name₁ ∧ id = id₁ := by
  have htext : (name ++ "::" ++ id).toList = (name₁ ++ "::" ++ id₁).toList := congrArg String.toList h
  have hlist : name.toList ++ ':' :: ':' :: id.toList = name₁.toList ++ ':' :: ':' :: id₁.toList := by
    simpa using htext
  obtain ⟨hname, hids⟩ := eq_of_append_colons hid.notMem_colon hid₁.notMem_colon hlist
  exact ⟨String.toList_inj.mp hname, String.toList_inj.mp hids⟩

theorem View.Valid.sound {v : View} (h : v.Valid) {id : String} {n : Node}
    (hn : (id, n) ∈ v.plan.flow.nodes) : IsNodeId id ∧ n.Sound v.plan.flow.requires := by
  obtain ⟨d, f, hv, hp⟩ := h
  have hd := Flow.denotes_of_validate hv
  rw [(Plan.eq_of_ofFlow hp).1] at hn ⊢
  exact ⟨(Flow.wellFormed_of_validate hv).ids _ (hd.nodes ▸ hn), hd.requires ▸ Flow.sound_of_validate hv hn⟩

namespace Schedule

/-- The runs of a flow in which the node at a place has a permit of its own. -/
def holders (s : Schedule μ) (f : Flow) (place : Nat) : Set Nat :=
  {run | (∃ r, s.runs[run]? = some r ∧ r.plan.flow = f) ∧ s.standing (run, place) .node = .inside}

/-- No node of a flow has more permits, over all runs of the flow, than it declares. -/
def Honours (s : Schedule μ) : Prop :=
  ∀ (f : Flow) (place : Nat) (id : String) (n : Node) (max : Nat), f.nodes[place]? = some (id, n) →
    n.policy.maxConcurrency = some max → (s.holders f place).encard ≤ max

variable {c : Config} {caps : String → Nat} {s : Schedule μ} {run place max : Nat} {key id : String}
variable {f : Flow} {n : Node}

theorem limitAt?_eq_some_iff : s.limitAt? (run, place) = some (key, max) ↔
    ∃ r id n, s.runs[run]? = some r ∧ r.plan.flow.nodes[place]? = some (id, n) ∧
      n.policy.maxConcurrency = some max ∧ key = s!"{r.plan.flow.name}::{id}" := by
  simp only [limitAt?, Run.limitOf?, Run.node?, Option.bind_eq_bind, Option.bind_eq_some_iff, Prod.exists,
    Option.some.injEq, Prod.mk.injEq]
  constructor
  · rintro ⟨r, hr, id, n, hn, max, hmax, rfl, rfl⟩
    exact ⟨r, id, n, hr, hn, hmax, rfl⟩
  · rintro ⟨r, id, n, hr, hn, hmax, rfl⟩
    exact ⟨r, hr, id, n, hn, max, hmax, rfl, rfl⟩

theorem limitAt?_of_holds (hn : f.nodes[place]? = some (id, n)) (hmax : n.policy.maxConcurrency = some max)
    (h : run ∈ s.holders f place) : s.limitAt? (run, place) = some (s!"{f.name}::{id}", max) := by
  obtain ⟨⟨r, hr, rfl⟩, -⟩ := h
  exact limitAt?_eq_some_iff.mpr ⟨r, id, n, hr, hn, hmax, rfl⟩

theorem InOrder.exists_permits (h : InOrder c caps s) (hlimit : s.limitAt? (run, place) = some (key, max))
    (hstands : s.standing (run, place) .node = .inside) : ∃ p, s.limits.get? key = some p := by
  refine h.opened (run, place) key max ?_ hlimit
  by_contra hnot
  rw [standing, Option.not_isSome_iff_eq_none.mp hnot] at hstands
  cases hstands

/-- Over all runs of a flow, a node has no more permits than there are of its name. -/
theorem InOrder.encard_holders_le (h : InOrder c caps s) (hn : f.nodes[place]? = some (id, n))
    (hmax : n.policy.maxConcurrency = some max) {p : Permits (Nat × Nat)}
    (hp : s.limits.get? s!"{f.name}::{id}" = some p) :
    (s.holders f place).encard ≤ caps s!"{f.name}::{id}" := by
  have hinj : Function.Injective fun run : Nat => (run, place) := fun _ _ he => (Prod.mk.inj he).1
  have hsub : (fun run : Nat => (run, place)) '' s.holders f place ⊆
      {k | s.standingAt s.standing s!"{f.name}::{id}" k = .inside} := by
    rintro _ ⟨run, hrun, rfl⟩
    exact (standingAt_of_limitAt? (limitAt?_of_holds hn hmax hrun)).trans hrun.2
  rw [← hinj.encard_image]
  exact (Set.encard_le_encard hsub).trans (h.limits _ p hp).encard_le

end Schedule

open Schedule

variable {e : Engine μ} {s₀ s : Schedule μ} {es : List Event}

/-- The permits of a name are as many as some node of that name declares. So a node never has more than it
declares when no other node of its name, in flows of the same name, declares more. -/
theorem Leads.holders_le (h₀ : s₀.runs = []) (hl : s₀.limits = []) (h : Leads e s₀ es s) {f : Flow}
    {place : Nat} {id : String} {n : Node} {max : Nat} (hn : f.nodes[place]? = some (id, n))
    (hmax : n.policy.maxConcurrency = some max)
    (hsame : ∀ r ∈ s.runs, r.plan.flow.name = f.name → ∀ n' max', (id, n') ∈ r.plan.flow.nodes →
      n'.policy.maxConcurrency = some max' → max' ≤ max) : (s.holders f place).encard ≤ max := by
  obtain ⟨_, hcoordinated⟩ := h.coordinated (coordinated_nil h₀)
  have hvalid : ∀ {run : Nat} {r : Run μ}, s.runs[run]? = some r → r.view.Valid := by
    intro run r hr
    obtain ⟨_, _, hc⟩ := hcoordinated.get (views_of_getElem? hr)
    exact hc.valid
  rcases (s.holders f place).eq_empty_or_nonempty with hnone | ⟨run, hrun⟩
  · simp [hnone]
  · obtain ⟨caps, hin⟩ := h.inOrder h₀ hl
    have hlimit := limitAt?_of_holds hn hmax hrun
    obtain ⟨⟨r, hr, hf⟩, hstands⟩ := hrun
    obtain ⟨p, hp⟩ := hin.exists_permits hlimit hstands
    have hcap : caps s!"{f.name}::{id}" ≤ max := by
      obtain ⟨⟨run', place'⟩, hdeclared⟩ := hin.declared _ p hp
      obtain ⟨r', id', n', hr', hn', hmax', hname⟩ := limitAt?_eq_some_iff.mp hdeclared
      have hid : IsNodeId id := ((hvalid hr).sound (List.mem_of_getElem? (hf ▸ hn))).1
      have hid' : IsNodeId id' := ((hvalid hr').sound (List.mem_of_getElem? hn')).1
      obtain ⟨hflow, rfl⟩ := eq_of_limit_name hid hid' hname
      exact hsame r' (List.mem_of_getElem? hr') hflow.symm n' _ (List.mem_of_getElem? hn') hmax'
    exact (hin.encard_holders_le hn hmax hp).trans (Nat.cast_le.mpr hcap)

open Coordination

/-- A node that may execute so many times at once. -/
def caller (max : Nat) : Node where
  inputs := []
  outputs := [⟨"out", .string, false, none⟩]
  errorPort := none
  transform := .code ""
  policy := { maxConcurrency := some max }
  state := none

def report (max : Nat) : Document where
  version := "1.0"
  metadata := [("name", .str "report")]
  requires := []
  nodes := [("call", caller max)]
  links := [⟨"call.out", "_output.out", none, none⟩]
  deployment := none

def reportFlow (max : Nat) : Flow where
  version := "1.0"
  metadata := [("name", .str "report")]
  requires := []
  nodes := (report max).nodes
  links := [⟨⟨.node "call", "out"⟩, ⟨.output, "out"⟩, none, none, .identity⟩]
  deployment := none

def reportPlan (max : Nat) : Plan where
  flow := reportFlow max
  layerOf := [0]
  incoming := [[]]
  outgoing := [[0]]
  inputLinks := []
  outputLinks := [0]
  schemas := []

set_option maxRecDepth 10000 in
theorem validate_report_one : Flow.validate (report 1) = .ok (reportFlow 1) := by with_unfolding_all rfl

set_option maxRecDepth 10000 in
theorem validate_report_three : Flow.validate (report 3) = .ok (reportFlow 3) := by with_unfolding_all rfl

theorem ofFlow_report (max : Nat) : Plan.ofFlow (reportFlow max) = .ok (reportPlan max) := by rfl

/-- Code takes a while, and says that it is done. -/
def office : CodeRuntime (World Unit) := fun _ _ _ _ => .rest 100 (.done (.ok (.str "done")))

def reportEngine : Engine Unit := ⟨⟨[], some office, none⟩, {}, ⟨"trace", ""⟩, fun _ => 1⟩

def reportReady (max : Nat) : Prepared Unit where
  plan := reportPlan max
  work := Engine.workIn diamondContext [.code "" office]
  context := diamondContext
  inputs := []
  deadlineMs := none

/-- One more run of the report is put under way, and its node has its turn. -/
def Schedule.reporting (s : Schedule Unit) (max : Nat) : Schedule Unit :=
  ((s.enrol (.ofPrepared reportEngine.config s.now (reportReady max))).2.coordinate
    s.runs.length).turnNode reportEngine.config.backoff s.runs.length 0

theorem leads_reporting (maxs : List Nat)
    (hv : ∀ max ∈ maxs, Flow.validate (report max) = .ok (reportFlow max)) :
    ∃ es, Leads reportEngine idle es (maxs.foldl Schedule.reporting idle) := by
  refine List.foldlRecOn (motive := fun s => ∃ es, Leads reportEngine idle es s) maxs _ ⟨[], .refl⟩ ?_
  rintro s ⟨es, hes⟩ max hmax
  have hbegin := hes.step (.begin (p := reportReady max) (hv max hmax) (ofFlow_report max))
  obtain ⟨es', hes'⟩ := leads_coordinate_of_leads rfl hbegin s.runs.length
  exact ⟨_, hes'.step (.work s.runs.length 0)⟩

/-- Two runs of a report that may execute once at a time. One of them has the permit. -/
def reports : Schedule Unit := [1, 1].foldl Schedule.reporting idle

theorem holders_le_reports : (∃ es, Leads reportEngine idle es reports) ∧
    0 ∈ reports.holders (reportFlow 1) 0 ∧ (reports.holders (reportFlow 1) 0).encard ≤ 1 := by
  obtain ⟨es, hes⟩ := leads_reporting [1, 1] (by simp [validate_report_one])
  have hplans : reports.runs.map Run.plan = [reportPlan 1, reportPlan 1] := rfl
  refine ⟨⟨es, hes⟩, ⟨⟨_, rfl, rfl⟩, by decide +kernel⟩, ?_⟩
  refine hes.holders_le (n := caller 1) rfl rfl rfl rfl fun r hr _ n' max' hn' hmax' => ?_
  have hplan : r.plan ∈ [reportPlan 1, reportPlan 1] := hplans ▸ List.mem_map_of_mem hr
  have hr' : r.plan = reportPlan 1 := by simpa using hplan
  rw [hr'] at hn'
  cases List.mem_singleton.mp hn'
  cases hmax'
  exact Nat.le_refl 1

/-- A run of an older report, which may execute three times at once, and two of one that may once. -/
def outdated : Schedule Unit := [3, 1, 1].foldl Schedule.reporting idle

/-- Permits are as many as the first flow of a name declares. A later one of that name that declares fewer
does not have its way: its node executes more often at once. -/
theorem exists_not_honours : ∃ es, Leads reportEngine idle es outdated ∧ ¬ outdated.Honours := by
  obtain ⟨es, hes⟩ := leads_reporting [3, 1, 1]
    (by simp [validate_report_one, validate_report_three])
  refine ⟨es, hes, fun h => ?_⟩
  have hruns : ({1, 2} : Set Nat) ⊆ outdated.holders (reportFlow 1) 0 := by
    rintro run (rfl | rfl)
    · exact ⟨⟨_, rfl, rfl⟩, by decide +kernel⟩
    · exact ⟨⟨_, rfl, rfl⟩, by decide +kernel⟩
  have hle := (Set.encard_le_encard hruns).trans (h (reportFlow 1) 0 "call" (caller 1) 1 rfl rfl)
  rw [Set.encard_pair (by decide)] at hle
  exact absurd hle (by decide)

end Workflow
