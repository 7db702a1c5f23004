import Workflow.Proofs.Plan.Tables
import Workflow.Run.Delivery

namespace Workflow

/-- A value may stand at a port: it is of its kind and keeps to its schema, if there is one. -/
def Port.Admits (q : Port) (v : Json) : Prop :=
  q.kind.accepts v = true ∧
    ∀ schema, q.schema = some schema → ∃ s, CompiledSchema.compile? schema = some s ∧ s.check v = .ok ()

namespace Plan

variable {place i : Nat} {id name : String} {ports : List Port} {nodes : List (String × Node)} {q : Port}
variable {n : Node} {table : List ((Nat × String) × CompiledSchema)}

/-- The schema that a table has for a port of a node. -/
def schemaIn? (table : List ((Nat × String) × CompiledSchema)) (i : Nat) (name : String) :
    Option CompiledSchema :=
  (table.find? (fun s => s.1 = (i, name))).map Prod.snd

theorem schemaIn?_append (more : List ((Nat × String) × CompiledSchema)) (name : String) :
    schemaIn? (table ++ more) i name = (schemaIn? table i name).or (schemaIn? more i name) := by
  rw [schemaIn?, List.find?_append, Option.map_or]
  rfl

theorem schemaIn?_cons_self {s : CompiledSchema} :
    schemaIn? (((i, name), s) :: table) i name = some s := by
  rw [schemaIn?, List.find?_cons_of_pos (by simp)]
  rfl

theorem schemaIn?_cons_of_ne {entry : (Nat × String) × CompiledSchema} (h : entry.1 ≠ (i, name)) :
    schemaIn? (entry :: table) i name = schemaIn? table i name := by
  rw [schemaIn?, List.find?_cons_of_neg (by simpa using h)]
  rfl

theorem schemaIn?_eq_none (h : ∀ s ∈ table, s.1 ≠ (i, name)) : schemaIn? table i name = none := by
  rw [schemaIn?, List.find?_eq_none.mpr fun s hs => by simpa using h s hs]
  rfl

theorem portSchemas_cons_eq_ok (h : portSchemas place id (q :: ports) = .ok table) :
    (q.schema = none ∧ portSchemas place id ports = .ok table) ∨
      ∃ v s more, q.schema = some v ∧ CompiledSchema.compile? v = some s ∧
        portSchemas place id ports = .ok more ∧ table = ((place, q.name), s) :: more := by
  unfold portSchemas at h
  split at h
  · next hnone => exact .inl ⟨hnone, h⟩
  · next v hv =>
    split at h
    · cases h
    · next s hs =>
      cases hr : portSchemas place id ports with
      | error e =>
        rw [hr] at h
        cases h
      | ok more =>
        rw [hr] at h
        cases h
        exact .inr ⟨v, s, more, hv, hs, rfl, rfl⟩

theorem mem_portSchemas (h : portSchemas place id ports = .ok table) :
    ∀ s ∈ table, s.1.1 = place ∧ s.1.2 ∈ ports.map Port.name := by
  induction ports generalizing table with
  | nil =>
    cases h
    exact fun s hs => absurd hs List.not_mem_nil
  | cons p ports ih =>
    rcases portSchemas_cons_eq_ok h with ⟨_, hr⟩ | ⟨_, _, more, _, _, hr, rfl⟩
    · exact fun s hs => (ih hr s hs).imp_right (List.mem_cons_of_mem _)
    · intro s hs
      rcases List.mem_cons.mp hs with rfl | hs
      · exact ⟨rfl, List.mem_cons_self⟩
      · exact (ih hr s hs).imp_right (List.mem_cons_of_mem _)

theorem schemaIn?_portSchemas (hd : (ports.map Port.name).Nodup)
    (h : portSchemas place id ports = .ok table) (hq : q ∈ ports) :
    schemaIn? table place q.name = q.schema.bind CompiledSchema.compile? := by
  induction ports generalizing table with
  | nil => cases hq
  | cons p ports ih =>
    obtain ⟨hp, hd⟩ := List.nodup_cons.mp hd
    rcases portSchemas_cons_eq_ok h with ⟨hnone, hr⟩ | ⟨v, s, more, hv, hs, hr, rfl⟩
    · rcases List.mem_cons.mp hq with rfl | hq
      · rw [hnone, Option.bind_none]
        refine schemaIn?_eq_none fun s hs he => hp ?_
        have hname := (mem_portSchemas hr s hs).2
        rwa [he] at hname
      · exact ih hd hr hq
    · rcases List.mem_cons.mp hq with rfl | hq
      · rw [hv, Option.bind_some, hs, schemaIn?_cons_self]
      · have hne : p.name ≠ q.name := fun he => hp (he ▸ List.mem_map_of_mem hq)
        rw [schemaIn?_cons_of_ne (by simp [hne]), ih hd hr hq]

theorem nodeSchemas_cons_eq_ok (h : nodeSchemas place ((id, n) :: nodes) = .ok table) :
    ∃ first more, portSchemas place id n.ports = .ok first ∧
      nodeSchemas (place + 1) nodes = .ok more ∧ table = first ++ more := by
  simp only [nodeSchemas, bind, Except.bind, pure, Except.pure] at h
  split at h
  · cases h
  · next first hfirst =>
    split at h
    · cases h
    · next more hmore =>
      cases h
      exact ⟨first, more, hfirst, hmore, rfl⟩

theorem mem_nodeSchemas (h : nodeSchemas place nodes = .ok table) :
    ∀ s ∈ table, ∃ k e, nodes[k]? = some e ∧ s.1.1 = place + k ∧ s.1.2 ∈ e.2.ports.map Port.name := by
  induction nodes generalizing place table with
  | nil =>
    cases h
    exact fun s hs => absurd hs List.not_mem_nil
  | cons e nodes ih =>
    obtain ⟨first, more, hfirst, hmore, rfl⟩ := nodeSchemas_cons_eq_ok h
    intro s hs
    rcases List.mem_append.mp hs with hs | hs
    · exact ⟨0, e, rfl, mem_portSchemas hfirst s hs⟩
    · obtain ⟨k, e', hk, hplace, hname⟩ := ih hmore s hs
      exact ⟨k + 1, e', hk, by omega, hname⟩

theorem schemaIn?_nodeSchemas (h : nodeSchemas place nodes = .ok table)
    (hn : nodes[i]? = some (id, n)) (hd : (n.ports.map Port.name).Nodup) (hq : q ∈ n.ports) :
    schemaIn? table (place + i) q.name = q.schema.bind CompiledSchema.compile? := by
  induction nodes generalizing place table i with
  | nil => cases hn
  | cons e nodes ih =>
    obtain ⟨first, more, hfirst, hmore, rfl⟩ := nodeSchemas_cons_eq_ok h
    rw [schemaIn?_append]
    cases i with
    | zero =>
      cases hn
      have hnone : schemaIn? more place q.name = none := schemaIn?_eq_none fun s hs he => by
        obtain ⟨k, _, _, hplace, _⟩ := mem_nodeSchemas hmore s hs
        rw [he] at hplace
        dsimp only at hplace
        omega
      rw [Nat.add_zero, hnone, Option.or_none, schemaIn?_portSchemas hd hfirst hq]
    | succ i =>
      have hnone : schemaIn? first (place + (i + 1)) q.name = none := schemaIn?_eq_none fun s hs he => by
        have heq := (mem_portSchemas hfirst s hs).1
        rw [he] at heq
        dsimp only at heq
        omega
      rw [hnone, Option.none_or, ← Nat.succ_add_eq_add_succ]
      exact ih hmore hn

theorem schemas_eq_of_ofFlow {f : Flow} {p : Plan} (h : ofFlow f = .ok p) :
    nodeSchemas 0 f.nodes = .ok p.schemas := by
  unfold ofFlow at h
  split at h
  · cases h
  · cases hs : nodeSchemas 0 f.nodes with
    | error e =>
      rw [hs] at h
      cases h
    | ok table =>
      rw [hs] at h
      cases h
      rfl

/-- In a plan a port of a node has the schema that it declares. -/
theorem schema?_of_mem {f : Flow} {p : Plan} (h : ofFlow f = .ok p) (hn : f.nodes[i]? = some (id, n))
    (hd : (n.ports.map Port.name).Nodup) (hq : q ∈ n.ports) :
    p.schema? i q.name = q.schema.bind CompiledSchema.compile? := by
  have hschema := schemaIn?_nodeSchemas (schemas_eq_of_ofFlow h) hn hd hq
  rwa [Nat.zero_add] at hschema

end Plan

end Workflow
