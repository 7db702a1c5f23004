import Workflow.Proofs.Assoc
import Workflow.Proofs.Run.Consistency
import Workflow.Proofs.Run.Conclusion

namespace Workflow.Progress

variable {p : Plan} {s t u : Progress} {ctx : Context} {answer : Answer} {i e : Nat} {id : String}
variable {n : Node}

theorem delivered_congr {links : List Nat} (h : ∀ e ∈ links, t.links[e]? = s.links[e]?) :
    t.delivered p links = s.delivered p links := by
  refine List.foldl_ext _ _ _ fun values e he => ?_
  rw [valueOf?, valueOf?, h e he]

theorem gather_congr (h : ∀ e ∈ p.into i, t.links[e]? = s.links[e]?) : t.gather p i = s.gather p i := by
  rw [gather, gather, delivered_congr h]

/-- What a state tells of a node by its record, if there is one. -/
def keyAt (p : Plan) (ctx : Context) (answer : Answer) (s : Progress) (i : Nat) :
    Option (String × NodeStatus × Nat × Option RunError) :=
  (p.flow.nodes[i]?).map (fun x =>
    let v := conclusion p ctx answer i x.2 (s.gather p i)
    (x.1, v.status, v.attempts, v.error))

def noteAt (p : Plan) (ctx : Context) (answer : Answer) (s : Progress) (outputs : Assoc Json)
    (i : Nat) : Assoc Json :=
  match p.flow.nodes[i]? with
  | some (id, n) => (conclusion p ctx answer i n (s.gather p i)).note id outputs
  | none => outputs

/-- A node has ended as it has to with the inputs that it has in a state: it has not failed, and the
links out of it have what it gives. -/
def Explained (p : Plan) (ctx : Context) (answer : Answer) (s : Progress) (i : Nat) : Prop :=
  ∀ id n, p.flow.nodes[i]? = some (id, n) →
    (conclusion p ctx answer i n (s.gather p i)).status ≠ .failed ∧
      ∀ e ∈ p.outOf i, Shares p (conclusion p ctx answer i n (s.gather p i)).share s e

theorem keyAt_congr (h : t.gather p i = s.gather p i) :
    keyAt p ctx answer t i = keyAt p ctx answer s i := by
  rw [keyAt, keyAt, h]

theorem noteAt_congr {outputs : Assoc Json} (h : t.gather p i = s.gather p i) :
    noteAt p ctx answer t outputs i = noteAt p ctx answer s outputs i := by
  rw [noteAt, noteAt, h]

theorem noteAt_comm (hf : p.flow.Regular) (outputs : Assoc Json) (i j : Nat) :
    noteAt p ctx answer s (noteAt p ctx answer s outputs i) j =
      noteAt p ctx answer s (noteAt p ctx answer s outputs j) i := by
  by_cases hij : i = j
  · rw [hij]
  cases hi : p.flow.nodes[i]? with
  | none => simp only [noteAt, hi]
  | some x =>
    cases hj : p.flow.nodes[j]? with
    | none => simp only [noteAt, hj]
    | some y =>
      have hne : x.1 ≠ y.1 := by
        rw [← idOf_of_node? hi, ← idOf_of_node? hj]
        have hlt := (List.getElem?_eq_some_iff.mp hi).1
        have hlt' := (List.getElem?_eq_some_iff.mp hj).1
        exact fun h => hij (idOf_inj hf hlt hlt' h)
      simp only [noteAt, hi, hj, Conclusion.note]
      cases (conclusion p ctx answer i x.2 (s.gather p i)).output <;>
        cases (conclusion p ctx answer j y.2 (s.gather p j)).output <;>
        simp only [Assoc.insert_comm hne]

theorem Explained.congr (he : Explained p ctx answer s i) (hg : t.gather p i = s.gather p i)
    (h : ∀ e, s.isPending e = false → t.links[e]? = s.links[e]?) : Explained p ctx answer t i := by
  intro id n hn
  obtain ⟨hs, hshares⟩ := he id n hn
  rw [hg]
  exact ⟨hs, fun e hm => (hshares e hm).congr (h e (hshares e hm).isPending_eq_false)⟩

/-- The links from the inputs of the run, the nodes under way and those that have ended are as they have
to be. -/
structure Explains (p : Plan) (ctx : Context) (inputs : Inputs) (answer : Answer) (s : Progress)
    (running : List (Nat × Inputs)) (ended : List Nat) : Prop where
  bound : ∀ e ∈ p.inputLinks, Shares p (bound p ctx inputs) s e
  given : ∀ x ∈ running, s.gather p x.1 = some x.2
  explained : ∀ i ∈ ended, Explained p ctx answer s i
  keys : s.trace.map (fun r => some r.key) = ended.map (keyAt p ctx answer s)
  outputs : s.outputs = ended.foldl (noteAt p ctx answer s) []

variable {inputs : Inputs} {running running' : List (Nat × Inputs)} {ended gone : List Nat}

/-- A node that waits for no link keeps its inputs. -/
theorem gather_eq_of_gone (ht : p.Tabled) (hc : Counted p s gone)
    (hkeep : ∀ e, s.isPending e = false → t.links[e]? = s.links[e]?) (hi : i ∈ gone) :
    t.gather p i = s.gather p i := by
  have hzero := ((hc.mem i).mp (List.mem_append_right _ hi)).2
  refine gather_congr fun e he => hkeep e ?_
  exact (pendingInto_eq_zero_iff ht).mp hzero e ((ht.mem_into i e).mp he)

/-- To end a node as it has to keeps everything explained: links keep their results, so nodes have the
inputs that they had. -/
theorem Explains.ends (ht : p.Tabled) (h : Explains p ctx inputs answer s running ended)
    (hcount : Counted p s gone) (hi : i ∈ gone) (hrunning : running.map Prod.fst ⊆ gone)
    (hended : ended ⊆ gone) (hsub : running' ⊆ running)
    (hkeep : ∀ e, s.isPending e = false → t.links[e]? = s.links[e]?)
    (hn : p.flow.nodes[i]? = some (id, n))
    (hv : (conclusion p ctx answer i n (s.gather p i)).status ≠ .failed)
    (hc : Concludes p s i id (conclusion p ctx answer i n (s.gather p i)) t) (hf : t.failure = none) :
    Explains p ctx inputs answer t running' (ended ++ [i]) := by
  have hgather : ∀ j ∈ gone, t.gather p j = s.gather p j := fun j =>
    gather_eq_of_gone ht hcount hkeep
  have hkeys : ∀ j ∈ ended, keyAt p ctx answer t j = keyAt p ctx answer s j := fun j hj =>
    keyAt_congr (hgather j (hended hj))
  have hnotes : ended.foldl (noteAt p ctx answer t) [] = ended.foldl (noteAt p ctx answer s) [] :=
    List.foldl_ext _ _ _ fun outputs j hj => noteAt_congr (hgather j (hended hj))
  refine ⟨fun e he => ?_, fun x hx => ?_, fun j hj => ?_, ?_, ?_⟩
  · have hb := h.bound e he
    exact hb.congr (hkeep e hb.isPending_eq_false)
  · rw [hgather x.1 (hrunning (List.mem_map_of_mem (hsub hx)))]
    exact h.given x (hsub hx)
  · rcases List.mem_append.mp hj with hj | hj
    · exact (h.explained j hj).congr (hgather j (hended hj)) hkeep
    · rw [List.mem_singleton.mp hj]
      intro id' n' hn'
      cases hn.symm.trans hn'
      rw [hgather i hi]
      exact ⟨hv, hc.shares ht hcount.links_length hf⟩
  · have hkey : keyAt p ctx answer t i = some (id, (conclusion p ctx answer i n (s.gather p i)).status,
        (conclusion p ctx answer i n (s.gather p i)).attempts,
        (conclusion p ctx answer i n (s.gather p i)).error) := by
      rw [keyAt, hn, hgather i hi]
      rfl
    have hmap : ∀ l : List Record, l.map (fun r => some r.key) = (l.map Record.key).map some :=
      fun l => (List.map_map).symm
    rw [List.map_append, List.map_congr_left hkeys, ← h.keys, hmap, hmap, hc.keys_eq, List.map_append,
      List.map_singleton, List.map_singleton, hkey]
  · rw [hc.outputs_eq, List.foldl_append, hnotes, ← h.outputs, List.foldl_cons, List.foldl_nil, noteAt,
      hn, hgather i hi]

/-- The links of a state fit together: each has what the inputs of the run or the end of a node give
it. -/
structure Solves (p : Plan) (ctx : Context) (inputs : Inputs) (answer : Answer) (u : Progress) :
    Prop where
  bound : ∀ e ∈ p.inputLinks, Shares p (Progress.bound p ctx inputs) u e
  explained : ∀ i < p.size, Explained p ctx answer u i

/-- The results that links have are those of another state. -/
def Agrees (p : Plan) (s u : Progress) : Prop :=
  ∀ e < p.flow.links.length, s.isPending e = false → s.links[e]? = u.links[e]?

theorem Agrees.gather_eq (ht : p.Tabled) (h : Agrees p s u) (hc : Counted p s gone) (hi : i ∈ gone) :
    u.gather p i = s.gather p i := by
  have hzero := ((hc.mem i).mp (List.mem_append_right _ hi)).2
  refine gather_congr fun e he => ?_
  have hie := (ht.mem_into i e).mp he
  exact (h e (targetOf?_lt_links hie) ((pendingInto_eq_zero_iff ht).mp hzero e hie)).symm

end Workflow.Progress
