import Workflow.Proofs.Run.Consistency

namespace Workflow

/-- What the coordination of a run does: it starts a node that is ready, passes over one that lacks an
input, takes the end of an execution into account, or aborts the run. -/
inductive Move where
  | start (place : Nat) (inputs : Inputs)
  | pass (place : Nat)
  | join (inputs : Inputs) (c : Completion)
  | abort (e : RunError)

namespace Move

def started? : Move → Option Nat
  | start i _ => some i
  | _ => none

def passed? : Move → Option Nat
  | pass i => some i
  | _ => none

/-- The node that is no longer ready. -/
def placed? : Move → Option Nat
  | start i _ => some i
  | pass i => some i
  | _ => none

def ended? : Move → Option Nat
  | pass i => some i
  | join _ c => some c.place
  | _ => none

end Move

/-- A run as its coordination sees it: how far it has come, and the nodes under way with their inputs. -/
structure Coordination where
  progress : Progress
  running : List (Nat × Inputs)

namespace Coordination

variable {p : Plan} {ctx : Context} {inputs : Inputs} {ms : List Move} {m : Move} {c c' : Coordination}

/-- One move of a coordination. Nodes start in the order in which they are ready, unless the run is
stopping; executions end in any order, and are cancelled only when the run is stopping. -/
inductive Step (p : Plan) (ctx : Context) : Coordination → Move → Coordination → Prop where
  | start {s : Progress} {running : List (Nat × Inputs)} {x : Nat × Nat} {rest : List (Nat × Nat)}
      {given : Inputs} (hs : s.isStopping = false) (hr : s.ready = x :: rest)
      (hg : ({ s with ready := rest } : Progress).gather p x.2 = some given) :
      Step p ctx ⟨s, running⟩ (.start x.2 given)
        ⟨{ s with ready := rest }, running ++ [(x.2, given)]⟩
  | pass {s : Progress} {running : List (Nat × Inputs)} {x : Nat × Nat} {rest : List (Nat × Nat)}
      (hs : s.isStopping = false) (hr : s.ready = x :: rest)
      (hg : ({ s with ready := rest } : Progress).gather p x.2 = none) :
      Step p ctx ⟨s, running⟩ (.pass x.2) ⟨({ s with ready := rest } : Progress).skip p x.2, running⟩
  | join {s : Progress} {running : List (Nat × Inputs)} {given : Inputs} {c : Completion}
      (hm : (c.place, given) ∈ running) (hc : c.outcome = .cancelled → s.isStopping = true) :
      Step p ctx ⟨s, running⟩ (.join given c)
        ⟨s.complete p ctx c, running.filter (fun x => x.1 ≠ c.place)⟩
  | abort {s : Progress} {running : List (Nat × Inputs)} {e : RunError} (hr : running ≠ [])
      (ha : s.aborted = false) : Step p ctx ⟨s, running⟩ (.abort e) ⟨s.abort e, running⟩

/-- A run before its first move: its inputs are bound. -/
def opened (p : Plan) (ctx : Context) (inputs : Inputs) : Coordination where
  progress := (Progress.start p).bindInputs p ctx inputs
  running := []

/-- A run comes to a state by moves. -/
inductive Reached (p : Plan) (ctx : Context) (inputs : Inputs) : List Move → Coordination → Prop where
  | opened : Reached p ctx inputs [] (opened p ctx inputs)
  | step {ms : List Move} {m : Move} {c c' : Coordination} (h : Reached p ctx inputs ms c)
      (hs : Step p ctx c m c') : Reached p ctx inputs (ms ++ [m]) c'

/-- No node is under way, and none is to start. -/
def Ended (c : Coordination) : Prop :=
  c.running = [] ∧ (c.progress.ready = [] ∨ c.progress.isStopping = true)

def started (ms : List Move) : List Nat := ms.filterMap Move.started?

def passed (ms : List Move) : List Nat := ms.filterMap Move.passed?

def placed (ms : List Move) : List Nat := ms.filterMap Move.placed?

def ended (ms : List Move) : List Nat := ms.filterMap Move.ended?

theorem placed_concat (ms : List Move) (m : Move) : placed (ms ++ [m]) = placed ms ++ m.placed?.toList := by
  rw [placed, List.filterMap_append, List.filterMap_cons]
  cases m.placed? <;> rfl

theorem ended_concat (ms : List Move) (m : Move) : ended (ms ++ [m]) = ended ms ++ m.ended?.toList := by
  rw [ended, List.filterMap_append, List.filterMap_cons]
  cases m.ended? <;> rfl

theorem placed_perm (ms : List Move) : (placed ms).Perm (started ms ++ passed ms) := by
  induction ms with
  | nil => exact List.Perm.refl _
  | cons m ms ih =>
    cases m with
    | start i given => exact ih.cons i
    | pass i => exact (ih.cons i).trans List.perm_middle.symm
    | join given c => exact ih
    | abort e => exact ih

theorem perm_cons_filter_ne {α : Type} {xs : List (Nat × α)} (hn : (xs.map Prod.fst).Nodup)
    {x : Nat × α} (hx : x ∈ xs) : xs.Perm (x :: xs.filter (fun y => y.1 ≠ x.1)) := by
  induction xs with
  | nil => cases hx
  | cons y ys ih =>
    rw [List.map_cons, List.nodup_cons] at hn
    obtain ⟨hy, hn⟩ := hn
    rcases List.mem_cons.mp hx with rfl | hx
    · have hrest : ys.filter (fun y => y.1 ≠ x.1) = ys := by
        refine List.filter_eq_self.mpr fun z hz => decide_eq_true fun he => hy ?_
        exact he ▸ List.mem_map_of_mem hz
      rw [List.filter_cons_of_neg (by simp), hrest]
    · have hne : y.1 ≠ x.1 := fun he => hy (he ▸ List.mem_map_of_mem hx)
      rw [List.filter_cons_of_pos (by simpa using hne)]
      exact ((ih hn hx).cons y).trans (List.Perm.swap x y _)

theorem running_perm {running : List (Nat × Inputs)} {i : Nat}
    (hn : (running.map Prod.fst).Nodup) (hi : i ∈ running.map Prod.fst) :
    (running.map Prod.fst).Perm (i :: (running.filter (fun x => x.1 ≠ i)).map Prod.fst) := by
  obtain ⟨x, hx, rfl⟩ := List.mem_map.mp hi
  exact (perm_cons_filter_ne hn hx).map Prod.fst

/-- What the moves so far have done to a run. -/
structure Kept (p : Plan) (ms : List Move) (c : Coordination) : Prop where
  consistent : c.progress.Consistent p (c.running.map Prod.fst) (ended ms)
  placed_perm : (placed ms).Perm (c.running.map Prod.fst ++ ended ms)

namespace Kept

theorem running_nodup (h : Kept p ms c) : (c.running.map Prod.fst).Nodup :=
  (List.nodup_append.mp (List.nodup_append.mp h.consistent.counted.nodup).2.1).1

theorem ended_nodup (h : Kept p ms c) : (ended ms).Nodup :=
  (List.nodup_append.mp (List.nodup_append.mp h.consistent.counted.nodup).2.1).2.1

theorem isStopping_eq_false (h : Kept p ms c) (hn : c.progress.failure = none) :
    c.progress.isStopping = false :=
  Bool.eq_false_iff.mpr fun hs => h.consistent.failure_ne_none hs hn

/-- A move that passes over a node, or takes the end of its execution into account, ends the node. -/
theorem ends_pass {s : Progress} {running : List (Nat × Inputs)} {x : Nat × Nat}
    {rest : List (Nat × Nat)} (h : Kept p ms ⟨s, running⟩) (hr : s.ready = x :: rest) :
    ({ s with ready := rest } : Progress).Consistent p (running.map Prod.fst ++ [x.2]) (ended ms) ∧
      ∃ r rs, Progress.Ends p { s with ready := rest } x.2
        (({ s with ready := rest } : Progress).skip p x.2) r rs :=
  ⟨h.consistent.start hr, _, _, Progress.ends_skip x.2⟩

theorem ends_join (ht : p.Tabled) (ctx : Context) {s : Progress} {running : List (Nat × Inputs)}
    {given : Inputs} {c : Completion} (h : Kept p ms ⟨s, running⟩) (hm : (c.place, given) ∈ running)
    (hc : c.outcome = .cancelled → s.isStopping = true) :
    ∃ r rs, Progress.Ends p s c.place (s.complete p ctx c) r rs := by
  obtain ⟨id, n, hn⟩ := Progress.node?_of_lt (h.consistent.lt_of_running (List.mem_map_of_mem hm))
  exact Progress.ends_complete ht hn hc

/-- A move gives results only to links that are pending, and takes only the first of the nodes that are
ready. -/
theorem settling (ht : p.Tabled) (hf : p.flow.Regular) (h : Kept p ms c) (hs : Step p ctx c m c') :
    ∃ log, Progress.Settling p c.progress log m.placed?.toList c'.progress := by
  cases hs with
  | start _ hr _ => exact ⟨[], Progress.Settling.refl.pop hr⟩
  | pass _ hr _ =>
    obtain ⟨hstart, r, rs, hends⟩ := h.ends_pass hr
    have hshared := hstart.settling ht hf (List.mem_append_right _ (List.mem_singleton_self _)) hends
    exact ⟨_, (Progress.Settling.refl.pop hr).trans hshared⟩
  | join hm hc =>
    obtain ⟨r, rs, hends⟩ := h.ends_join ht ctx hm hc
    exact ⟨_, h.consistent.settling ht hf (List.mem_map_of_mem hm) hends⟩
  | abort _ _ => exact ⟨[], Progress.Settling.refl.note rfl rfl rfl⟩

theorem failure (ht : p.Tabled) (h : Kept p ms c) (hs : Step p ctx c m c')
    (hn : c'.progress.failure = none) : c.progress.failure = none := by
  cases hs with
  | start _ _ _ => exact hn
  | pass _ hr _ =>
    obtain ⟨_, r, rs, hends⟩ := h.ends_pass hr
    exact hends.failure hn
  | join hm hc =>
    obtain ⟨r, rs, hends⟩ := h.ends_join ht ctx hm hc
    exact hends.failure hn
  | abort _ _ => exact absurd hn (Progress.fail_failure_ne_none _)

theorem consistent_step (ht : p.Tabled) (hf : p.flow.Regular) (h : Kept p ms c)
    (hs : Step p ctx c m c') :
    c'.progress.Consistent p (c'.running.map Prod.fst) (ended ms ++ m.ended?.toList) := by
  cases hs with
  | start _ hr _ =>
    rw [List.map_append]
    exact (List.append_nil (ended ms)).symm ▸ h.consistent.start hr
  | pass _ hr _ =>
    obtain ⟨hstart, r, rs, hends⟩ := h.ends_pass hr
    exact hstart.ends ht hf (List.perm_append_singleton _ _) hends
  | join hm hc =>
    obtain ⟨r, rs, hends⟩ := h.ends_join ht ctx hm hc
    exact h.consistent.ends ht hf (running_perm h.running_nodup (List.mem_map_of_mem hm)) hends
  | abort _ _ => exact (List.append_nil (ended ms)).symm ▸ h.consistent.abort _

theorem perm_step (h : Kept p ms c) (hs : Step p ctx c m c') :
    (placed ms ++ m.placed?.toList).Perm
      (c'.running.map Prod.fst ++ (ended ms ++ m.ended?.toList)) := by
  have hperm := h.placed_perm
  cases hs with
  | start _ _ _ =>
    refine (hperm.append_right _).trans ?_
    rw [List.map_append, List.append_assoc, List.append_assoc]
    refine List.Perm.append_left _ ?_
    exact (List.append_nil (ended ms)).symm ▸ List.perm_append_comm
  | pass _ _ _ =>
    rw [← List.append_assoc]
    exact hperm.append_right _
  | join hm _ =>
    have hp := running_perm h.running_nodup (List.mem_map_of_mem hm)
    refine (List.append_nil (placed ms) ▸ hperm).trans ((hp.append_right _).trans ?_)
    rw [← List.append_assoc]
    exact (List.perm_append_singleton _ _).symm
  | abort _ _ =>
    refine (List.append_nil (placed ms)).symm ▸ ?_
    exact (List.append_nil (ended ms)).symm ▸ hperm

theorem step (ht : p.Tabled) (hf : p.flow.Regular) (h : Kept p ms c) (hs : Step p ctx c m c') :
    Kept p (ms ++ [m]) c' := by
  refine ⟨?_, ?_⟩
  · rw [ended_concat]
    exact h.consistent_step ht hf hs
  · rw [ended_concat, placed_concat]
    exact h.perm_step hs

end Kept

namespace Reached

theorem kept (ht : p.Tabled) (hf : p.flow.Regular) (h : Reached p ctx inputs ms c) : Kept p ms c := by
  induction h with
  | opened => exact ⟨Progress.consistent_bindInputs ht ctx inputs, List.Perm.refl _⟩
  | step _ hs ih => exact ih.step ht hf hs

theorem settling (ht : p.Tabled) (hf : p.flow.Regular) (h : Reached p ctx inputs ms c) :
    ∃ log, Progress.Settling p (Progress.start p) log (placed ms) c.progress := by
  induction h with
  | opened => exact ⟨_, Progress.settling_bindInputs ht ctx inputs⟩
  | step h hs ih =>
    obtain ⟨log, hlog⟩ := ih
    obtain ⟨more, hmore⟩ := (h.kept ht hf).settling ht hf hs
    rw [placed_concat]
    exact ⟨_, hlog.trans hmore⟩

end Reached

end Coordination

end Workflow
