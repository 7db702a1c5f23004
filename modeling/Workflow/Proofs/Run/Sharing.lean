import Workflow.Proofs.Run.Settling

namespace Workflow.Progress

variable {p : Plan} {s : Progress} {ctx : Context} {inputs : Inputs} {e i : Nat} {gone : List Nat}
variable {rs : List (Nat × Option Json)} {resolve : Link → Nat → Except RunError (Option Json)}

theorem stateOf_ne_pending (v : Option Json) : stateOf v ≠ .pending := by
  cases v <;> simp [stateOf]

/-- Give links results that are known, in order. -/
def settleEach (p : Plan) (s : Progress) (rs : List (Nat × Option Json)) : Progress :=
  rs.foldl (fun s r => s.settle p r.1 (stateOf r.2)) s

@[simp] theorem settleEach_nil : s.settleEach p [] = s := rfl

@[simp] theorem settleEach_cons (r : Nat × Option Json) :
    s.settleEach p (r :: rs) = (s.settle p r.1 (stateOf r.2)).settleEach p rs := rfl

@[simp] theorem settleEach_outputs : (s.settleEach p rs).outputs = s.outputs := by
  induction rs generalizing s with
  | nil => rfl
  | cons r rs ih => rw [settleEach_cons, ih, settle_outputs]

@[simp] theorem settleEach_trace : (s.settleEach p rs).trace = s.trace := by
  induction rs generalizing s with
  | nil => rfl
  | cons r rs ih => rw [settleEach_cons, ih, settle_trace]

@[simp] theorem settleEach_failure : (s.settleEach p rs).failure = s.failure := by
  induction rs generalizing s with
  | nil => rfl
  | cons r rs ih => rw [settleEach_cons, ih, settle_failure]

@[simp] theorem settleEach_aborted : (s.settleEach p rs).aborted = s.aborted := by
  induction rs generalizing s with
  | nil => rfl
  | cons r rs ih => rw [settleEach_cons, ih, settle_aborted]

theorem links_settleEach_of_not_mem (h : e ∉ rs.map Prod.fst) :
    (s.settleEach p rs).links[e]? = s.links[e]? := by
  induction rs generalizing s with
  | nil => rfl
  | cons r rs ih =>
    obtain ⟨hr, hrs⟩ := not_or.mp (List.mem_cons.not.mp h)
    rw [settleEach_cons, ih hrs, settle_links, List.getElem?_set_ne (Ne.symm hr)]

theorem links_settleEach_of_mem (hn : (rs.map Prod.fst).Nodup) {r : Nat × Option Json} (hr : r ∈ rs)
    (hlt : r.1 < s.links.length) : (s.settleEach p rs).links[r.1]? = some (stateOf r.2) := by
  induction rs generalizing s with
  | nil => cases hr
  | cons q rs ih =>
    obtain ⟨hq, hn⟩ := List.nodup_cons.mp hn
    rw [settleEach_cons]
    rcases List.mem_cons.mp hr with rfl | hr
    · rw [links_settleEach_of_not_mem hq, settle_links, List.getElem?_set_self hlt]
    · exact ih hn hr (by rw [settle_links, List.length_set]; exact hlt)

theorem settling_settleEach (ht : p.Tabled) (hc : Counted p s gone) (hn : (rs.map Prod.fst).Nodup)
    (hp : ∀ e ∈ rs.map Prod.fst, s.isPending e = true) :
    Settling p s (rs.map Prod.fst) [] (s.settleEach p rs) := by
  induction rs generalizing s with
  | nil => exact .refl
  | cons r rs ih =>
    obtain ⟨hr, hn⟩ := List.nodup_cons.mp hn
    have hpr := hp r.1 List.mem_cons_self
    have hv := stateOf_ne_pending r.2
    have hpos : ∀ i, p.targetOf? r.1 = some i → 0 < s.waiting.getD i 0 := by
      intro i hi
      rw [hc.getD_waiting hi]
      exact pendingInto_pos ht hpr hi
    have hfirst : Settling p s [r.1] [] (s.settle p r.1 (stateOf r.2)) := Settling.refl.settle hpr hv hpos
    refine hfirst.trans (ih (hc.settle ht hpr hv) hn fun e he => ?_)
    have hne : e ≠ r.1 := fun h => hr (h ▸ he)
    rw [isPending_settle_of_ne hne]
    exact hp e (List.mem_cons_of_mem _ he)

theorem skip_eq (i : Nat) : s.skip p i =
    ({ s with trace := s.trace ++ [⟨p.idOf i, .skipped, 0, none, 0, none⟩] } : Progress).settleEach p
      ((p.outOf i).map (fun e => (e, none))) := by
  rw [skip, settleEach, List.foldl_map]
  rfl

@[simp] theorem settleAll_outputs {es : List Nat} : (s.settleAll p resolve es).outputs = s.outputs := by
  induction es generalizing s with
  | nil => rfl
  | cons e es ih =>
    rw [settleAll]
    split
    · exact ih
    · split
      · rw [ih, settle_outputs]
      · rfl

@[simp] theorem settleAll_aborted {es : List Nat} : (s.settleAll p resolve es).aborted = s.aborted := by
  induction es generalizing s with
  | nil => rfl
  | cons e es ih =>
    rw [settleAll]
    split
    · exact ih
    · split
      · exact ih.trans settle_aborted
      · rfl

@[simp] theorem settleAll_trace {es : List Nat} : (s.settleAll p resolve es).trace = s.trace := by
  induction es generalizing s with
  | nil => rfl
  | cons e es ih =>
    rw [settleAll]
    split
    · exact ih
    · split
      · rw [ih, settle_trace]
      · rfl

/-- Links have results that a rule gives them. -/
def Resolved (p : Plan) (resolve : Link → Nat → Except RunError (Option Json))
    (rs : List (Nat × Option Json)) : Prop :=
  ∀ r ∈ rs, ∃ l, p.flow.links[r.1]? = some l ∧ resolve l r.1 = .ok r.2

/-- Either all links get the results that the rule gives them, or those before the first for which it
fails. -/
theorem settleAll_cases (s : Progress) (resolve : Link → Nat → Except RunError (Option Json))
    {es : List Nat} (hes : ∀ e ∈ es, e < p.flow.links.length) :
    (∃ rs, rs.map Prod.fst = es ∧ Resolved p resolve rs ∧
      s.settleAll p resolve es = s.settleEach p rs) ∨
    (∃ rs e rest l err, es = rs.map Prod.fst ++ e :: rest ∧ Resolved p resolve rs ∧
      p.flow.links[e]? = some l ∧ resolve l e = .error err ∧
      s.settleAll p resolve es = (s.settleEach p rs).fail err) := by
  induction es generalizing s with
  | nil => exact .inl ⟨[], rfl, fun r hr => absurd hr List.not_mem_nil, rfl⟩
  | cons e es ih =>
    obtain ⟨l, hl⟩ : ∃ l, p.flow.links[e]? = some l :=
      ⟨_, List.getElem?_eq_getElem (hes e List.mem_cons_self)⟩
    have hrest : ∀ e ∈ es, e < p.flow.links.length := fun e he => hes e (List.mem_cons_of_mem _ he)
    cases hv : resolve l e with
    | error err =>
      refine .inr ⟨[], e, es, l, err, rfl, fun r hr => absurd hr List.not_mem_nil, hl, hv, ?_⟩
      rw [settleAll, hl]
      simp only [hv, settleEach_nil]
    | ok v =>
      have hstep : s.settleAll p resolve (e :: es) = (s.settle p e (stateOf v)).settleAll p resolve es := by
        rw [settleAll, hl]
        simp only [hv]
      have hcons : ∀ rs, Resolved p resolve rs → Resolved p resolve ((e, v) :: rs) := by
        intro rs hrs r hr
        rcases List.mem_cons.mp hr with rfl | hr
        · exact ⟨l, hl, hv⟩
        · exact hrs r hr
      rcases ih (s.settle p e (stateOf v)) hrest with
        ⟨rs, rfl, hrs, heq⟩ | ⟨rs, e', rest, l', err, rfl, hrs, hl', herr, heq⟩
      · exact .inl ⟨(e, v) :: rs, rfl, hcons rs hrs, hstep.trans heq⟩
      · exact .inr ⟨(e, v) :: rs, e', rest, l', err, rfl, hcons rs hrs, hl', herr, hstep.trans heq⟩

theorem settle_withFailure (f : Option RunError) (v : LinkState) :
    ({ s with failure := f } : Progress).settle p e v = { s.settle p e v with failure := f } := by
  cases h : p.targetOf? e with
  | none => rw [settle_of_none h, settle_of_none h]
  | some i => rw [settle_of_some h, settle_of_some h]

theorem settleEach_withFailure (f : Option RunError) :
    ({ s with failure := f } : Progress).settleEach p rs = { s.settleEach p rs with failure := f } := by
  induction rs generalizing s with
  | nil => rfl
  | cons r rs ih => rw [settleEach_cons, settleEach_cons, settle_withFailure, ih]

/-- All links from the inputs of a run get results, also when one of them fails the run. -/
theorem bindAll_eq {es : List Nat} (hes : ∀ e ∈ es, e < p.flow.links.length) :
    ∃ rs f, rs.map Prod.fst = es ∧
      es.foldl (bindInput p ctx inputs) s = { s.settleEach p rs with failure := f } ∧
      (f = s.failure ∧ Resolved p (bound p ctx inputs) rs ∨
        f.isSome = true ∧ ∃ e ∈ es, ∃ l err, p.flow.links[e]? = some l ∧
          bound p ctx inputs l e = .error err) := by
  induction es generalizing s with
  | nil => exact ⟨[], s.failure, rfl, rfl, .inl ⟨rfl, fun r hr => absurd hr List.not_mem_nil⟩⟩
  | cons e es ih =>
    obtain ⟨l, hl⟩ : ∃ l, p.flow.links[e]? = some l :=
      ⟨_, List.getElem?_eq_getElem (hes e List.mem_cons_self)⟩
    have hrest : ∀ e ∈ es, e < p.flow.links.length := fun e he => hes e (List.mem_cons_of_mem _ he)
    cases hv : bound p ctx inputs l e with
    | ok v =>
      have hstep : bindInput p ctx inputs s e = s.settle p e (stateOf v) := by
        rw [bindInput, hl]
        simp only [hv]
      obtain ⟨rs, f, rfl, heq, hf⟩ := ih (s := s.settle p e (stateOf v)) hrest
      refine ⟨(e, v) :: rs, f, rfl, ?_, ?_⟩
      · rw [List.foldl_cons, hstep, heq, settleEach_cons]
      · refine hf.imp (fun ⟨hs, hrs⟩ => ⟨hs.trans settle_failure, fun r hr => ?_⟩)
          fun ⟨hsome, e', he', herr⟩ => ⟨hsome, e', List.mem_cons_of_mem _ he', herr⟩
        rcases List.mem_cons.mp hr with rfl | hr
        · exact ⟨l, hl, hv⟩
        · exact hrs r hr
    | error err =>
      have hstep : bindInput p ctx inputs s e = (s.fail err).settle p e .empty := by
        rw [bindInput, hl]
        simp only [hv]
      obtain ⟨rs, f, rfl, heq, hf⟩ := ih (s := (s.fail err).settle p e .empty) hrest
      refine ⟨(e, none) :: rs, f, rfl, ?_, .inr ⟨?_, e, List.mem_cons_self, l, err, hl, hv⟩⟩
      · rw [List.foldl_cons, hstep, heq, fail, settle_withFailure, settleEach_withFailure]
        rfl
      · rcases hf with ⟨rfl, _⟩ | hf
        · rw [settle_failure, fail]
          cases s.failure <;> rfl
        · exact hf.1

end Workflow.Progress
