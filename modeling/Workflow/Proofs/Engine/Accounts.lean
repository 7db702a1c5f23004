import Workflow.Proofs.Engine.Attempts
import Workflow.Proofs.Assoc

namespace Workflow

variable {μ : Type}

/-- What the permits of a run are for. -/
def Run.terms (r : Run μ) : Plan × Permits Nat := (r.plan, r.permits)

namespace Schedule

/-- How the execution of a node of a run stands to the permits behind a gate. -/
def standing (s : Schedule μ) (k : Nat × Nat) (g : Gate) : Standing :=
  (s.phase? k).elim .outside (fun phase => phase.standing g)

/-- The name of the permits of a node of a run, and how many of them it declares. -/
def limitAt? (s : Schedule μ) (k : Nat × Nat) : Option (String × Nat) :=
  (s.runs[k.1]?).bind (fun r => r.limitOf? k.2)

/-- How executions stand to the permits of a name, when they stand to permits of nodes in a given way. -/
def standingAt (s : Schedule μ) (σ : Nat × Nat → Gate → Standing) (key : String) (k : Nat × Nat) :
    Standing :=
  if (s.limitAt? k).map Prod.fst = some key then σ k .node else .outside

/-- The permits of an engine are in order when executions stand to them in a given way. Those of a name are
as many as some node declares, and only nodes with a limit are waited for. -/
structure Accounted (c : Config) (caps : String → Nat) (s : Schedule μ)
    (σ : Nat × Nat → Gate → Standing) : Prop where
  runs : ∀ (run : Nat) (r : Run μ), s.runs[run]? = some r →
    r.permits.Balanced (max c.parallel 1) (fun place => σ (run, place) .run)
  limits : ∀ key p, s.limits.get? key = some p → p.Balanced (caps key) (s.standingAt σ key)
  declared : ∀ key p, s.limits.get? key = some p → ∃ k, s.limitAt? k = some (key, caps key)
  opened : ∀ k key max, (s.phase? k).isSome = true → s.limitAt? k = some (key, max) →
    ∃ p, s.limits.get? key = some p
  gated : ∀ k, σ k .node = .waiting → s.limitAt? k ≠ none

/-- The permits are in order when the execution at a place counts as standing to them in a given way,
whatever it is doing. -/
structure Counts (c : Config) (caps : String → Nat) (s : Schedule μ) (k : Nat × Nat)
    (q : Gate → Standing) : Prop where
  accounted : Accounted c caps s (Function.update s.standing k q)
  isSome : (s.phase? k).isSome = true

/-- Permits are the same, and no executions are new. -/
structure SameTerms (s t : Schedule μ) : Prop where
  limits : t.limits = s.limits
  runs : ∀ run : Nat, (t.runs[run]?).map Run.terms = (s.runs[run]?).map Run.terms
  phases : ∀ k, (t.phase? k).isSome = true → (s.phase? k).isSome = true

variable {c : Config} {caps : String → Nat} {s t : Schedule μ} {σ τ : Nat × Nat → Gate → Standing}
variable {run place : Nat} {k : Nat × Nat} {q : Gate → Standing} {key : String} {f : Run μ → Run μ}
variable {x : Execution (World μ)}

theorem standing_eq_waiting_iff {g : Gate} :
    s.standing k g = .waiting ↔ ∃ since, s.phase? k = some (.queued since g false) := by
  rw [standing]
  cases s.phase? k with
  | none => simp
  | some phase => simp [Phase.standing_eq_waiting_iff]

theorem standing_of_phase? {phase : Phase (World μ)} (h : s.phase? k = some phase) :
    s.standing k = phase.standing := by
  funext g
  rw [standing, h]
  rfl

theorem standing_congr (h : t.phase? = s.phase?) : t.standing = s.standing := by
  funext k g
  rw [standing, h]
  rfl

theorem standing_update {phase : Option (Phase (World μ))}
    (h : t.phase? = Function.update s.phase? k phase) :
    t.standing = Function.update s.standing k (fun g => phase.elim .outside (fun p => p.standing g)) := by
  funext j g
  rw [standing, h]
  by_cases hj : j = k
  · rw [hj, Function.update_self, Function.update_self]
  · rw [Function.update_of_ne hj, Function.update_of_ne hj]
    rfl

/-- One that waits at a gate is let in. -/
theorem standing_grant {g : Gate} (h : s.standing k g = .waiting) :
    (s.grant k.1 k.2).standing =
      Function.update s.standing k (Function.update (s.standing k) g .inside) := by
  obtain ⟨since, hphase⟩ := standing_eq_waiting_iff.mp h
  rw [standing_update (phase?_grant k.1 k.2), hphase, standing_of_phase? hphase, ← Phase.standing_granted]
  rfl

theorem limitAt?_congr (h : ∀ run : Nat, (t.runs[run]?).map Run.terms = (s.runs[run]?).map Run.terms)
    (k : Nat × Nat) : t.limitAt? k = s.limitAt? k := by
  have hk := h k.1
  rw [limitAt?, limitAt?]
  cases ht : t.runs[k.1]? with
  | none =>
    cases hs : s.runs[k.1]? with
    | none => rfl
    | some r => simp [ht, hs] at hk
  | some r' =>
    cases hs : s.runs[k.1]? with
    | none => simp [ht, hs] at hk
    | some r =>
      simp only [ht, hs, Option.map_some, Option.some.injEq, Run.terms, Prod.mk.injEq] at hk
      rw [Option.bind_some, Option.bind_some, Run.limitOf?, Run.limitOf?, Run.node?, Run.node?, hk.1]

theorem terms_change (hf : ∀ r, (f r).terms = r.terms) (i : Nat) :
    ((s.change run f).runs[i]?).map Run.terms = (s.runs[i]?).map Run.terms := by
  rw [change, List.getElem?_modify]
  cases s.runs[i]? with
  | none => rfl
  | some r =>
    by_cases hi : run = i
    · simp [hi, hf]
    · simp [hi]

namespace SameTerms

theorem refl (s : Schedule μ) : SameTerms s s := ⟨rfl, fun _ => rfl, fun _ h => h⟩

theorem wake (s : Schedule μ) (job : Job) : SameTerms s (s.wake job) := by
  unfold Schedule.wake
  split
  · exact refl s
  · exact ⟨rfl, fun _ => rfl, fun _ h => h⟩

theorem put (s : Schedule μ) (run : Nat) (x : Execution (World μ)) : SameTerms s (s.put run x) := by
  refine ⟨rfl, terms_change fun _ => rfl, fun k hk => ?_⟩
  rw [phase?_put] at hk
  by_cases hk' : k = (run, x.place)
  · rw [hk', Function.update_self, Option.isSome_map] at hk
    exact hk' ▸ hk
  · rwa [Function.update_of_ne hk'] at hk

theorem grant (s : Schedule μ) (run place : Nat) : SameTerms s (s.grant run place) := by
  refine ⟨(wake _ _).limits, fun i => ?_, fun k hk => phase?_grant_isSome.symm.trans hk⟩
  rw [Schedule.grant, (wake _ _).runs]
  refine terms_change (fun r => ?_) i
  rfl

end SameTerms

theorem standingAt_of_ne_outside (h : s.standingAt σ key k ≠ .outside) :
    (∃ max, s.limitAt? k = some (key, max)) ∧ s.standingAt σ key k = σ k .node := by
  unfold standingAt at h ⊢
  split at h
  · next hk =>
    obtain ⟨⟨_, max⟩, hlimit, rfl⟩ := Option.map_eq_some_iff.mp hk
    exact ⟨⟨max, hlimit⟩, if_pos hk⟩
  · exact absurd rfl h

theorem standingAt_of_limitAt? {max : Nat} (h : s.limitAt? k = some (key, max)) :
    s.standingAt σ key k = σ k .node := by
  rw [standingAt, h]
  exact if_pos rfl

theorem standingAt_update {max : Nat} (h : s.limitAt? k = some (key, max)) :
    s.standingAt (Function.update σ k q) key = Function.update (s.standingAt σ key) k (q .node) := by
  funext j
  by_cases hj : j = k
  · rw [hj, standingAt_of_limitAt? h, Function.update_self, Function.update_self]
  · rw [standingAt, Function.update_of_ne hj, Function.update_of_ne hj, standingAt]

theorem standing_update_run (run place : Nat) :
    (fun i => Function.update σ (run, place) q (run, i) .run) =
      Function.update (fun i => σ (run, i) .run) place (q .run) := by
  funext i
  by_cases hi : i = place
  · rw [hi, Function.update_self, Function.update_self]
  · rw [Function.update_of_ne hi, Function.update_of_ne fun he => hi (Prod.mk.inj he).2]

theorem update_apply_eq {g : Gate} {j : Nat × Nat} (hq : j = k → q g = σ k g) :
    Function.update σ k q j g = σ j g := by
  by_cases hj : j = k
  · rw [hj, Function.update_self, hq hj]
  · rw [Function.update_of_ne hj]

theorem update_apply_congr {σ σ' : Nat × Nat → Gate → Standing} {q q' : Gate → Standing} {g : Gate}
    {j : Nat × Nat} (hσ : j ≠ k → σ' j g = σ j g) (hq : j = k → q' g = q g) :
    Function.update σ' k q' j g = Function.update σ k q j g := by
  by_cases hj : j = k
  · rw [hj, Function.update_self, Function.update_self, hq hj]
  · rw [Function.update_of_ne hj, Function.update_of_ne hj, hσ hj]

namespace Accounted

/-- Permits stay in order while they are the same, and executions that are new find theirs. -/
theorem of_terms (h : Accounted c caps s σ) (hl : t.limits = s.limits)
    (ht : ∀ run : Nat, (t.runs[run]?).map Run.terms = (s.runs[run]?).map Run.terms)
    (ho : ∀ k key max, (t.phase? k).isSome = true → s.limitAt? k = some (key, max) →
      ∃ p, s.limits.get? key = some p) : Accounted c caps t σ := by
  have hlimit := limitAt?_congr ht
  have hat : ∀ key, t.standingAt σ key = s.standingAt σ key := by
    intro key
    funext k
    rw [standingAt, standingAt, hlimit]
  refine ⟨fun run r hr => ?_, fun key p hp => ?_, fun key p hp => ?_, fun k key max hk hmax => ?_,
    fun k hk => ?_⟩
  · have hterms := ht run
    rw [hr] at hterms
    obtain ⟨r', hr', heq⟩ := Option.map_eq_some_iff.mp hterms.symm
    have hpermits : r'.permits = r.permits := congrArg Prod.snd heq
    exact hpermits ▸ h.runs run r' hr'
  · rw [hat]
    exact h.limits key p (hl ▸ hp)
  · obtain ⟨k, hk⟩ := h.declared key p (hl ▸ hp)
    exact ⟨k, (hlimit k).trans hk⟩
  · rw [hl]
    exact ho k key max hk ((hlimit k).symm.trans hmax)
  · rw [hlimit]
    exact h.gated k hk

theorem congr (h : Accounted c caps s σ) (ht : SameTerms s t) : Accounted c caps t σ :=
  h.of_terms ht.limits ht.runs fun k key max hk hmax => h.opened k key max (ht.phases k hk) hmax

/-- How those stand who need no permit of their node does not matter, but they do not wait for it. -/
theorem of_unlimited (h : Accounted c caps s σ) (hrun : ∀ k, τ k .run = σ k .run)
    (hnode : ∀ k, τ k .node = σ k .node ∨ s.limitAt? k = none ∧ τ k .node ≠ .waiting) :
    Accounted c caps s τ := by
  refine ⟨fun run r hr => (h.runs run r hr).congr fun _ => hrun _,
    fun key p hp => (h.limits key p hp).congr fun k => ?_, h.declared, h.opened, fun k hk => ?_⟩
  · unfold standingAt
    split
    · next hk =>
      refine (hnode k).resolve_right fun hnone => ?_
      rw [hnone.1] at hk
      cases hk
    · rfl
  · rcases hnode k with hsame | ⟨-, hnot⟩
    · exact h.gated k (hsame ▸ hk)
    · exact absurd hk hnot

/-- The permits of a name change, with those who stand to them. -/
theorem of_limit {p p' : Permits (Nat × Nat)} (h : Accounted c caps s σ)
    (hp : s.limits.get? key = some p) (hb : p'.Balanced (caps key) (s.standingAt τ key))
    (hrun : ∀ k, τ k .run = σ k .run)
    (hnode : ∀ k, (s.limitAt? k).map Prod.fst ≠ some key → τ k .node = σ k .node) :
    Accounted c caps { s with limits := s.limits.insert key p' } τ := by
  refine ⟨fun run r hr => (h.runs run r hr).congr fun _ => hrun _, fun other p'' hp'' => ?_,
    fun other p'' hp'' => ?_, fun k other max hk hmax => ?_, fun k hk => ?_⟩
  · change p''.Balanced (caps other) (s.standingAt τ other)
    rw [Assoc.get?_insert] at hp''
    split at hp''
    · next he =>
      cases hp''
      exact he ▸ hb
    · next hne =>
      refine (h.limits other p'' hp'').congr fun k => ?_
      unfold standingAt
      split
      · next hk => exact hnode k fun hk' => hne (Option.some.inj (hk'.symm.trans hk))
      · rfl
  · rw [Assoc.get?_insert] at hp''
    split at hp''
    · next he => exact he ▸ h.declared key p hp
    · exact h.declared other p'' hp''
  · obtain ⟨p'', hp''⟩ := h.opened k other max hk hmax
    rw [Assoc.get?_insert]
    split
    · exact ⟨p', rfl⟩
    · exact ⟨p'', hp''⟩
  · intro hnone
    have hsame : τ k .node = σ k .node := hnode k (by rw [show s.limitAt? k = none from hnone]; simp)
    exact h.gated k (hsame ▸ hk) hnone

theorem phase?_permits (run : Nat) (g : Permits Nat → Permits Nat) :
    (s.change run (fun r => { r with permits := g r.permits })).phase? = s.phase? :=
  phase?_change_same fun _ => rfl

/-- The permits of a run change, with those who stand to them. -/
theorem of_permits {r : Run μ} (g : Permits Nat → Permits Nat) (h : Accounted c caps s σ)
    (hr : s.runs[run]? = some r)
    (hb : (g r.permits).Balanced (max c.parallel 1) (fun place => τ (run, place) .run))
    (hrun : ∀ k, k.1 ≠ run → τ k .run = σ k .run) (hnode : ∀ k, τ k .node = σ k .node) :
    Accounted c caps (s.change run (fun r => { r with permits := g r.permits })) τ := by
  have hlimit : ∀ k, (s.change run (fun r => { r with permits := g r.permits })).limitAt? k =
      s.limitAt? k := by
    intro k
    rw [limitAt?, limitAt?, change, List.getElem?_modify]
    cases s.runs[k.1]? with
    | none => rfl
    | some r' => by_cases hi : run = k.1 <;> simp [hi, Run.limitOf?, Run.node?]
  refine ⟨fun i r' hr' => ?_, fun key p hp => (h.limits key p hp).congr fun k => ?_,
    fun key p hp => ?_, fun k key max hk hmax => ?_, fun k hk => ?_⟩
  · rw [change, List.getElem?_modify] at hr'
    by_cases hi : run = i
    · subst hi
      rw [hr] at hr'
      simp only [if_pos, Option.map_eq_map, Option.map_some, Option.some.injEq] at hr'
      subst hr'
      exact hb
    · simp only [if_neg hi, Option.map_eq_map, Option.map_id_fun', id] at hr'
      exact (h.runs i r' hr').congr fun _ => hrun _ (Ne.symm hi)
  · rw [standingAt, standingAt, hlimit, hnode]
  · obtain ⟨k, hk⟩ := h.declared key p hp
    exact ⟨k, (hlimit k).trans hk⟩
  · exact h.opened k key max (phase?_permits run g ▸ hk) ((hlimit k).symm.trans hmax)
  · rw [hlimit]
    exact h.gated k (hnode k ▸ hk)

end Accounted

namespace Counts

theorem congr (h : Counts c caps s k q) {q' : Gate → Standing} (hq : ∀ g, q' g = q g) :
    Counts c caps s k q' := (funext hq : q' = q) ▸ h

theorem of_phase? {phase : Phase (World μ)} (h : Accounted c caps s s.standing)
    (hk : s.phase? k = some phase) : Counts c caps s k phase.standing := by
  refine ⟨?_, hk ▸ rfl⟩
  rw [← standing_of_phase? hk, Function.update_eq_self]
  exact h

/-- How an execution stands to the permits of its node does not matter when its node has no limit. -/
theorem unlimited (h : Counts c caps s k q) (hnone : s.limitAt? k = none) {v : Standing}
    (hv : v ≠ .waiting) : Counts c caps s k (Function.update q .node v) := by
  refine ⟨h.accounted.of_unlimited (fun j => ?_) (fun j => ?_), h.isSome⟩
  · exact update_apply_congr (fun _ => rfl) fun _ => Function.update_of_ne (by decide) _ _
  · by_cases hj : j = k
    · subst hj
      rw [Function.update_self, Function.update_self]
      exact .inr ⟨hnone, hv⟩
    · rw [Function.update_of_ne hj, Function.update_of_ne hj]
      exact .inl rfl

theorem exists_limit {max : Nat} (h : Counts c caps s k q) (hlimit : s.limitAt? k = some (key, max)) :
    ∃ p, s.limits.get? key = some p ∧
      p.Balanced (caps key) (Function.update (s.standingAt s.standing key) k (q .node)) := by
  obtain ⟨p, hp⟩ := h.accounted.opened k key max h.isSome hlimit
  exact ⟨p, hp, standingAt_update hlimit ▸ h.accounted.limits key p hp⟩

/-- The permits of a name change, with how the execution stands to them. -/
theorem of_limit {max : Nat} {p p' : Permits (Nat × Nat)} {v : Standing} (h : Counts c caps s k q)
    (hlimit : s.limitAt? k = some (key, max)) (hp : s.limits.get? key = some p)
    (hb : p'.Balanced (caps key) (Function.update (s.standingAt s.standing key) k v)) :
    Counts c caps { s with limits := s.limits.insert key p' } k (Function.update q .node v) := by
  refine ⟨h.accounted.of_limit hp ?_ (fun j => ?_) fun j hj => ?_, h.isSome⟩
  · rw [standingAt_update hlimit, Function.update_self]
    exact hb
  · exact update_apply_congr (fun _ => rfl) fun _ => Function.update_of_ne (by decide) _ _
  · refine update_apply_congr (fun _ => rfl) fun he => absurd ?_ hj
    rw [he, hlimit]
    rfl

/-- A permit of the node is given back. -/
theorem releaseLimit (h : Counts c caps s (run, place) q) (hq : q .node = .inside) :
    Counts c caps (s.releaseLimit run place) (run, place) (Function.update q .node .outside) := by
  unfold Schedule.releaseLimit
  split
  · next hnone => exact h.unlimited hnone (by decide)
  · next key max hlimit =>
    change s.limitAt? (run, place) = some (key, max) at hlimit
    obtain ⟨p, hp, hb⟩ := h.exists_limit hlimit
    rw [hq] at hb
    rw [hp, Option.getD_some]
    rcases hrelease : p.release with ⟨_ | other, p'⟩
    · have hb' := hb.release_none (Function.update_self ..) hrelease
      rw [Function.update_idem] at hb'
      exact h.of_limit hlimit hp hb'
    · obtain ⟨hwaits, hb'⟩ := hb.release_some (Function.update_self ..) hrelease
      rw [Function.update_idem] at hb'
      -- the next in line is another one, which has the permits of the same name
      have hne : other ≠ (run, place) := by
        rintro rfl
        rw [Function.update_self] at hwaits
        cases hwaits
      rw [Function.update_of_ne hne] at hwaits
      obtain ⟨⟨m, hlimit'⟩, hstands⟩ := standingAt_of_ne_outside (by rw [hwaits]; decide)
      have hgrant := standing_grant (s := { s with limits := s.limits.insert key p' })
        (hstands.symm.trans hwaits)
      refine ⟨?_, phase?_grant_isSome.trans h.isSome⟩
      rw [hgrant]
      refine (h.accounted.of_limit hp ?_ (fun k => ?_) fun k hk => ?_).congr (SameTerms.grant _ _ _)
      · rw [standingAt_update hlimit, standingAt_update hlimit', Function.update_self,
          Function.update_self, Function.update_comm hne]
        exact hb'
      · exact update_apply_congr
          (fun _ => update_apply_eq fun _ => Function.update_of_ne (by decide) _ _)
          fun _ => Function.update_of_ne (by decide) _ _
      · refine update_apply_congr (fun _ => update_apply_eq fun he => absurd ?_ hk) fun he => absurd ?_ hk
        · rw [he, hlimit']
          rfl
        · rw [he, hlimit]
          rfl

/-- The permits of a run change, with how the execution stands to them. -/
theorem of_permits {r : Run μ} (g : Permits Nat → Permits Nat) (h : Counts c caps s (run, place) q)
    (hr : s.runs[run]? = some r) {v : Standing}
    (hb : (g r.permits).Balanced (max c.parallel 1)
      (Function.update (fun i => s.standing (run, i) .run) place v)) :
    Counts c caps (s.change run (fun r => { r with permits := g r.permits })) (run, place)
      (Function.update q .run v) := by
  refine ⟨?_, by rw [Accounted.phase?_permits run g, h.isSome]⟩
  rw [standing_congr (Accounted.phase?_permits run g)]
  refine h.accounted.of_permits g hr ?_ (fun k hk => ?_) fun k => ?_
  · rw [standing_update_run, Function.update_self]
    exact hb
  · exact update_apply_congr (fun _ => rfl) fun he => absurd (congrArg Prod.fst he) hk
  · exact update_apply_congr (fun _ => rfl) fun _ => Function.update_of_ne (by decide) _ _

theorem exists_run (h : Counts c caps s (run, place) q) : ∃ r, s.runs[run]? = some r ∧
    r.permits.Balanced (max c.parallel 1)
      (Function.update (fun i => s.standing (run, i) .run) place (q .run)) := by
  cases hr : s.runs[run]? with
  | none =>
    have hsome := h.isSome
    rw [phase?, hr] at hsome
    cases hsome
  | some r =>
    refine ⟨r, rfl, ?_⟩
    rw [← standing_update_run]
    exact h.accounted.runs run r hr

/-- A permit of the run is given back. -/
theorem releaseRun (h : Counts c caps s (run, place) q) (hq : q .run = .inside) :
    Counts c caps (s.releaseRun run) (run, place) (Function.update q .run .outside) := by
  obtain ⟨r, hr, hb⟩ := h.exists_run
  rw [hq] at hb
  rw [Schedule.releaseRun, hr]
  dsimp only
  rcases hrelease : r.permits.release with ⟨_ | other, permits⟩
  · have hb' := hb.release_none (Function.update_self ..) hrelease
    rw [Function.update_idem] at hb'
    exact h.of_permits (fun _ => permits) hr hb'
  · obtain ⟨hwaits, hb'⟩ := hb.release_some (Function.update_self ..) hrelease
    rw [Function.update_idem] at hb'
    -- the next in line is another node of the run
    have hne : other ≠ place := by
      rintro rfl
      rw [Function.update_self] at hwaits
      cases hwaits
    rw [Function.update_of_ne hne] at hwaits
    have hphase := Accounted.phase?_permits (s := s) run fun _ => permits
    have hgrant := standing_grant (k := (run, other)) ((congrFun₂ (standing_congr hphase) _ _).trans hwaits)
    rw [standing_congr hphase] at hgrant
    refine ⟨?_, (phase?_grant_isSome.trans (by rw [hphase])).trans h.isSome⟩
    rw [hgrant]
    refine (h.accounted.of_permits (fun _ => permits) hr ?_ (fun k hk => ?_) fun k => ?_).congr
      (SameTerms.grant _ _ _)
    · rw [standing_update_run, standing_update_run, Function.update_self, Function.update_self,
        Function.update_comm hne]
      exact hb'
    · exact update_apply_congr (fun _ => update_apply_eq fun he => absurd (congrArg Prod.fst he) hk)
        fun he => absurd (congrArg Prod.fst he) hk
    · exact update_apply_congr (fun _ => update_apply_eq fun _ => Function.update_of_ne (by decide) _ _)
        fun _ => Function.update_of_ne (by decide) _ _

/-- One no longer waits for a permit of its node. -/
theorem leaveLimit (h : Counts c caps s (run, place) q) (hq : q .node = .waiting) :
    Counts c caps (s.leaveLimit run place) (run, place) (Function.update q .node .outside) := by
  unfold Schedule.leaveLimit
  split
  · next hnone => exact h.unlimited hnone (by decide)
  · next key max hlimit =>
    obtain ⟨p, hp, hb⟩ := h.exists_limit hlimit
    rw [hq] at hb
    have hb' := hb.leave (Function.update_self ..)
    rw [Function.update_idem] at hb'
    rw [hp, Option.getD_some]
    exact h.of_limit hlimit hp hb'

/-- One no longer waits for a permit of its run. -/
theorem leaveRun (h : Counts c caps s (run, place) q) (hq : q .run = .waiting) :
    Counts c caps (s.leaveRun run place) (run, place) (Function.update q .run .outside) := by
  obtain ⟨r, hr, hb⟩ := h.exists_run
  rw [hq] at hb
  have hb' := hb.leave (Function.update_self ..)
  rw [Function.update_idem] at hb'
  exact h.of_permits (fun p => p.leave place) hr hb'

end Counts

end Schedule

end Workflow
