import Workflow.Proofs.Engine.Accounts
import Workflow.Proofs.Engine.Refinement

namespace Workflow

variable {μ : Type}

namespace Schedule

variable {c : Config} {caps : String → Nat} {s t u : Schedule μ} {run place since number : Nat}
variable {k : Nat × Nat} {q : Gate → Standing} {f : Run μ → Run μ} {x : Execution (World μ)}
variable {b : Backoff} {site : Site μ} {slot : Option Slot}

/-- The permits of an engine are in order when executions stand to them as their phases say. -/
def InOrder (c : Config) (caps : String → Nat) (s : Schedule μ) : Prop := Accounted c caps s s.standing

/-- Neither permits nor executions change. -/
structure Still (s t : Schedule μ) : Prop where
  limits : t.limits = s.limits
  runs : ∀ run : Nat, (t.runs[run]?).map Run.terms = (s.runs[run]?).map Run.terms
  phases : t.phase? = s.phase?

namespace Still

theorem refl (s : Schedule μ) : Still s s := ⟨rfl, fun _ => rfl, rfl⟩

theorem trans (h : Still s t) (h' : Still t u) : Still s u :=
  ⟨h'.limits.trans h.limits, fun run => (h'.runs run).trans (h.runs run), h'.phases.trans h.phases⟩

theorem of_eq (hl : t.limits = s.limits) (hr : t.runs = s.runs) : Still s t :=
  ⟨hl, fun _ => by rw [hr], phase?_congr hr⟩

theorem sameTerms (h : Still s t) : SameTerms s t := ⟨h.limits, h.runs, fun _ hk => h.phases ▸ hk⟩

theorem wake (s : Schedule μ) (job : Job) : Still s (s.wake job) :=
  ⟨(SameTerms.wake s job).limits, (SameTerms.wake s job).runs, phase?_wake job⟩

theorem change (s : Schedule μ) (run : Nat) (ht : ∀ r, (f r).terms = r.terms)
    (hx : ∀ r, (f r).executions = r.executions) : Still s (s.change run f) :=
  ⟨rfl, terms_change ht, phase?_change_same hx⟩

theorem stopNodes (s : Schedule μ) (run : Nat) : Still s (s.stopNodes run) := by
  unfold Schedule.stopNodes
  split
  · exact refl s
  · split
    · exact refl s
    · refine List.foldlRecOn (motive := fun t => Still s t) _ _ ?_ fun t ht i _ => ht.trans (wake t _)
      exact change s run (fun _ => rfl) fun _ => rfl

theorem cancel (s : Schedule μ) (traceId : String) : Still s (s.cancel traceId).2 := by
  unfold Schedule.cancel
  refine List.foldlRecOn (motive := fun t => Still s t) _ _ (refl s) fun t ht i _ => ?_
  split
  · exact ht
  · have hchange : Still (t.stopNodes i)
        ((t.stopNodes i).change i (fun r => { r with cancelled := true })) :=
      change _ i (fun _ => rfl) fun _ => rfl
    exact ((ht.trans (stopNodes t i)).trans hchange).trans (wake _ _)

theorem close (s : Schedule μ) (run : Nat) (r : Run μ) : Still s (s.close run r) := by
  have hchange : Still s (s.change run (fun r => { r with ended := true })) :=
    change s run (fun _ => rfl) fun _ => rfl
  exact hchange.trans (of_eq rfl rfl)

theorem abort (s : Schedule μ) (run : Nat) (err : RunError) : Still s (s.abort run err) := by
  have hchange : Still s (s.change run (fun r => { r with progress := r.progress.abort err })) :=
    change s run (fun _ => rfl) fun _ => rfl
  exact hchange.trans (stopNodes _ run)

theorem look (s : Schedule μ) (run : Nat) (r : Run μ) : Still s (s.look run r) := by
  have hchange : ∀ progress finished, Still s (s.change run (fun r => { r with progress, finished })) :=
    fun _ _ => change s run (fun _ => rfl) fun _ => rfl
  have halarm : ∀ alarm, Still s (s.change run (fun r => { r with alarm })) :=
    fun _ => change s run (fun _ => rfl) fun _ => rfl
  unfold Schedule.look
  split
  · exact abort s run _
  · split
    · exact abort s run _
    · split
      · dsimp only
        split
        · exact (hchange _ _).trans (stopNodes _ run)
        · exact hchange _ _
      · split
        · exact refl s
        · exact (halarm _).trans (of_eq rfl rfl)

end Still

theorem InOrder.still (h : InOrder c caps s) (ht : Still s t) : InOrder c caps t := by
  rw [InOrder, standing_congr ht.phases]
  exact Accounted.congr h ht.sameTerms

namespace Counts

theorem still (h : Counts c caps s k q) (ht : Still s t) : Counts c caps t k q := by
  refine ⟨?_, by rw [ht.phases, h.isSome]⟩
  rw [standing_congr ht.phases]
  exact h.accounted.congr ht.sameTerms

theorem releaseAll (h : Counts c caps s (run, x.place) x.phase.standing) :
    Counts c caps (s.releaseAll run x) (run, x.place) (fun _ => .outside) := by
  unfold Schedule.releaseAll
  split
  · next hx => exact h.congr fun g => by rw [hx]; rfl
  · next since granted hx =>
    rw [hx] at h
    cases granted with
    | true => exact (h.releaseLimit rfl).congr fun g => by cases g <;> rfl
    | false => exact (h.leaveLimit rfl).congr fun g => by cases g <;> rfl
  · next since granted hx =>
    rw [hx] at h
    cases granted with
    | true => exact ((h.releaseRun rfl).releaseLimit rfl).congr fun g => by cases g <;> rfl
    | false => exact ((h.leaveRun rfl).releaseLimit rfl).congr fun g => by cases g <;> rfl
  · next hfresh hnode hrun =>
    have hinside : ∀ g, x.phase.standing g = .inside := by
      intro g
      cases hx : x.phase with
      | fresh => exact absurd hx hfresh
      | queued since gate granted =>
        cases gate with
        | node => exact absurd hx (hnode since granted)
        | run => exact absurd hx (hrun since granted)
      | attempting | pausing => rfl
    refine ((h.releaseLimit (hinside _)).releaseRun ?_).congr fun g => by cases g <;> rfl
    exact (Function.update_of_ne (by decide) _ _).trans (hinside _)

/-- An execution that ends leaves the permits in order, whatever it was doing. -/
theorem finish (h : Counts c caps s (run, x.place) x.phase.standing) (outcome : Outcome)
    (attempts : Nat) (started : Bool) (since : Nat) :
    InOrder c caps (s.finish run x outcome attempts started since) := by
  have hphase := phase?_finish (s := s) run x outcome attempts started since
  have hterms : SameTerms (s.releaseAll run x) (s.finish run x outcome attempts started since) := by
    refine ⟨(SameTerms.wake _ _).limits, fun i => ((SameTerms.wake _ _).runs i).trans ?_, fun k hk => ?_⟩
    · refine terms_change (fun r => ?_) i
      rfl
    · rw [hphase] at hk
      by_cases hk' : k = (run, x.place)
      · rw [hk', Function.update_self] at hk
        cases hk
      · rwa [Function.update_of_ne hk'] at hk
  rw [InOrder, standing_update hphase]
  exact h.releaseAll.accounted.congr hterms

theorem finishCancelled (h : Counts c caps s (run, x.place) x.phase.standing) :
    InOrder c caps (s.finishCancelled run x) := by
  unfold Schedule.finishCancelled
  split
  all_goals exact h.finish ..

theorem put (h : Counts c caps s (run, x.place) x.phase.standing) : InOrder c caps (s.put run x) := by
  obtain ⟨phase, hphase⟩ := Option.isSome_iff_exists.mp h.isSome
  rw [InOrder, standing_update (phase?_put run x), hphase]
  exact h.accounted.congr (.put s run x)

/-- An execution that makes attempts has its permits until it ends. -/
theorem tried {n : Nat} (h : Counts c caps s (run, x.place) fun _ => .inside) (ht : Tried s run x n t) :
    InOrder c caps t := by
  cases ht with
  | ended world phase hphase =>
    exact finish (x := { x with phase }) (hphase ▸ h.still (.of_eq rfl rfl)) ..
  | rests world phase hphase _ order waitOrder =>
    have hput : InOrder c caps (({ s with world } : Schedule μ).put run { x with phase, waitOrder }) :=
      put (x := { x with phase, waitOrder }) (hphase ▸ h.still (.of_eq rfl rfl))
    exact hput.still (.of_eq rfl rfl)

theorem enterRun (h : Counts c caps s (site.run, x.place) q) (hnode : q .node = .inside)
    (hrun : q .run = .outside) : InOrder c caps (Schedule.enterRun b site x since s) := by
  obtain ⟨r, hr, hb⟩ := h.exists_run
  rw [hrun] at hb
  rw [Schedule.enterRun, hr]
  dsimp only
  rcases hacquire : r.permits.acquire x.place with ⟨_ | _, permits⟩
  · have hb' := hb.acquire_queued (Function.update_self ..) hacquire
    rw [Function.update_idem] at hb'
    refine Counts.put (x := { x with phase := .queued since .run false })
      ((h.of_permits (fun _ => permits) hr hb').congr fun g => ?_)
    cases g
    · exact hnode.symm
    · rfl
  · have hb' := hb.acquire_taken (Function.update_self ..) hacquire
    rw [Function.update_idem] at hb'
    refine tried ((h.of_permits (fun _ => permits) hr hb').congr fun g => ?_) .begin
    cases g
    · exact hnode.symm
    · rfl

theorem enter (h : Counts c caps s (site.run, x.place) fun _ => .outside) :
    InOrder c caps (Schedule.enter b site x s) := by
  have h := h.still (t := { s with order := s.order + 1 }) (.of_eq rfl rfl)
  unfold Schedule.enter
  dsimp only
  split
  · next hnone =>
    exact enterRun (x := { x with waitOrder := s.order }) (h.unlimited hnone (v := .inside) (by decide)) rfl rfl
  · next key max hlimit =>
    obtain ⟨p, hp, hb⟩ := h.exists_limit hlimit
    change s.limits.get? key = some p at hp
    rw [hp, Option.getD_some]
    rcases hacquire : p.acquire (site.run, x.place) with ⟨_ | _, p'⟩
    · have hb' := hb.acquire_queued (Function.update_self ..) hacquire
      rw [Function.update_idem] at hb'
      refine Counts.put (x := { x with phase := .queued s.now .node false, waitOrder := s.order })
        ((h.of_limit hlimit hp hb').congr fun g => ?_)
      cases g <;> rfl
    · have hb' := hb.acquire_taken (Function.update_self ..) hacquire
      rw [Function.update_idem] at hb'
      exact enterRun (x := { x with waitOrder := s.order }) (h.of_limit hlimit hp hb') rfl rfl

theorem rested (h : Counts c caps s (run, x.place) fun _ => .inside) (hs : InOrder c caps s)
    (ht : Rested s run x t) : InOrder c caps t ∧ Counts c caps t (run, x.place) fun _ => .inside := by
  cases ht with
  | still => exact ⟨hs, h⟩
  | again world phase hphase order =>
    have hcounts : Counts c caps ({ s with world } : Schedule μ) (run, x.place) phase.standing :=
      hphase ▸ h.still (.of_eq rfl rfl)
    have hput := put (x := { x with phase }) hcounts
    have hat := of_phase? hput (phase?_put_of_isSome (x := { x with phase }) hcounts.isSome)
    exact ⟨hput.still (.of_eq rfl rfl), hphase ▸ hat.still (.of_eq rfl rfl)⟩

end Counts

namespace InOrder

theorem turnNode (h : InOrder c caps s) (run place : Nat) : InOrder c caps (s.turnNode b run place) := by
  unfold Schedule.turnNode
  split
  · next r site hr hsite =>
    obtain ⟨rfl, _⟩ := of_site? hsite
    split
    · exact h
    · next x hx =>
      have hplace := Run.place_of_execution? hx
      subst hplace
      have hcounts := Counts.of_phase? h (phase?_of_execution? hr hx)
      split
      · exact hcounts.finishCancelled
      · split
        · next hphase =>
          rw [hphase] at hcounts
          exact (hcounts.congr fun g => by cases g <;> rfl).enter
        · next hphase =>
          rw [hphase] at hcounts
          exact hcounts.enterRun rfl rfl
        · next hphase =>
          rw [hphase] at hcounts
          exact (hcounts.congr fun g => by cases g <;> rfl).tried .begin
        · exact h
        · next hphase =>
          rw [hphase] at hcounts
          rcases Tried.resume (s := s) (x := x) (by rw [hphase]; rfl) with ⟨u, hu, ht⟩ | ⟨-, ht⟩
          · exact (hcounts.rested h hu).2.tried ht
          · exact (hcounts.rested h ht).1
        · next hphase =>
          rw [hphase] at hcounts
          split
          · exact hcounts.tried (.attempt _ _ (by omega))
          · exact h
  · exact h

/-- Permits of a name come about, as many as the node declares that is about to start. -/
theorem withLimit (h : InOrder c caps s) {key : String} {max : Nat} (hk : s.limitAt? k = some (key, max)) :
    ∃ caps', InOrder c caps' { s with limits := s.limits.insertNew key ⟨max, []⟩ } := by
  cases hp : s.limits.get? key with
  | some p =>
    refine ⟨caps, h.still (.of_eq ?_ rfl)⟩
    simp [Assoc.insertNew, Assoc.contains, hp]
  | none =>
    -- no node with permits of this name has started, since there are none
    have hout : ∀ j, s.standingAt s.standing key j = .outside := by
      intro j
      by_contra hne
      obtain ⟨⟨m, hj⟩, hstands⟩ := standingAt_of_ne_outside hne
      have hsome : (s.phase? j).isSome = true := by
        by_contra hnone
        rw [hstands, standing, Option.not_isSome_iff_eq_none.mp hnone] at hne
        exact hne rfl
      obtain ⟨p, hp'⟩ := h.opened j key m hsome hj
      cases hp.symm.trans hp'
    have hget : ∀ other, (s.limits.insertNew key ⟨max, []⟩).get? other =
        (s.limits.get? other).or (if key = other then some ⟨max, []⟩ else none) :=
      fun other => Assoc.get?_insertNew ..
    have hold : ∀ other p, (s.limits.insertNew key ⟨max, []⟩).get? other = some p →
        s.limits.get? other = some p ∧ Function.update caps key max other = caps other ∨
          other = key ∧ p = ⟨max, []⟩ := by
      intro other p hother
      rw [hget] at hother
      cases ho : s.limits.get? other with
      | some p' =>
        rw [ho, Option.some_or] at hother
        refine .inl ⟨hother, Function.update_of_ne (fun he => ?_) _ _⟩
        rw [he, hp] at ho
        cases ho
      | none =>
        rw [ho, Option.none_or] at hother
        split at hother
        · next he => exact .inr ⟨he.symm, (Option.some.inj hother).symm⟩
        · cases hother
    refine ⟨Function.update caps key max, h.runs, fun other p hother => ?_, fun other p hother => ?_,
      fun j other m hj hm => ?_, h.gated⟩
    · rcases hold other p hother with ⟨hother', hcap⟩ | ⟨rfl, rfl⟩
      · rw [hcap]
        exact h.limits other p hother'
      · rw [Function.update_self]
        exact .new max hout
    · rcases hold other p hother with ⟨hother', hcap⟩ | ⟨rfl, rfl⟩
      · rw [hcap]
        exact h.declared other p hother'
      · rw [Function.update_self]
        exact ⟨k, hk⟩
    · obtain ⟨p, hp'⟩ := h.opened j other m hj hm
      exact ⟨p, (hget other).trans (by rw [hp', Option.some_or])⟩

/-- An execution that has just started stands outside. -/
theorem launched (h : InOrder c caps s) (inputs : Inputs)
    (ho : ∀ key max, s.limitAt? (run, place) = some (key, max) → ∃ p, s.limits.get? key = some p) :
    InOrder c caps (s.change run (fun r => { r with
      executions := r.executions ++ [⟨place, inputs, .fresh, 0⟩] })) := by
  have hphase : ∀ k, (s.change run (fun r => { r with
      executions := r.executions ++ [⟨place, inputs, .fresh, 0⟩] })).phase? k = s.phase? k ∨
        k = (run, place) ∧ s.phase? k = none ∧ (s.change run (fun r => { r with
          executions := r.executions ++ [⟨place, inputs, .fresh, 0⟩] })).phase? k = some .fresh := by
    intro k
    simp only [phase?, change, List.getElem?_modify]
    cases hr : s.runs[k.1]? with
    | none => exact .inl rfl
    | some r =>
      by_cases hi : run = k.1
      · simp only [hi, if_pos, Option.map_eq_map, Option.map_some, Option.bind_some, Run.phase?_concat]
        cases hp : r.phase? k.2 with
        | some phase => exact .inl rfl
        | none =>
          rw [Option.none_or]
          split
          · next hk => exact .inr ⟨Prod.ext rfl hk.symm, rfl, rfl⟩
          · exact .inl rfl
      · simp [hi]
  have hstanding : (s.change run (fun r => { r with
      executions := r.executions ++ [⟨place, inputs, .fresh, 0⟩] })).standing = s.standing := by
    funext k g
    rw [standing, standing]
    rcases hphase k with hk | ⟨-, hnone, hfresh⟩
    · rw [hk]
    · rw [hnone, hfresh]
      rfl
  rw [InOrder, hstanding]
  refine Accounted.of_terms h rfl (terms_change fun _ => rfl) fun k key max hk hmax => ?_
  rcases hphase k with hsame | ⟨rfl, -, -⟩
  · exact h.opened k key max (hsame ▸ hk) hmax
  · exact ho key max hmax

theorem launch (h : InOrder c caps s) (run : Nat) (started : List (Nat × Inputs)) :
    ∃ caps', InOrder c caps' (s.launch run started) := by
  induction started generalizing s caps with
  | nil => exact ⟨caps, h⟩
  | cons p started ih =>
    have hfirst : ∀ {u : Schedule μ} {caps' : String → Nat}, InOrder c caps' u →
        (∀ key max, u.limitAt? (run, p.1) = some (key, max) → ∃ q, u.limits.get? key = some q) →
        ∃ caps', InOrder c caps' (((u.change run (fun r => { r with
          executions := r.executions ++ [⟨p.1, p.2, .fresh, 0⟩] })).wake (.node run p.1)).launch run
          started) :=
      fun hu ho => ih ((hu.launched p.2 ho).still (.wake _ _))
    unfold Schedule.launch
    rw [List.foldl_cons]
    split
    · next key max hlimit =>
      change s.limitAt? (run, p.1) = some (key, max) at hlimit
      obtain ⟨caps', hcaps⟩ := h.withLimit hlimit
      refine hfirst hcaps fun key' max' hlimit' => ?_
      change s.limitAt? (run, p.1) = some (key', max') at hlimit'
      obtain ⟨rfl, rfl⟩ := Prod.mk.inj (Option.some.inj (hlimit.symm.trans hlimit'))
      dsimp only
      rw [Assoc.get?_insertNew]
      cases s.limits.get? key with
      | some q => exact ⟨q, rfl⟩
      | none => exact ⟨⟨max, []⟩, by rw [Option.none_or, if_pos rfl]⟩
    · next hnone =>
      refine hfirst h fun key max hlimit => ?_
      cases hnone.symm.trans hlimit

theorem startReady (h : InOrder c caps s) (run : Nat) :
    ∃ caps', InOrder c caps' (s.startReady run) := by
  unfold Schedule.startReady
  split
  · exact ⟨caps, h⟩
  · next r _ =>
    have hchange : Still s (s.change run (fun r' => { r' with
        progress := (r.progress.round r.plan).1, alarm := none })) :=
      .change s run (fun _ => rfl) fun _ => rfl
    exact (h.still hchange).launch run _

/-- A run that is put under way brings its permits along, all of them free. -/
theorem enrol {r : Run μ} (h : InOrder c caps s) (hx : r.executions = [])
    (hp : r.permits = ⟨max c.parallel 1, []⟩) : InOrder c caps (s.enrol r).2 := by
  have hlt : ∀ k : Nat × Nat, k.1 < s.runs.length → (s.enrol r).2.runs[k.1]? = s.runs[k.1]? :=
    fun k hk => List.getElem?_append_left hk
  have hge : ∀ k : Nat × Nat, ¬ k.1 < s.runs.length → s.runs[k.1]? = none :=
    fun k hk => List.getElem?_eq_none (Nat.le_of_not_lt hk)
  have hphase : (s.enrol r).2.phase? = s.phase? := by
    funext k
    by_cases hk : k.1 < s.runs.length
    · rw [phase?, hlt k hk]
      rfl
    · rw [phase?, phase?, hge k hk, Option.bind_none]
      change ((s.runs ++ [r])[k.1]?).bind _ = none
      rw [List.getElem?_append_right (Nat.le_of_not_lt hk)]
      cases k.1 - s.runs.length with
      | zero =>
        rw [List.getElem?_cons_zero, Option.bind_some, Run.phase?, Run.execution?, hx]
        rfl
      | succ n => rfl
  have hlimit : ∀ k : Nat × Nat, k.1 < s.runs.length → (s.enrol r).2.limitAt? k = s.limitAt? k := by
    intro k hk
    rw [limitAt?, hlt k hk]
    rfl
  have hsome : ∀ {k other}, s.limitAt? k = some other → k.1 < s.runs.length := by
    intro k other hk
    by_contra hnot
    rw [limitAt?, hge k hnot] at hk
    cases hk
  rw [InOrder, standing_congr hphase]
  refine ⟨fun run r' hr' => ?_, fun key p hp => (h.limits key p hp).congr fun k => ?_, fun key p hp => ?_,
    fun k key max hk hmax => ?_, fun k hk => ?_⟩
  · change (s.runs ++ [r])[run]? = some r' at hr'
    by_cases hrun : run < s.runs.length
    · rw [List.getElem?_append_left hrun] at hr'
      exact h.runs run r' hr'
    · rw [List.getElem?_append_right (Nat.le_of_not_lt hrun)] at hr'
      have hr'' : r' = r := List.mem_singleton.mp (List.mem_of_getElem? hr')
      subst hr''
      rw [hp]
      refine .new _ fun place => ?_
      rw [standing, phase?, hge (run, place) hrun]
      rfl
  · by_cases hk : k.1 < s.runs.length
    · rw [standingAt, standingAt, hlimit k hk]
    · have hout : s.standing k .node = .outside := by
        rw [standing, phase?, hge k hk]
        rfl
      rw [standingAt, standingAt, hout, ite_self, ite_self]
  · obtain ⟨k, hk⟩ := h.declared key p hp
    exact ⟨k, (hlimit k (hsome hk)).trans hk⟩
  · have hk' : k.1 < s.runs.length := by
      by_contra hnot
      rw [hphase, phase?, hge k hnot] at hk
      cases hk
    exact h.opened k key max (hphase ▸ hk) ((hlimit k hk').symm.trans hmax)
  · obtain ⟨other, hother⟩ := Option.ne_none_iff_exists'.mp (h.gated k hk)
    rw [hlimit k (hsome hother)]
    exact h.gated k hk

theorem new (hr : s.runs = []) (hl : s.limits = []) : InOrder c caps s := by
  have hget : ∀ key, s.limits.get? key = none := fun key => by rw [hl]; rfl
  refine ⟨fun run r h => ?_, fun key p h => ?_, fun key p h => ?_, fun k _ _ h => ?_, fun k h => ?_⟩
  · rw [hr] at h
    cases h
  · cases (hget key).symm.trans h
  · cases (hget key).symm.trans h
  · rw [phase?, hr] at h
    cases h
  · rw [standing, phase?, hr] at h
    cases h

end InOrder

end Schedule

open Schedule

variable {e : Engine μ} {caps : String → Nat} {s s₀ t : Schedule μ} {ev : Event} {es : List Event}

/-- Whatever happens, permits stay in order. -/
theorem Happens.inOrder (h : InOrder e.config caps s) (ht : Happens e s ev t) :
    ∃ caps', InOrder e.config caps' t := by
  cases ht with
  | begin => exact ⟨caps, h.enrol rfl rfl⟩
  | start => exact h.startReady _
  | close => exact ⟨caps, h.still (.close ..)⟩
  | look => exact ⟨caps, h.still (.look ..)⟩
  | work run place => exact ⟨caps, h.turnNode run place⟩
  | cancel => exact ⟨caps, h.still (.cancel ..)⟩
  | rest _ hl _ hr => exact ⟨caps, h.still (.of_eq hl hr)⟩

theorem Leads.inOrder (hr : s₀.runs = []) (hl : s₀.limits = []) (ht : Leads e s₀ es s) :
    ∃ caps, InOrder e.config caps s := by
  induction ht with
  | refl => exact ⟨fun _ => 0, .new hr hl⟩
  | step _ hs ih =>
    obtain ⟨_, hcaps⟩ := ih
    exact hs.inOrder hcaps

end Workflow
