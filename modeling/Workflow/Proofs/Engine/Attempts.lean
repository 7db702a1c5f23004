import Workflow.Proofs.Engine.Phases
import Workflow.Proofs.Engine.Views

namespace Workflow

variable {μ : Type}

/-- How far an execution has come. -/
def Phase.rank {σ : Type} : Phase σ → Nat
  | .fresh => 0
  | .queued _ .node granted => if granted then 2 else 1
  | .queued _ .run granted => if granted then 4 else 3
  | .attempting _ number _ _ _ _ => 3 + 2 * number
  | .pausing _ number _ _ => 4 + 2 * number

theorem RuntimePolicy.lt_of_verdict {p : RuntimePolicy} {b : Backoff} {id : String} {n ms : Nat}
    {result : AttemptResult} (h : p.verdict b id n result = .again ms) : n < p.retries := by
  unfold verdict at h
  split at h
  · cases h
  · split at h
    · next hretries => simpa [retries?] using (Bool.and_eq_true_iff.mp hretries).2
    · cases h

namespace Schedule

variable {s t : Schedule μ} {run n m number since : Nat} {x : Execution (World μ)} {b : Backoff}
variable {site : Site μ} {slot : Option Slot}

/-- What attempts of an execution come to: it ends, or rests with its permits, at least as far as given. -/
inductive Tried (s : Schedule μ) (run : Nat) (x : Execution (World μ)) (n : Nat) : Schedule μ → Prop
  | ended (world : World μ) (phase : Phase (World μ)) (hphase : phase.standing = fun _ => .inside)
      (outcome : Outcome) (attempts : Nat) (started : Bool) (since : Nat) :
      Tried s run x n
        (({ s with world } : Schedule μ).finish run { x with phase } outcome attempts started since)
  | rests (world : World μ) (phase : Phase (World μ)) (hphase : phase.standing = fun _ => .inside)
      (hn : n ≤ phase.rank) (order waitOrder : Nat) :
      Tried s run x n { ({ s with world } : Schedule μ).put run { x with phase, waitOrder } with order }

/-- An execution goes on resting with its permits, if anything happens. -/
inductive Rested (s : Schedule μ) (run : Nat) (x : Execution (World μ)) : Schedule μ → Prop
  | still : Rested s run x s
  | again (world : World μ) (phase : Phase (World μ)) (hphase : phase.standing = fun _ => .inside)
      (order : Nat) : Rested s run x { ({ s with world } : Schedule μ).put run { x with phase } with order }

namespace Tried

theorem mono (hn : n ≤ m) (h : Tried s run x m t) : Tried s run x n t := by
  cases h with
  | ended world phase hphase => exact .ended world phase hphase ..
  | rests world phase hphase hm => exact .rests world phase hphase (hn.trans hm) ..

theorem of_world {world : World μ} (h : Tried { s with world } run x n t) : Tried s run x n t := by
  cases h with
  | ended world phase hphase => exact .ended world phase hphase ..
  | rests world phase hphase hm => exact .rests world phase hphase hm ..

theorem with_phase {p : Phase (World μ)} (h : Tried s run x n t) :
    Tried s run { x with phase := p } n t := by
  cases h with
  | ended world phase hphase => exact .ended world phase hphase ..
  | rests world phase hphase hm => exact .rests world phase hphase hm ..

theorem of_phase {p : Phase (World μ)} (h : Tried s run { x with phase := p } n t) : Tried s run x n t :=
  h.with_phase (p := x.phase)

theorem conclude {again : Nat → Schedule μ → Schedule μ} {result : AttemptResult}
    (hx : x.phase.standing = fun _ => .inside)
    (hagain : number < site.node.policy.retries →
      Tried s site.run x (3 + 2 * (number + 1)) (again (number + 1) s)) :
    Tried s site.run x (4 + 2 * number)
      (Schedule.conclude b site x since slot again number result s) := by
  unfold Schedule.conclude
  split
  · exact .ended s.world x.phase hx ..
  · next hv => exact .mono (by omega) (hagain (RuntimePolicy.lt_of_verdict hv))
  · exact .rests s.world (.pausing ..) rfl (Nat.le_refl _) _ _

theorem attempt (left number : Nat) (hn : site.node.policy.retries ≤ left + number) :
    Tried s site.run x (3 + 2 * number) (Schedule.attempt b site x since slot left number s) := by
  have hle : ∀ number : Nat, 3 + 2 * number ≤ 4 + 2 * number := fun number => by omega
  induction left generalizing number s with
  | zero =>
    unfold Schedule.attempt
    dsimp only
    split
    · exact .rests _ (.attempting ..) rfl (Nat.le_refl _) _ _
    · have hlast : ¬ number < site.node.policy.retries := by omega
      exact .of_world (.of_phase (.mono (hle number) (conclude rfl fun hlt => absurd hlt hlast)))
  | succ left ih =>
    unfold Schedule.attempt
    dsimp only
    split
    · exact .rests _ (.attempting ..) rfl (Nat.le_refl _) _ _
    · have hn' : site.node.policy.retries ≤ left + (number + 1) := by omega
      exact .of_world (.of_phase (.mono (hle number) (conclude rfl fun _ => (ih _ hn').with_phase)))

theorem begin : Tried s site.run x 5 (Schedule.begin b site x s) := by
  unfold Schedule.begin
  split
  · exact .ended s.world (.pausing ..) rfl ..
  · have hn : site.node.policy.retries ≤ site.node.policy.retries - 1 + 1 := by omega
    exact .of_phase (attempt _ 1 hn)

/-- An attempt that is resumed is over, or goes on resting, which it does only while it has time. -/
theorem resume {next : Activity (World μ) (Except InvokeError Json)} {wake limit : Alarm}
    (hx : x.phase.standing = fun _ => .inside) :
    (∃ u, Rested s site.run x u ∧ Tried u site.run x (4 + 2 * number)
      (Schedule.resume b site x since number slot next wake limit s)) ∨
    ¬ (wake.due ≤ s.now ∧ limit.due ≤ s.now) ∧
      Rested s site.run x (Schedule.resume b site x since number slot next wake limit s) := by
  have hn : site.node.policy.retries ≤ site.node.policy.retries - number - 1 + (number + 1) := by omega
  unfold Schedule.resume
  dsimp only
  split
  · split
    · exact .inl ⟨s, .still, .of_world (conclude hx fun _ => attempt _ _ hn)⟩
    · split
      · exact .inl ⟨_, .again _ (.attempting ..) rfl _,
          .of_phase (conclude rfl fun _ => (attempt _ _ hn).with_phase)⟩
      · next hlimit => exact .inr ⟨fun h => hlimit h.2, .again _ (.attempting ..) rfl _⟩
  · next hwake =>
    split
    · exact .inl ⟨s, .still, conclude hx fun _ => attempt _ _ hn⟩
    · exact .inr ⟨fun h => hwake h.1, .still⟩

/-- An execution that made attempts has ended, or come as far as given. -/
theorem le_rank {phase : Phase (World μ)} (h : Tried s run x n t)
    (hphase : t.phase? (run, x.place) = some phase) : n ≤ phase.rank := by
  cases h with
  | ended world phase' =>
    rw [phase?_finish, Function.update_self] at hphase
    cases hphase
  | rests world phase' _ hn order waitOrder =>
    have hput : ({ ({ s with world } : Schedule μ).put run { x with phase := phase', waitOrder } with
        order } : Schedule μ).phase? = _ := phase?_put run { x with phase := phase', waitOrder }
    rw [hput, Function.update_self] at hphase
    obtain ⟨_, _, rfl⟩ := Option.map_eq_some_iff.mp hphase
    exact hn

end Tried

end Schedule

end Workflow
