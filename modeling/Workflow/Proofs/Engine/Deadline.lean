import Workflow.Activity

namespace Workflow.Activity

variable {σ α β : Type} {now fin ms limit : Nat} {s s' : σ} {a : α} {p next : Activity σ α}
variable {f : α → Activity σ β}

def clock : Activity σ Nat := act (fun _ s => s) (fun now _ => done now)

/-- An activity that is given up when a time has passed. One that ends just in time is not given up. -/
def within : Nat → Activity σ α → Activity σ (Option α)
  | _, done a => done (some a)
  | limit, rest ms next =>
    if limit = 0 then done none
    else if ms ≤ limit then rest ms (within (limit - ms) next)
    else rest limit (done none)
  | limit, act change next => act change (fun now s => within limit (next now s))

theorem advance_bind_of_finished (h : p.advance now s = (.finished a, s')) :
    (p.bind f).advance now s = (f a).advance now s' := by
  induction p generalizing s with
  | done a =>
    cases h
    rfl
  | rest ms next => cases h
  | act change next ih => exact ih _ _ h

theorem advance_bind_of_resting (h : p.advance now s = (.resting ms next, s')) :
    (p.bind f).advance now s = (.resting ms (next.bind f), s') := by
  induction p generalizing s with
  | done a => cases h
  | rest ms next =>
    cases h
    rfl
  | act change next ih => exact ih _ _ h

theorem advance_within_of_finished (h : p.advance now s = (.finished a, s')) :
    (within limit p).advance now s = (.finished (some a), s') := by
  induction p generalizing s with
  | done a =>
    cases h
    rfl
  | rest ms next => cases h
  | act change next ih => exact ih _ _ h

theorem advance_within_of_resting (h : p.advance now s = (.resting ms next, s')) :
    (within limit p).advance now s =
      if limit = 0 then (.finished none, s')
      else if ms ≤ limit then (.resting ms (within (limit - ms) next), s')
      else (.resting limit (done none), s') := by
  induction p generalizing s with
  | done a => cases h
  | rest ms next =>
    cases h
    rw [within]
    split
    · rfl
    · split <;> rfl
  | act change next ih => exact ih _ _ h

/-- An activity that is begun at a time can come to a result at another, whatever becomes of the world
while it rests. -/
inductive Comes : Nat → Activity σ α → α → Nat → Prop
  | done (now : Nat) (a : α) : Comes now (.done a) a now
  | rest {now ms fin : Nat} {next : Activity σ α} {a : α} (h : Comes (now + ms) next a fin) :
      Comes now (.rest ms next) a fin
  | act {now fin : Nat} {change : Nat → σ → σ} {next : Nat → σ → Activity σ α} {a : α} (s : σ)
      (h : Comes now (next now s) a fin) : Comes now (.act change next) a fin

theorem comes_of_resting (h : p.advance now s = (.resting ms next, s')) (hn : Comes (now + ms) next a fin) :
    Comes now p a fin := by
  induction p generalizing s with
  | done a => cases h
  | rest ms next =>
    cases h
    exact .rest hn
  | act change next ih => exact .act s (ih _ _ h)

/-- An activity comes to a result at some time. -/
theorem exists_comes (s : σ) (p : Activity σ α) (now : Nat) : ∃ a fin, Comes now p a fin := by
  induction p generalizing now with
  | done a => exact ⟨a, now, .done now a⟩
  | rest ms next ih =>
    obtain ⟨a, fin, h⟩ := ih (now + ms)
    exact ⟨a, fin, .rest h⟩
  | act change next ih =>
    obtain ⟨a, fin, h⟩ := ih now s now
    exact ⟨a, fin, .act s h⟩

namespace Comes

variable {b : β}

theorem le (h : Comes now p a fin) : now ≤ fin := by
  induction h with
  | done => exact Nat.le_refl _
  | rest _ ih => exact Nat.le_trans (Nat.le_add_right _ _) ih
  | act _ _ ih => exact ih

/-- One activity after the other comes to its result when the first has come to one. -/
theorem of_bind (h : Comes now (p.bind f) b fin) : ∃ a t, Comes now p a t ∧ Comes t (f a) b fin := by
  induction p generalizing now with
  | done a => exact ⟨a, now, .done now a, h⟩
  | rest ms next ih =>
    cases h with
    | rest h =>
      obtain ⟨a, t, hp, hf⟩ := ih h
      exact ⟨a, t, .rest hp, hf⟩
  | act change next ih =>
    cases h with
    | act s h =>
      obtain ⟨a, t, hp, hf⟩ := ih _ _ h
      exact ⟨a, t, .act s hp, hf⟩

theorem of_clock {t : Nat} (h : Comes now (clock : Activity σ Nat) t fin) : t = now ∧ fin = now := by
  cases h with
  | act s h =>
    cases h
    exact ⟨rfl, rfl⟩

theorem of_sleep {u : Unit} (h : Comes now (sleep ms : Activity σ Unit) u fin) : fin = now + ms := by
  unfold sleep at h
  split at h
  · next hms =>
    cases h
    rw [hms, Nat.add_zero]
  · cases h with
    | rest h =>
      cases h
      rfl

/-- An activity comes to its result in time, or is given up when its time has passed. -/
theorem of_within {r : Option α} (h : Comes now (within limit p) r fin) :
    (∃ a, r = some a ∧ Comes now p a fin ∧ fin ≤ now + limit) ∨ (r = none ∧ fin = now + limit) := by
  induction p generalizing now limit with
  | done a =>
    cases h
    exact .inl ⟨a, rfl, .done _ a, Nat.le_add_right _ _⟩
  | rest ms next ih =>
    rw [within] at h
    split at h
    · next hl =>
      cases h
      exact .inr ⟨rfl, by rw [hl, Nat.add_zero]⟩
    · split at h
      · next hms =>
        cases h with
        | rest h =>
          have hsum : now + ms + (limit - ms) = now + limit := by omega
          rcases ih h with ⟨a, hr, ha, hle⟩ | ⟨hr, hfin⟩
          · exact .inl ⟨a, hr, .rest ha, hsum ▸ hle⟩
          · exact .inr ⟨hr, hfin.trans hsum⟩
      · cases h with
        | rest h =>
          cases h
          exact .inr ⟨rfl, rfl⟩
  | act change next ih =>
    cases h with
    | act s h =>
      rcases ih _ _ h with ⟨a, hr, ha, hle⟩ | hr
      · exact .inl ⟨a, hr, .act s ha, hle⟩
      · exact .inr hr

end Comes

end Workflow.Activity
