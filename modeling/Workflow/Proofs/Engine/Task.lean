import Mathlib.Algebra.GroupWithZero.Nat
import Mathlib.Data.List.Basic
import Workflow.Engine.Turn
import Workflow.Proofs.Engine.Deadline

namespace Workflow

open Activity Schedule

variable {μ : Type}

/-- An attempt that was made: from when to when, and what came of it. -/
structure Trial where
  began : Nat
  ended : Nat
  result : AttemptResult

/-- How the execution of a node ends, with all attempts that were made. -/
structure Ending where
  trials : List Trial
  outcome : Outcome
  attempts : Nat

namespace Schedule.Site

variable (b : Backoff) (site : Site μ) (place : Nat) (inputs : Inputs) (slot : Option Slot)

/-- What an invocation comes to, if it ends in time. -/
def verify : Option (Except InvokeError Json) → AttemptResult
  | some result => judge site.plan place site.node result
  | none => .error (.timeout, s!"attempt timed out after {site.node.policy.timeoutMs}ms")

/-- The rest of an attempt that began at a time. -/
def tryOn (began : Nat) (p : Activity (World μ) (Option (Except InvokeError Json))) :
    Activity (World μ) Trial :=
  p.bind fun result => clock.bind fun ended => .done ⟨began, ended, site.verify place result⟩

/-- One attempt: the work of the node, which is given up when its time has passed. -/
def tryOnce : Activity (World μ) Trial :=
  clock.bind fun began =>
    site.tryOn place began (within site.node.policy.timeoutMs (site.work inputs slot))

def failure (number : Nat) (e : ErrorKind × String) : Outcome := .failed ⟨some site.id, e.1, number, e.2⟩

/-- What follows an attempt, when `left` more may be made. -/
def follow : Nat → List Trial → Trial → Activity (World μ) Ending
  | left, made, one =>
    match one.result, left with
    | .ok v, _ => .done ⟨made ++ [one], .succeeded v, made.length + 1⟩
    | .error e, 0 => .done ⟨made ++ [one], site.failure (made.length + 1) e, made.length + 1⟩
    | .error _, left + 1 =>
      (sleep (b.delay site.node.policy.backoffMs (made.length + 1))).bind fun _ =>
        (site.tryOnce place inputs slot).bind (follow left (made ++ [one]))

/-- Attempts until one succeeds or none is left. -/
def persist (left : Nat) (made : List Trial) : Activity (World μ) Ending :=
  (site.tryOnce place inputs slot).bind (site.follow b place inputs slot left made)

/-- The task of an execution that has its permits: it binds the state of the node and makes attempts. -/
def task : Activity (World μ) Ending :=
  .act (fun _ w => w) fun _ w =>
    match Slot.bind w site.run ⟨site.id, site.context, inputs⟩ site.node.state with
    | .error e => .done ⟨[], site.failure 1 (.invocation, e.message), 1⟩
    | .ok slot => site.persist b place inputs slot (site.node.policy.retries - 1) []

/-- What an attempt is: the work of the node came to a result in time, or had come to none when its time had
passed. -/
def IsTrial (one : Trial) : Prop :=
  (∃ result, Comes one.began (site.work inputs slot) result one.ended ∧
    one.ended ≤ one.began + site.node.policy.timeoutMs ∧
    one.result = judge site.plan place site.node result) ∨
  one.ended = one.began + site.node.policy.timeoutMs ∧
    one.result = .error (.timeout, s!"attempt timed out after {site.node.policy.timeoutMs}ms")

/-- Attempts from a time on, the first of them with a number, when `left` more may follow it: how they end,
and when. -/
inductive Tries : Nat → Nat → Nat → List Trial → Outcome → Nat → Prop
  | succeeded {one : Trial} {v : Json} (left number : Nat) (h : site.IsTrial place inputs slot one)
      (hv : one.result = .ok v) : Tries left number one.began [one] (.succeeded v) one.ended
  | failed {one : Trial} {e : ErrorKind × String} (number : Nat) (h : site.IsTrial place inputs slot one)
      (he : one.result = .error e) : Tries 0 number one.began [one] (site.failure number e) one.ended
  | again {one : Trial} {e : ErrorKind × String} {left number fin : Nat} {rest : List Trial}
      {outcome : Outcome} (h : site.IsTrial place inputs slot one) (he : one.result = .error e)
      (hrest : Tries left (number + 1) (one.ended + b.delay site.node.policy.backoffMs number) rest
        outcome fin) : Tries (left + 1) number one.began (one :: rest) outcome fin

/-- The times of an attempt with a number and of `left` more, with the pauses between them. -/
def longest (left number : Nat) : Nat :=
  (left + 1) * site.node.policy.timeoutMs +
    ((List.range left).map fun i => b.delay site.node.policy.backoffMs (number + i)).sum

/-- The times of all attempts that a node may make, with the pauses between them. -/
def allowance : Nat :=
  site.node.policy.retries * site.node.policy.timeoutMs +
    ((List.range (site.node.policy.retries - 1)).map fun i => b.delay site.node.policy.backoffMs (i + 1)).sum

variable {b : Backoff} {site : Site μ} {place : Nat} {inputs : Inputs} {slot : Option Slot}
variable {now fin left number : Nat} {made trials : List Trial} {one : Trial} {ending : Ending}
variable {outcome : Outcome}

theorem follow_of_ok {v : Json} (h : one.result = .ok v) : site.follow b place inputs slot left made one =
    .done ⟨made ++ [one], .succeeded v, made.length + 1⟩ := by
  unfold follow
  rw [h]

theorem follow_zero {e : ErrorKind × String} (h : one.result = .error e) :
    site.follow b place inputs slot 0 made one =
      .done ⟨made ++ [one], site.failure (made.length + 1) e, made.length + 1⟩ := by
  unfold follow
  rw [h]

theorem follow_succ {e : ErrorKind × String} (h : one.result = .error e) :
    site.follow b place inputs slot (left + 1) made one =
      (sleep (b.delay site.node.policy.backoffMs (made.length + 1))).bind fun _ =>
        site.persist b place inputs slot left (made ++ [one]) := by
  unfold follow
  rw [h]
  rfl

theorem of_comes_tryOnce (h : Comes now (site.tryOnce place inputs slot) one fin) :
    one.began = now ∧ one.ended = fin ∧ site.IsTrial place inputs slot one := by
  obtain ⟨began, t, hbegan, hrest⟩ := h.of_bind
  obtain ⟨rfl, rfl⟩ := hbegan.of_clock
  obtain ⟨result, t', hresult, hlast⟩ := hrest.of_bind
  obtain ⟨ended, t'', hended, hone⟩ := hlast.of_bind
  obtain ⟨rfl, rfl⟩ := hended.of_clock
  cases hone
  refine ⟨rfl, rfl, ?_⟩
  rcases hresult.of_within with ⟨r, rfl, hr, hle⟩ | ⟨rfl, hfin⟩
  · exact .inl ⟨r, hr, hle, rfl⟩
  · exact .inr ⟨hfin, rfl⟩

/-- What the program of attempts comes to. -/
theorem tries_of_comes (h : Comes now (site.persist b place inputs slot left made) ending fin) :
    ∃ trials, site.Tries b place inputs slot left (made.length + 1) now trials ending.outcome fin ∧
      ending.trials = made ++ trials ∧ ending.attempts = made.length + trials.length := by
  induction left generalizing made now with
  | zero =>
    obtain ⟨one, t, hone, hrest⟩ := h.of_bind
    obtain ⟨rfl, rfl, htrial⟩ := of_comes_tryOnce hone
    cases hr : one.result with
    | ok v =>
      rw [follow_of_ok hr] at hrest
      cases hrest
      exact ⟨[one], .succeeded _ _ htrial hr, rfl, rfl⟩
    | error e =>
      rw [follow_zero hr] at hrest
      cases hrest
      exact ⟨[one], .failed _ htrial hr, rfl, rfl⟩
  | succ left ih =>
    obtain ⟨one, t, hone, hrest⟩ := h.of_bind
    obtain ⟨rfl, rfl, htrial⟩ := of_comes_tryOnce hone
    cases hr : one.result with
    | ok v =>
      rw [follow_of_ok hr] at hrest
      cases hrest
      exact ⟨[one], .succeeded _ _ htrial hr, rfl, rfl⟩
    | error e =>
      rw [follow_succ hr] at hrest
      obtain ⟨_, t', hsleep, hmore⟩ := hrest.of_bind
      rw [hsleep.of_sleep] at hmore
      obtain ⟨trials, htries, hall, hattempts⟩ := ih hmore
      rw [List.length_append, List.length_singleton] at htries hattempts
      refine ⟨one :: trials, .again htrial hr htries, ?_, ?_⟩
      · rw [hall, List.append_assoc, List.singleton_append]
      · rw [hattempts, List.length_cons]
        omega

theorem kind_of_judge {p : Plan} {n : Node} {result : Except InvokeError Json} {e : ErrorKind × String}
    (h : judge p place n result = .error e) : e.1 = .invocation ∨ e.1 = .outputSchema := by
  unfold judge at h
  split at h
  · next err =>
    cases h
    cases err
    · exact .inl rfl
    · exact .inr rfl
  · split at h
    · cases h
    · cases h
      exact .inr rfl

/-- Whatever an attempt fails with, it may be made again. -/
theorem isRetryable_of_judge {p : Plan} {n : Node} {result : Except InvokeError Json} {e : ErrorKind × String}
    (h : judge p place n result = .error e) : e.1.isRetryable = true := by
  rcases kind_of_judge h with he | he <;> rw [he] <;> rfl

theorem isRetryable_of_verify {result : Option (Except InvokeError Json)} {e : ErrorKind × String}
    (h : site.verify place result = .error e) : e.1.isRetryable = true := by
  cases result with
  | none =>
    cases h
    rfl
  | some result => exact isRetryable_of_judge h

theorem IsTrial.ended_of_timeout (h : site.IsTrial place inputs slot one) {message : String}
    (hr : one.result = .error (.timeout, message)) :
    one.ended = one.began + site.node.policy.timeoutMs := by
  rcases h with ⟨result, _, _, hj⟩ | ⟨hended, _⟩
  · rcases kind_of_judge (hj.symm.trans hr) with h | h <;> cases h
  · exact hended

theorem IsTrial.ended_le (h : site.IsTrial place inputs slot one) :
    one.ended ≤ one.began + site.node.policy.timeoutMs := by
  rcases h with ⟨_, _, hle, _⟩ | ⟨hended, _⟩
  · exact hle
  · exact Nat.le_of_eq hended

theorem longest_succ : site.longest b (left + 1) number =
    site.node.policy.timeoutMs + b.delay site.node.policy.backoffMs number + site.longest b left (number + 1) := by
  have hsum : (List.range (left + 1)).map (fun i => b.delay site.node.policy.backoffMs (number + i)) =
      b.delay site.node.policy.backoffMs number ::
        (List.range left).map fun i => b.delay site.node.policy.backoffMs (number + 1 + i) := by
    rw [List.range_succ_eq_map, List.map_cons, List.map_map, Nat.add_zero]
    refine congrArg _ (List.map_congr_left fun i _ => ?_)
    rw [Function.comp_apply, Nat.succ_eq_add_one, Nat.add_comm i, Nat.add_assoc]
  rw [longest, longest, hsum, List.sum_cons, Nat.succ_mul (left + 1)]
  omega

theorem longest_first (hr : 1 ≤ site.node.policy.retries) :
    site.longest b (site.node.policy.retries - 1) 1 = site.allowance b := by
  rw [longest, allowance, Nat.sub_add_cancel hr]
  simp only [Nat.add_comm 1]

namespace Tries

theorem length_le (h : site.Tries b place inputs slot left number now trials outcome fin) :
    trials.length ≤ left + 1 := by
  induction h with
  | succeeded _ _ _ _ => exact Nat.le_add_left _ _
  | failed _ _ _ => exact Nat.le_refl _
  | again _ _ _ ih => exact Nat.succ_le_succ ih

theorem isTrial (h : site.Tries b place inputs slot left number now trials outcome fin) :
    ∀ one ∈ trials, site.IsTrial place inputs slot one := by
  induction h with
  | succeeded _ _ h _ => exact fun one hm => List.mem_singleton.mp hm ▸ h
  | failed _ h _ => exact fun one hm => List.mem_singleton.mp hm ▸ h
  | again h _ _ ih => exact List.forall_mem_cons.mpr ⟨h, ih⟩

theorem head? (h : site.Tries b place inputs slot left number now trials outcome fin) :
    ∃ one, trials.head? = some one ∧ one.began = now := by
  cases h with
  | succeeded _ _ _ _ => exact ⟨_, rfl, rfl⟩
  | failed _ _ _ => exact ⟨_, rfl, rfl⟩
  | again _ _ _ => exact ⟨_, rfl, rfl⟩

theorem next (h : site.Tries b place inputs slot left number now trials outcome fin) (i : Nat)
    (one two : Trial) (hone : trials[i]? = some one) (htwo : trials[i + 1]? = some two) :
    two.began = one.ended + b.delay site.node.policy.backoffMs (number + i) := by
  induction h generalizing i with
  | succeeded _ _ _ _ => cases htwo
  | failed _ _ _ => cases htwo
  | again _ _ hrest ih =>
    cases i with
    | zero =>
      cases hone
      obtain ⟨first, hfirst, hbegan⟩ := hrest.head?
      rw [Nat.zero_add, List.getElem?_cons_succ, ← List.head?_eq_getElem?, hfirst] at htwo
      cases htwo
      exact hbegan
    | succ i =>
      rw [Nat.add_comm i, ← Nat.add_assoc]
      exact ih i hone htwo

theorem result_error (h : site.Tries b place inputs slot left number now trials outcome fin) (i : Nat)
    (one : Trial) (hone : trials[i]? = some one) (hi : i + 1 < trials.length) :
    ∃ e, one.result = .error e := by
  induction h generalizing i with
  | succeeded _ _ _ _ => exact absurd hi (by simp)
  | failed _ _ _ => exact absurd hi (by simp)
  | again _ he _ ih =>
    cases i with
    | zero =>
      cases hone
      exact ⟨_, he⟩
    | succ i => exact ih i hone (by simpa using hi)

/-- The last attempt decides how the execution ends. -/
theorem getLast? (h : site.Tries b place inputs slot left number now trials outcome fin) :
    ∃ one, trials.getLast? = some one ∧ one.ended = fin ∧
      ((∃ v, one.result = .ok v ∧ outcome = .succeeded v) ∨
        ∃ e, one.result = .error e ∧ trials.length = left + 1 ∧ outcome = site.failure (number + left) e) := by
  induction h with
  | succeeded _ _ _ hv => exact ⟨_, rfl, rfl, .inl ⟨_, hv, rfl⟩⟩
  | failed _ _ he => exact ⟨_, rfl, rfl, .inr ⟨_, he, rfl, rfl⟩⟩
  | @again one _ left number _ rest _ _ _ _ ih =>
    obtain ⟨last, hlast, hended, hor⟩ := ih
    refine ⟨last, ?_, hended, hor.imp_right ?_⟩
    · rw [List.getLast?_cons, hlast, Option.getD_some]
    · rintro ⟨e, he, hlen, ho⟩
      refine ⟨e, he, congrArg (· + 1) hlen, ?_⟩
      rw [ho, Nat.add_right_comm, Nat.add_assoc]

/-- Attempts take no longer than they may. -/
theorem le_longest (h : site.Tries b place inputs slot left number now trials outcome fin) :
    fin ≤ now + site.longest b left number := by
  induction h with
  | succeeded left number h _ =>
    refine Nat.le_trans h.ended_le (Nat.add_le_add_left ?_ _)
    exact Nat.le_trans (Nat.le_mul_of_pos_left _ (Nat.succ_pos left)) (Nat.le_add_right _ _)
  | failed number h _ =>
    refine Nat.le_trans h.ended_le (Nat.add_le_add_left ?_ _)
    exact Nat.le_trans (Nat.le_mul_of_pos_left _ Nat.one_pos) (Nat.le_add_right _ _)
  | again h _ _ ih =>
    have hle := h.ended_le
    rw [longest_succ]
    omega

/-- When all of them run out of time, they take as long as they may. -/
theorem of_timeouts (h : site.Tries b place inputs slot left number now trials outcome fin)
    (ht : ∀ one ∈ trials, ∃ message, one.result = .error (.timeout, message)) :
    trials.length = left + 1 ∧ fin = now + site.longest b left number := by
  induction h with
  | @succeeded one v _ _ _ hv =>
    obtain ⟨message, hr⟩ := ht one List.mem_cons_self
    cases hv.symm.trans hr
  | @failed one _ _ h _ =>
    obtain ⟨message, hr⟩ := ht one List.mem_cons_self
    exact ⟨rfl, by simpa [longest] using h.ended_of_timeout hr⟩
  | @again one _ left number _ rest _ h _ _ ih =>
    obtain ⟨message, hr⟩ := ht one List.mem_cons_self
    obtain ⟨hlen, hfin⟩ := ih fun two hm => ht two (List.mem_cons_of_mem _ hm)
    refine ⟨congrArg (· + 1) hlen, ?_⟩
    rw [hfin, h.ended_of_timeout hr, longest_succ]
    omega

end Tries

/-- The attempts of an execution, and how it ends by them. There is one after the other, with exact pauses in
between, until one succeeds or as many were made as the policy of the node allows; the last one decides. -/
structure Attempted (b : Backoff) (site : Site μ) (place : Nat) (inputs : Inputs) (slot : Option Slot)
    (since fin : Nat) (trials : List Trial) (outcome : Outcome) : Prop where
  count : trials.length ≤ site.node.policy.retries
  isTrial : ∀ one ∈ trials, site.IsTrial place inputs slot one
  first : ∃ one, trials.head? = some one ∧ one.began = since
  next : ∀ (i : Nat) (one two : Trial), trials[i]? = some one → trials[i + 1]? = some two →
    two.began = one.ended + b.delay site.node.policy.backoffMs (i + 1)
  failed : ∀ (i : Nat) (one : Trial), trials[i]? = some one → i + 1 < trials.length →
    ∃ e, one.result = .error e
  last : ∃ one, trials.getLast? = some one ∧ one.ended = fin ∧
    ((∃ v, one.result = .ok v ∧ outcome = .succeeded v) ∨
      ∃ e, one.result = .error e ∧ trials.length = site.node.policy.retries ∧
        outcome = site.failure trials.length e)
  fin_le : fin ≤ since + site.allowance b
  timeouts : (∀ one ∈ trials, ∃ message, one.result = .error (.timeout, message)) →
    trials.length = site.node.policy.retries ∧ fin = since + site.allowance b

/-- How an execution with its permits ends: at once and without an attempt when its state cannot be bound,
and otherwise by its attempts. -/
inductive Retried (b : Backoff) (site : Site μ) (place : Nat) (inputs : Inputs) (since fin : Nat) :
    Ending → Prop
  | unbound {e : StateError} (w : World μ)
      (hw : Slot.bind w site.run ⟨site.id, site.context, inputs⟩ site.node.state = .error e)
      (hfin : fin = since) :
      Retried b site place inputs since fin ⟨[], site.failure 1 (.invocation, e.message), 1⟩
  | attempted {slot : Option Slot} {trials : List Trial} {outcome : Outcome} (w : World μ)
      (hw : Slot.bind w site.run ⟨site.id, site.context, inputs⟩ site.node.state = .ok slot)
      (h : site.Attempted b place inputs slot since fin trials outcome) :
      Retried b site place inputs since fin ⟨trials, outcome, trials.length⟩

theorem Retried.fin_le {since : Nat} (h : site.Retried b place inputs since fin ending) :
    fin ≤ since + site.allowance b := by
  cases h with
  | unbound _ _ hfin => exact hfin ▸ Nat.le_add_right _ _
  | attempted _ _ h => exact h.fin_le

theorem Tries.attempted (hr : 1 ≤ site.node.policy.retries)
    (h : site.Tries b place inputs slot (site.node.policy.retries - 1) 1 now trials outcome fin) :
    site.Attempted b place inputs slot now fin trials outcome := by
  have hretries : site.node.policy.retries - 1 + 1 = site.node.policy.retries := Nat.sub_add_cancel hr
  refine ⟨hretries ▸ h.length_le, h.isTrial, h.head?, fun i one two hone htwo => ?_, h.result_error, ?_,
    longest_first hr ▸ h.le_longest, fun ht => ?_⟩
  · rw [Nat.add_comm i]
    exact h.next i one two hone htwo
  · obtain ⟨one, hlast, hended, hor⟩ := h.getLast?
    refine ⟨one, hlast, hended, hor.imp_right ?_⟩
    rintro ⟨e, he, hlen, ho⟩
    rw [hretries] at hlen
    refine ⟨e, he, hlen, ?_⟩
    rw [ho, hlen, Nat.add_comm 1, hretries]
  · obtain ⟨hlen, hfin⟩ := h.of_timeouts ht
    exact ⟨hlen.trans hretries, longest_first hr ▸ hfin⟩

/-- The program of an execution ends as an execution has to. -/
theorem retried_of_comes (hr : 1 ≤ site.node.policy.retries)
    (h : Comes now (site.task b place inputs) ending fin) :
    site.Retried b place inputs now fin ending := by
  cases h with
  | act w h =>
    dsimp only at h
    split at h
    · next e he =>
      cases h
      exact .unbound w he rfl
    · next slot hslot =>
      obtain ⟨trials, htries, hall, hattempts⟩ := tries_of_comes h
      obtain ⟨all, outcome, attempts⟩ := ending
      obtain rfl : all = trials := hall
      obtain rfl : attempts = all.length := hattempts.trans (Nat.zero_add _)
      exact .attempted w hslot (htries.attempted hr)

/-- When the state of a node cannot be bound, its work is not begun. -/
theorem advance_task_of_error {w : World μ} {e : StateError}
    (h : Slot.bind w site.run ⟨site.id, site.context, inputs⟩ site.node.state = .error e) :
    (site.task b place inputs).advance now w =
      (.finished ⟨[], site.failure 1 (.invocation, e.message), 1⟩, w) := by
  rw [task, Activity.advance, h]
  rfl

end Schedule.Site

end Workflow
