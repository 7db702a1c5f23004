import Mathlib.Logic.Function.Basic
import Workflow.Proofs.State.Lifetime

namespace Workflow

/-- Sweep a part of a store: take away the entries in it that are expired. -/
def MemoryStore.sweep (s : MemoryStore) (part : String → Bool) (now : Nat) : MemoryStore :=
  s.filter (fun e => !(part e.1 && e.2.isExpired now))

theorem MemoryStore.sweep_all (s : MemoryStore) (now : Nat) : s.sweep (fun _ => true) now = s.purge now := by
  simp only [sweep, purge, Bool.true_and]

namespace SharedStore

/-- What can be asked of a store that is shared. Times to live are milliseconds. -/
inductive Call where
  | get (key : String)
  | set (key : String) (value : Json) (ttl : Option Nat)
  | delete (key : String)
  | purge

/-- What a call under way is to do next. Apart from a deletion it has the time at which it began. -/
inductive Task where
  | read (key : String) (since : Nat)
  | remove (key : String) (since : Nat)
  | set (key : String) (value : Json) (ttl : Option Nat) (since : Nat)
  | delete (key : String)
  | sweep (since : Nat)

/-- What happens to a store that is shared: time goes by, a call begins, or a call under way does one thing
at once. -/
inductive Event where
  | wait (now : Nat)
  | begin (call : Call)
  | read (key : String) (since : Nat) (answer : Option Json)
  | remove (key : String) (since : Nat)
  | set (key : String) (value : Json) (ttl : Option Nat) (since : Nat)
  | delete (key : String)
  | sweep (part : String → Bool) (since : Nat)
  | finish

/-- What a call that begins is to do first. -/
def Call.task (now : Nat) : Call → Task
  | get key => .read key now
  | set key value ttl => .set key value ttl now
  | delete key => .delete key
  | purge => .sweep now

def Task.since? : Task → Option Nat
  | read _ since => some since
  | remove _ since => some since
  | set _ _ _ since => some since
  | delete _ => none
  | sweep since => some since

/-- A get that met an expired entry is still to take it away. -/
def afterRead (s : MemoryStore) (key : String) (since : Nat) : Option Task :=
  if (Assoc.get? s key).any (fun e => e.isExpired since) then some (.remove key since) else none

/-- A get whose steps follow one another at once is that of a store. -/
theorem get_eq_of_afterRead (s : MemoryStore) (key : String) (since : Nat) :
    s.get since key =
      (s.live? since key, if (afterRead s key since).isSome then s.removeIfExpired since key else s) := by
  unfold MemoryStore.get MemoryStore.removeIfExpired afterRead
  split <;> rfl

/-- What a call does at once, what this makes of the store, and what the call is to do then. A get reads at
the time at which it began, and takes away what is expired at that time. A purge goes through the store
part by part, as often as it likes. -/
inductive Acts : Task → MemoryStore → Event → MemoryStore → Option Task → Prop where
  | read (key : String) (since : Nat) (s : MemoryStore) :
      Acts (.read key since) s (.read key since (s.live? since key)) s (afterRead s key since)
  | remove (key : String) (since : Nat) (s : MemoryStore) :
      Acts (.remove key since) s (.remove key since) (s.removeIfExpired since key) none
  | set (key : String) (value : Json) (ttl : Option Nat) (since : Nat) (s : MemoryStore) :
      Acts (.set key value ttl since) s (.set key value ttl since) (s.set since key value ttl) none
  | delete (key : String) (s : MemoryStore) : Acts (.delete key) s (.delete key) (s.delete key) none
  | sweep (part : String → Bool) (since : Nat) (s : MemoryStore) :
      Acts (.sweep since) s (.sweep part since) (s.sweep part since) (some (.sweep since))
  | finish (since : Nat) (s : MemoryStore) : Acts (.sweep since) s .finish s none

end SharedStore

/-- A store in memory with the time that the clock shows and the calls under way. -/
structure SharedStore where
  clock : Nat
  entries : MemoryStore
  tasks : List SharedStore.Task

namespace SharedStore

variable {c c' : SharedStore} {event : Event} {events : List Event} {task : Task} {next : Option Task}
variable {s s' : MemoryStore} {key : String} {since now : Nat} {part : String → Bool}

/-- One step: the clock goes on, a call begins, or any one of the calls under way does one thing. -/
inductive Step : SharedStore → Event → SharedStore → Prop where
  | wait {c : SharedStore} {now : Nat} (h : c.clock ≤ now) : Step c (.wait now) { c with clock := now }
  | begin {c : SharedStore} (call : Call) :
      Step c (.begin call) { c with tasks := call.task c.clock :: c.tasks }
  | act {c : SharedStore} {task : Task} {others : List Task} {event : Event} {s : MemoryStore}
      {next : Option Task} (ht : c.tasks.Perm (task :: others)) (h : Acts task c.entries event s next) :
      Step c event ⟨c.clock, s, next.toList ++ others⟩

theorem Step.act_first {clock : Nat} {others : List Task} (h : Acts task s event s' next) :
    Step ⟨clock, s, task :: others⟩ event ⟨clock, s', next.toList ++ others⟩ :=
  .act (List.Perm.refl _) h

/-- A store comes to a state by steps; in the beginning it is empty. -/
inductive Reached : List Event → SharedStore → Prop where
  | empty (clock : Nat) : Reached [] ⟨clock, [], []⟩
  | step {events : List Event} {event : Event} {c c' : SharedStore} (h : Reached events c)
      (hs : Step c event c') : Reached (events ++ [event]) c'

/-- What an event makes of a map that only sets and deletions change. -/
def Event.onIdeal (held : String → Option Entry) : Event → String → Option Entry
  | set key value ttl since => Function.update held key (some ⟨value, MemoryStore.expiry since ttl⟩)
  | delete key => Function.update held key none
  | _ => held

/-- The entries after events of a map that only sets and deletions change. -/
def ideal (events : List Event) : String → Option Entry := events.foldl Event.onIdeal (fun _ => none)

/-- What an entry is worth at a time. -/
def valueAt (held : Option Entry) (now : Nat) : Option Json :=
  held.bind (fun e => if e.isExpired now then none else some e.value)

/-- A get or a purge takes entries away. -/
def Event.Removes : Event → Prop
  | remove _ _ => True
  | sweep _ _ => True
  | _ => False

theorem ideal_concat (events : List Event) (event : Event) :
    ideal (events ++ [event]) = event.onIdeal (ideal events) := by
  rw [ideal, List.foldl_append]
  rfl

/-- The entries of one map are those of another, but that some which are expired are missing. -/
def Covers (kept held : String → Option Entry) (now : Nat) : Prop :=
  ∀ key, kept key = held key ∨ kept key = none ∧ ∃ e, held key = some e ∧ e.isExpired now = true

section Covers

variable {a b held : String → Option Entry} {t : Nat}

theorem Covers.refl (held : String → Option Entry) (now : Nat) : Covers held held now := fun _ => .inl rfl

theorem Covers.mono (h : Covers a b t) (ht : t ≤ now) : Covers a b now := fun key =>
  (h key).imp_right fun ⟨hnone, e, he, hexp⟩ => ⟨hnone, e, he, any_le_mono ht hexp⟩

theorem Covers.trans (h : Covers a b now) (h' : Covers b held now) : Covers a held now := by
  intro key
  rcases h key with hab | ⟨hnone, e, he, hexp⟩
  · rw [hab]
    exact h' key
  · rcases h' key with hb | ⟨hb, _⟩
    · exact .inr ⟨hnone, e, hb ▸ he, hexp⟩
    · cases hb.symm.trans he

theorem Covers.update (h : Covers a b now) (key : String) (e? : Option Entry) :
    Covers (Function.update a key e?) (Function.update b key e?) now := by
  intro k
  by_cases hk : k = key
  · subst hk
    exact .inl (by rw [Function.update_self, Function.update_self])
  · rw [Function.update_of_ne hk, Function.update_of_ne hk]
    exact h k

theorem Covers.eq_some {e : Entry} (h : Covers a b t) (ht : t ≤ now) (hb : b key = some e)
    (he : e.isExpired now = false) : a key = some e := by
  rcases h key with hab | ⟨_, e', hb', hexp⟩
  · exact hab.trans hb
  · obtain rfl : e = e' := Option.some.inj (hb.symm.trans hb')
    cases he.symm.trans (any_le_mono ht hexp)

/-- A look at a time shows what the whole map holds then, or holds now. -/
theorem Covers.exists_valueAt (h : Covers a held now) (ht : t ≤ now) (key : String) :
    ∃ u, t ≤ u ∧ u ≤ now ∧ valueAt (a key) t = valueAt (held key) u := by
  rcases h key with hkey | ⟨hnone, e, he, hexp⟩
  · exact ⟨t, Nat.le_refl t, ht, by rw [hkey]⟩
  · exact ⟨now, ht, Nat.le_refl now, by rw [hnone, he, valueAt, valueAt, Option.bind_some, if_pos hexp]; rfl⟩

end Covers

theorem get?_set (s : MemoryStore) (key : String) (value : Json) (ttl : Option Nat) :
    Assoc.get? (s.set since key value ttl) =
      Function.update (Assoc.get? s) key (some ⟨value, MemoryStore.expiry since ttl⟩) := by
  funext k
  rw [MemoryStore.set, Assoc.get?_insert, Function.update_apply]
  exact if_congr eq_comm rfl rfl

theorem get?_delete (s : MemoryStore) (key : String) :
    Assoc.get? (s.delete key) = Function.update (Assoc.get? s) key none := by
  funext k
  rw [MemoryStore.delete, Assoc.get?_erase, Function.update_apply]
  exact if_congr eq_comm rfl rfl

theorem covers_sweep (hs : Assoc.Sorted s) :
    Covers (Assoc.get? (s.sweep part since)) (Assoc.get? s) since := by
  intro k
  rw [MemoryStore.sweep, hs.get?_filter]
  cases hk : Assoc.get? s k with
  | none => exact .inl rfl
  | some e =>
    cases hp : part k && e.isExpired since with
    | false => exact .inl (by simp [Option.filter, hp])
    | true => exact .inr ⟨by simp [Option.filter, hp], e, rfl, (Bool.and_eq_true_iff.mp hp).2⟩

/-- A get looks once more at what it takes away. -/
theorem covers_removeIfExpired (s : MemoryStore) (key : String) :
    Covers (Assoc.get? (s.removeIfExpired since key)) (Assoc.get? s) since := by
  intro k
  unfold MemoryStore.removeIfExpired
  split
  · next hexp =>
    rw [Assoc.get?_erase]
    split
    · next hk =>
      subst hk
      cases he : Assoc.get? s key with
      | none => exact .inl rfl
      | some e => exact .inr ⟨rfl, e, rfl, by rwa [he, Option.any_some] at hexp⟩
    · exact .inl rfl
  · exact .inl rfl

namespace Acts

theorem sorted (h : Acts task s event s' next) (hs : Assoc.Sorted s) : Assoc.Sorted s' := by
  cases h with
  | read | finish => exact hs
  | set => exact hs.insert _ _
  | delete => exact hs.erase _
  | sweep => exact hs.filter _
  | remove =>
    unfold MemoryStore.removeIfExpired
    split
    · exact hs.erase _
    · exact hs

/-- A call keeps the time at which it began. -/
theorem since_eq {t : Task} (h : Acts task s event s' next) (hn : next = some t) :
    t.since? = task.since? := by
  cases h with
  | read key since s =>
    rw [afterRead] at hn
    split at hn
    · cases hn
      rfl
    · cases hn
  | sweep =>
    cases hn
    rfl
  | remove | set | delete | finish => cases hn

/-- To read is to change nothing, and to take away is to leave out what is expired. -/
theorem covers_of_removes (h : Acts task s event s' next) (hs : Assoc.Sorted s)
    (ht : ∀ since, task.since? = some since → since ≤ now) (hr : event.Removes) :
    Covers (Assoc.get? s') (Assoc.get? s) now := by
  cases h with
  | read | set | delete | finish => exact hr.elim
  | remove key since => exact (covers_removeIfExpired s key).mono (ht since rfl)
  | sweep part since => exact (covers_sweep hs).mono (ht since rfl)

/-- The step: the store goes on to have the entries of the whole map but for expired ones. -/
theorem covers {held : String → Option Entry} (h : Acts task s event s' next) (hs : Assoc.Sorted s)
    (ht : ∀ since, task.since? = some since → since ≤ now) (hc : Covers (Assoc.get? s) held now) :
    Covers (Assoc.get? s') (event.onIdeal held) now := by
  cases h with
  | read | finish => exact hc
  | set key value ttl since =>
    rw [get?_set]
    exact hc.update key _
  | delete key =>
    rw [get?_delete]
    exact hc.update key _
  | remove key since => exact ((Acts.remove key since s).covers_of_removes hs ht trivial).trans hc
  | sweep part since => exact ((Acts.sweep part since s).covers_of_removes hs ht trivial).trans hc

end Acts

/-- What holds of every state: no call under way began later than now, no key stands in the store twice,
and the store has the entries of the map that only sets and deletions change, but for expired ones. -/
structure Sound (events : List Event) (c : SharedStore) : Prop where
  begun : ∀ task ∈ c.tasks, ∀ since, task.since? = some since → since ≤ c.clock
  sorted : Assoc.Sorted c.entries
  covers : Covers (Assoc.get? c.entries) (ideal events) c.clock

theorem Call.since_le {call : Call} (h : (call.task now).since? = some since) : since ≤ now := by
  cases call with
  | delete => cases h
  | get | set | purge => exact Nat.le_of_eq (Option.some.inj h).symm

theorem Sound.step (h : Sound events c) (hs : Step c event c') : Sound (events ++ [event]) c' := by
  cases hs with
  | wait hle =>
    refine ⟨fun task ht since hsince => Nat.le_trans (h.begun task ht since hsince) hle, h.sorted, ?_⟩
    rw [ideal_concat]
    exact h.covers.mono hle
  | begin call =>
    refine ⟨List.forall_mem_cons.mpr ⟨fun since => Call.since_le, h.begun⟩, h.sorted, ?_⟩
    rw [ideal_concat]
    exact h.covers
  | act ht ha =>
    have htask := h.begun _ (ht.mem_iff.mpr List.mem_cons_self)
    refine ⟨fun t hm since hsince => ?_, ha.sorted h.sorted, ?_⟩
    · rcases List.mem_append.mp hm with hm | hm
      · exact htask since (ha.since_eq (Option.mem_toList.mp hm) ▸ hsince)
      · exact h.begun t (ht.mem_iff.mpr (List.mem_cons_of_mem _ hm)) since hsince
    · rw [ideal_concat]
      exact ha.covers h.sorted htask h.covers

theorem Reached.sound (h : Reached events c) : Sound events c := by
  induction h with
  | empty clock => exact ⟨fun _ ht => absurd ht List.not_mem_nil, Assoc.Sorted.nil, Covers.refl _ _⟩
  | step _ hs ih => exact ih.step hs

/-- A get that is to read began when the clock showed its time. -/
theorem Reached.exists_begin (h : Reached events c) (ht : .read key since ∈ c.tasks) :
    ∃ before after, events = before ++ .begin (.get key) :: after ∧
      ∃ first, Reached before first ∧ first.clock = since := by
  induction h with
  | empty => cases ht
  | @step events event c c' h hs ih =>
    -- a get began with this step or was under way before it, for no call is to read later only
    have hcase : .read key since ∈ c.tasks ∨ event = .begin (.get key) ∧ c.clock = since := by
      cases hs with
      | wait => exact .inl ht
      | begin call =>
        rcases List.mem_cons.mp ht with heq | ht
        · cases call with
          | get k =>
            cases heq
            exact .inr ⟨rfl, rfl⟩
          | set | delete | purge => cases heq
        · exact .inl ht
      | act hperm ha =>
        rcases List.mem_append.mp ht with ht | ht
        · have hnext := Option.mem_toList.mp ht
          cases ha with
          | read key since s =>
            rw [afterRead] at hnext
            split at hnext <;> cases hnext
          | remove | set | delete | finish => cases hnext
          | sweep => cases hnext
        · exact .inl (hperm.mem_iff.mpr (List.mem_cons_of_mem _ ht))
    rcases hcase with ht | ⟨rfl, rfl⟩
    · obtain ⟨before, after, rfl, hfirst⟩ := ih ht
      exact ⟨before, after ++ [event], by simp, hfirst⟩
    · exact ⟨events, [], rfl, c, h, rfl⟩

/-- However the steps of calls mix, no get and no purge takes away an entry that is not expired then, and
every get answers what a map changed only by sets and deletions would have answered, when it is read for
some time since the get began. -/
theorem lazy_expiry (h : Reached events c) (hs : Step c event c') :
    (event.Removes → ∀ key e, Assoc.get? c.entries key = some e → e.isExpired c.clock = false →
      Assoc.get? c'.entries key = some e) ∧
    ∀ key since answer, event = .read key since answer →
      (∃ before after, events = before ++ .begin (.get key) :: after ∧
        ∃ first, Reached before first ∧ first.clock = since) ∧
      ∃ t, since ≤ t ∧ t ≤ c.clock ∧ answer = valueAt (ideal events key) t := by
  have hsound := h.sound
  refine ⟨fun hr key e he hlive => ?_, ?_⟩
  · cases hs with
    | wait | begin => exact hr.elim
    | act hperm ha =>
      have htask := hsound.begun _ (hperm.mem_iff.mpr List.mem_cons_self)
      exact (ha.covers_of_removes hsound.sorted htask hr).eq_some (Nat.le_refl _) he hlive
  · rintro key since answer rfl
    cases hs with
    | act hperm ha =>
      cases ha with
      | read =>
        have ht : .read key since ∈ c.tasks := hperm.mem_iff.mpr List.mem_cons_self
        exact ⟨h.exists_begin ht, hsound.covers.exists_valueAt (hsound.begun _ ht since rfl) key⟩

def stale : Entry := ⟨.str "old", some 5⟩

def fresh : Entry := ⟨.str "new", none⟩

/-- A get has met an expired entry and is still to take it away when another call puts a new one in its
place. -/
theorem reached_overtaken : Reached
    [.begin (.set "k" (.str "old") (some 5)), .set "k" (.str "old") (some 5) 0, .wait 5, .begin (.get "k"),
      .read "k" 5 none, .begin (.set "k" (.str "new") none), .set "k" (.str "new") none 5]
    ⟨5, [("k", fresh)], [.remove "k" 5]⟩ := by
  have hset : Step ⟨0, [], [.set "k" (.str "old") (some 5) 0]⟩ _ ⟨0, [("k", stale)], []⟩ :=
    Step.act_first (.set "k" (.str "old") (some 5) 0 [])
  have hread : Step ⟨5, [("k", stale)], [.read "k" 5]⟩ _ ⟨5, [("k", stale)], [.remove "k" 5]⟩ :=
    Step.act_first (.read "k" 5 [("k", stale)])
  have hreplace : Step ⟨5, [("k", stale)], [.set "k" (.str "new") none 5, .remove "k" 5]⟩ _
      ⟨5, [("k", fresh)], [.remove "k" 5]⟩ :=
    Step.act_first (.set "k" (.str "new") none 5 [("k", stale)])
  have hold := ((Reached.empty 0).step (.begin (.set "k" (.str "old") (some 5)))).step hset
  have hmet := ((hold.step (.wait (Nat.zero_le 5))).step (.begin (.get "k"))).step hread
  exact (hmet.step (.begin (.set "k" (.str "new") none))).step hreplace

/-- The new entry stays, and the next get answers its value. -/
theorem lazy_expiry_overtaken : ∃ events c c', Reached events c ∧ Step c (.remove "k" 5) c' ∧
    Assoc.get? c'.entries "k" = some fresh ∧
    ∃ events' d d', Reached events' d ∧ Step d (.read "k" 5 (some (.str "new"))) d' ∧
      ∃ t, 5 ≤ t ∧ t ≤ d.clock ∧ some (.str "new") = valueAt (ideal events' "k") t := by
  have hremove : Step ⟨5, [("k", fresh)], [.remove "k" 5]⟩ _ ⟨5, [("k", fresh)], []⟩ :=
    Step.act_first (.remove "k" 5 [("k", fresh)])
  have hread : Step ⟨5, [("k", fresh)], [.read "k" 5]⟩ (.read "k" 5 (some (.str "new")))
      ⟨5, [("k", fresh)], []⟩ := Step.act_first (.read "k" 5 [("k", fresh)])
  have hstays := (lazy_expiry reached_overtaken hremove).1 trivial "k" fresh rfl rfl
  have hnext := (reached_overtaken.step hremove).step (.begin (.get "k"))
  obtain ⟨_, hanswer⟩ := (lazy_expiry hnext hread).2 "k" 5 _ rfl
  exact ⟨_, _, _, reached_overtaken, hremove, hstays, _, _, _, hnext, hread, hanswer⟩

end SharedStore

end Workflow
