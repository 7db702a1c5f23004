import Workflow.Proofs.Plan.Tables
import Workflow.Run.Progress

namespace Workflow.Progress

variable {p : Plan} {s t u : Progress} {e i : Nat} {v : LinkState} {gone log : List Nat}

/-- The order of nodes that are ready: by layer, then by place. -/
def Before (a b : Nat × Nat) : Prop := a.1 < b.1 ∨ (a.1 = b.1 ∧ a.2 < b.2)

theorem Before.trans {a b c : Nat × Nat} (hab : Before a b) (hbc : Before b c) : Before a c := by
  unfold Before at *
  omega

theorem before_of_not {a b : Nat × Nat} (hne : a ≠ b) (h : ¬ Before a b) : Before b a := by
  unfold Before at *
  have hor : a.1 ≠ b.1 ∨ a.2 ≠ b.2 := by
    by_contra hc
    exact hne (Prod.ext (by omega) (by omega))
  omega

theorem insertPair_perm {a : Nat × Nat} {l : List (Nat × Nat)} (h : a ∉ l) :
    (insertPair a l).Perm (a :: l) := by
  induction l with
  | nil => exact List.Perm.refl _
  | cons b l ih =>
    obtain ⟨hab, hal⟩ := not_or.mp (List.mem_cons.not.mp h)
    rw [insertPair, if_neg hab]
    split
    · exact List.Perm.refl _
    · exact ((ih hal).cons b).trans (List.Perm.swap a b l)

theorem mem_insertPair {a b : Nat × Nat} {l : List (Nat × Nat)} :
    b ∈ insertPair a l ↔ b = a ∨ b ∈ l := by
  induction l with
  | nil => simp [insertPair]
  | cons c l ih =>
    rw [insertPair]
    split
    · next hac => simp [hac]
    · split
      · simp
      · rw [List.mem_cons, ih, List.mem_cons]
        tauto

theorem insertPair_sorted {a : Nat × Nat} {l : List (Nat × Nat)} (hl : l.Pairwise Before) :
    (insertPair a l).Pairwise Before := by
  induction l with
  | nil => exact List.pairwise_singleton _ a
  | cons b l ih =>
    obtain ⟨hb, htail⟩ := List.pairwise_cons.mp hl
    rw [insertPair]
    split
    · exact hl
    · next hab =>
      split
      · next h =>
        refine List.pairwise_cons.mpr ⟨fun c hc => ?_, hl⟩
        rcases List.mem_cons.mp hc with rfl | hc
        · exact h
        · exact Before.trans h (hb c hc)
      · next h =>
        refine List.pairwise_cons.mpr ⟨fun c hc => ?_, ih htail⟩
        rcases mem_insertPair.mp hc with rfl | hc
        · exact before_of_not hab h
        · exact hb c hc

/-- One element less counts when just one of a list no longer passes the test. -/
theorem countP_flip {l : List Nat} (hl : l.Nodup) {f g : Nat → Bool} (hf : f e = true)
    (hg : g e = false) (h : ∀ x, x ≠ e → g x = f x) :
    l.countP g + (if e ∈ l then 1 else 0) = l.countP f := by
  induction l with
  | nil => simp
  | cons x l ih =>
    obtain ⟨hx, hl⟩ := List.nodup_cons.mp hl
    have ih := ih hl
    by_cases hxe : x = e
    · subst hxe
      rw [if_neg hx] at ih
      simp only [List.countP_cons, hf, hg, List.mem_cons_self, if_true]
      simp only [Bool.false_eq_true, if_false]
      omega
    · have hmem : e ∈ x :: l ↔ e ∈ l := by simp [Ne.symm hxe]
      simp only [List.countP_cons, h x hxe, hmem]
      omega

def isPending (s : Progress) (e : Nat) : Bool :=
  match s.links[e]? with
  | some .pending => true
  | _ => false

/-- The number of links into a node without a result. -/
def pendingInto (p : Plan) (s : Progress) (i : Nat) : Nat := (p.into i).countP s.isPending

theorem isPending_iff : s.isPending e = true ↔ s.links[e]? = some .pending := by
  unfold isPending
  split <;> simp_all

theorem isPending_of_eq (h : t.links[e]? = s.links[e]?) : t.isPending e = s.isPending e := by
  rw [isPending, isPending, h]

theorem isPending_congr (h : t.links = s.links) : t.isPending = s.isPending := by
  funext e
  exact isPending_of_eq (by rw [h])

theorem pendingInto_congr (h : t.links = s.links) (i : Nat) : pendingInto p t i = pendingInto p s i := by
  rw [pendingInto, pendingInto, isPending_congr h]

theorem settle_of_none (h : p.targetOf? e = none) :
    s.settle p e v = { s with links := s.links.set e v } := by
  unfold settle
  rw [show (p.flow.links[e]?).bind (fun l => p.flow.placeAt? l.target.endpoint) = none from h]

theorem settle_of_some (h : p.targetOf? e = some i) :
    s.settle p e v = { s with
      links := s.links.set e v
      waiting := s.waiting.set i (s.waiting.getD i 0 - 1)
      ready := if s.waiting.getD i 0 - 1 = 0 then insertPair (p.layer i, i) s.ready else s.ready } := by
  unfold settle
  rw [show (p.flow.links[e]?).bind (fun l => p.flow.placeAt? l.target.endpoint) = some i from h]
  dsimp only
  split <;> rfl

@[simp] theorem settle_links : (s.settle p e v).links = s.links.set e v := by
  cases h : p.targetOf? e with
  | none => rw [settle_of_none h]
  | some i => rw [settle_of_some h]

@[simp] theorem settle_outputs : (s.settle p e v).outputs = s.outputs := by
  cases h : p.targetOf? e with
  | none => rw [settle_of_none h]
  | some i => rw [settle_of_some h]

@[simp] theorem settle_trace : (s.settle p e v).trace = s.trace := by
  cases h : p.targetOf? e with
  | none => rw [settle_of_none h]
  | some i => rw [settle_of_some h]

@[simp] theorem settle_failure : (s.settle p e v).failure = s.failure := by
  cases h : p.targetOf? e with
  | none => rw [settle_of_none h]
  | some i => rw [settle_of_some h]

@[simp] theorem settle_aborted : (s.settle p e v).aborted = s.aborted := by
  cases h : p.targetOf? e with
  | none => rw [settle_of_none h]
  | some i => rw [settle_of_some h]

theorem isPending_settle_of_ne {e' : Nat} (h : e' ≠ e) :
    (s.settle p e v).isPending e' = s.isPending e' := by
  exact isPending_of_eq (by rw [settle_links, List.getElem?_set_ne (Ne.symm h)])

theorem isPending_settle_self (hv : v ≠ .pending) : (s.settle p e v).isPending e = false := by
  rw [Bool.eq_false_iff]
  intro h
  rw [isPending_iff, settle_links, List.getElem?_set_self'] at h
  obtain ⟨_, _, rfl⟩ := Option.map_eq_some_iff.mp h
  exact hv rfl

theorem pendingInto_settle (ht : p.Tabled) (hp : s.isPending e = true) (hv : v ≠ .pending) (i : Nat) :
    pendingInto p (s.settle p e v) i + (if p.targetOf? e = some i then 1 else 0) = pendingInto p s i := by
  have h := countP_flip (ht.into_nodup i) hp (isPending_settle_self (p := p) hv)
    (fun _ => isPending_settle_of_ne)
  simpa only [ht.mem_into, pendingInto] using h

theorem pendingInto_settle_self (ht : p.Tabled) (hp : s.isPending e = true) (hv : v ≠ .pending)
    (hi : p.targetOf? e = some i) : pendingInto p (s.settle p e v) i = pendingInto p s i - 1 := by
  have h := pendingInto_settle ht hp hv i
  rw [if_pos hi] at h
  omega

theorem pendingInto_settle_of_ne (ht : p.Tabled) (hp : s.isPending e = true) (hv : v ≠ .pending)
    (hi : p.targetOf? e ≠ some i) : pendingInto p (s.settle p e v) i = pendingInto p s i := by
  have h := pendingInto_settle ht hp hv i
  rwa [if_neg hi, Nat.add_zero] at h

theorem pendingInto_pos (ht : p.Tabled) (hp : s.isPending e = true) (hi : p.targetOf? e = some i) :
    0 < pendingInto p s i :=
  List.countP_pos_iff.mpr ⟨e, (ht.mem_into i e).mpr hi, hp⟩

theorem pendingInto_eq_zero_iff (ht : p.Tabled) :
    pendingInto p s i = 0 ↔ ∀ e, p.targetOf? e = some i → s.isPending e = false := by
  rw [pendingInto, List.countP_eq_zero]
  simp only [ht.mem_into, Bool.not_eq_true]

theorem targetOf?_lt (h : p.targetOf? e = some i) : i < p.size := by
  obtain ⟨l, _, hl⟩ := Option.bind_eq_some_iff.mp h
  exact Plan.placeAt?_lt hl

/-- Every node waits for as many links as lead to it without a result. The nodes that wait for none are
those that are ready, in their order, and those that are gone, each of them once. -/
structure Counted (p : Plan) (s : Progress) (gone : List Nat) : Prop where
  links_length : s.links.length = p.flow.links.length
  waiting : ∀ i < p.size, s.waiting[i]? = some (pendingInto p s i)
  ready_sorted : s.ready.Pairwise Before
  ready_layer : ∀ x ∈ s.ready, x.1 = p.layer x.2
  nodup : (s.ready.map Prod.snd ++ gone).Nodup
  mem : ∀ i, i ∈ s.ready.map Prod.snd ++ gone ↔ i < p.size ∧ pendingInto p s i = 0

namespace Counted

theorem congr (h : Counted p s gone) (hl : t.links = s.links) (hw : t.waiting = s.waiting)
    (hr : t.ready = s.ready) : Counted p t gone := by
  refine ⟨?_, fun i hi => ?_, ?_, ?_, ?_, fun i => ?_⟩
  · rw [hl, h.links_length]
  · rw [hw, h.waiting i hi, pendingInto_congr hl]
  · rw [hr]
    exact h.ready_sorted
  · rw [hr]
    exact h.ready_layer
  · rw [hr]
    exact h.nodup
  · rw [hr, pendingInto_congr hl]
    exact h.mem i

theorem perm {gone' : List Nat} (h : Counted p s gone) (hp : gone.Perm gone') : Counted p s gone' := by
  have hperm := hp.append_left (s.ready.map Prod.snd)
  exact ⟨h.links_length, h.waiting, h.ready_sorted, h.ready_layer, hperm.nodup_iff.mp h.nodup,
    fun i => hperm.mem_iff.symm.trans (h.mem i)⟩

theorem pop {x : Nat × Nat} {rest : List (Nat × Nat)} (h : Counted p s gone)
    (hr : s.ready = x :: rest) : Counted p { s with ready := rest } (gone ++ [x.2]) := by
  have hperm : (rest.map Prod.snd ++ (gone ++ [x.2])).Perm (s.ready.map Prod.snd ++ gone) := by
    rw [hr, ← List.append_assoc]
    exact List.perm_append_singleton _ _
  have hsorted := h.ready_sorted
  have hlayer := h.ready_layer
  rw [hr] at hsorted hlayer
  refine ⟨h.links_length, h.waiting, (List.pairwise_cons.mp hsorted).2,
    fun y hy => hlayer y (List.mem_cons_of_mem _ hy), ?_, fun i => ?_⟩
  · exact hperm.nodup_iff.mpr h.nodup
  · rw [hperm.mem_iff]
    exact h.mem i

theorem getD_waiting (h : Counted p s gone) (hi : p.targetOf? e = some i) :
    s.waiting.getD i 0 = pendingInto p s i := by
  rw [List.getD_eq_getElem?_getD, h.waiting i (targetOf?_lt hi), Option.getD_some]

theorem waiting_settle (ht : p.Tabled) (h : Counted p s gone) (hp : s.isPending e = true)
    (hv : v ≠ .pending) (hlt : i < p.size) :
    (s.settle p e v).waiting[i]? = some (pendingInto p (s.settle p e v) i) := by
  by_cases hi : p.targetOf? e = some i
  · rw [pendingInto_settle_self ht hp hv hi, settle_of_some hi, h.getD_waiting hi,
      List.getElem?_set_self', h.waiting i hlt]
    rfl
  · rw [pendingInto_settle_of_ne ht hp hv hi, ← h.waiting i hlt]
    cases ht : p.targetOf? e with
    | none => rw [settle_of_none ht]
    | some t =>
      have hne : t ≠ i := fun he => hi (he ▸ ht)
      rw [settle_of_some ht, List.getElem?_set_ne hne]

theorem ready_settle (ht : p.Tabled) (h : Counted p s gone) (hp : s.isPending e = true)
    (hv : v ≠ .pending) (hi : p.targetOf? e = some i) :
    (s.settle p e v).ready =
      if pendingInto p (s.settle p e v) i = 0 then insertPair (p.layer i, i) s.ready else s.ready := by
  rw [pendingInto_settle_self ht hp hv hi, settle_of_some hi, h.getD_waiting hi]

/-- The last link into a node makes it ready. -/
theorem settle_last (ht : p.Tabled) (h : Counted p s gone) (hp : s.isPending e = true)
    (hv : v ≠ .pending) (hi : p.targetOf? e = some i)
    (hz : pendingInto p (s.settle p e v) i = 0) : Counted p (s.settle p e v) gone := by
  have hr := h.ready_settle ht hp hv hi
  rw [if_pos hz] at hr
  -- a node that waits for a link is neither ready nor gone
  have hnot : i ∉ s.ready.map Prod.snd ++ gone := fun hm =>
    Nat.ne_of_gt (pendingInto_pos ht hp hi) ((h.mem i).mp hm).2
  have hnew : (p.layer i, i) ∉ s.ready := fun hm =>
    hnot (List.mem_append_left _ (List.mem_map_of_mem hm))
  have hperm : ((s.settle p e v).ready.map Prod.snd ++ gone).Perm
      (i :: (s.ready.map Prod.snd ++ gone)) := by
    rw [hr]
    exact ((insertPair_perm hnew).map Prod.snd).append_right gone
  refine ⟨?_, fun j hj => h.waiting_settle ht hp hv hj, hr ▸ insertPair_sorted h.ready_sorted,
    fun x hx => ?_, hperm.nodup_iff.mpr (List.nodup_cons.mpr ⟨hnot, h.nodup⟩), fun j => ?_⟩
  · rw [settle_links, List.length_set, h.links_length]
  · rw [hr] at hx
    rcases mem_insertPair.mp hx with rfl | hx
    · rfl
    · exact h.ready_layer x hx
  · rw [hperm.mem_iff, List.mem_cons, h.mem]
    by_cases hji : j = i
    · subst hji
      simp [targetOf?_lt hi, hz]
    · have hne : p.targetOf? e ≠ some j := fun he => hji (Option.some.inj (he.symm.trans hi))
      simp [hji, pendingInto_settle_of_ne ht hp hv hne]

theorem settle_other (ht : p.Tabled) (h : Counted p s gone) (hp : s.isPending e = true)
    (hv : v ≠ .pending) (hz : ∀ i, p.targetOf? e = some i → pendingInto p (s.settle p e v) i ≠ 0) :
    Counted p (s.settle p e v) gone := by
  have hr : (s.settle p e v).ready = s.ready := by
    cases hi : p.targetOf? e with
    | none => rw [settle_of_none hi]
    | some i => rw [h.ready_settle ht hp hv hi, if_neg (hz i hi)]
  refine ⟨?_, fun j hj => h.waiting_settle ht hp hv hj, hr ▸ h.ready_sorted, hr ▸ h.ready_layer,
    hr ▸ h.nodup, fun j => ?_⟩
  · rw [settle_links, List.length_set, h.links_length]
  · rw [hr, h.mem]
    by_cases hj : p.targetOf? e = some j
    · have hpos := pendingInto_pos ht hp hj
      have hnz := hz j hj
      omega
    · rw [pendingInto_settle_of_ne ht hp hv hj]

theorem settle (ht : p.Tabled) (h : Counted p s gone) (hp : s.isPending e = true)
    (hv : v ≠ .pending) : Counted p (s.settle p e v) gone := by
  by_cases hz : ∃ i, p.targetOf? e = some i ∧ pendingInto p (s.settle p e v) i = 0
  · obtain ⟨i, hi, hz⟩ := hz
    exact h.settle_last ht hp hv hi hz
  · exact h.settle_other ht hp hv fun i hi hz' => hz ⟨i, hi, hz'⟩

end Counted

theorem targetOf?_lt_links (h : p.targetOf? e = some i) : e < p.flow.links.length := by
  obtain ⟨l, hl, _⟩ := Option.bind_eq_some_iff.mp h
  exact (List.getElem?_eq_some_iff.mp hl).1

theorem isPending_start : (start p).isPending e = true ↔ e < p.flow.links.length := by
  rw [isPending_iff, start, List.getElem?_replicate]
  simp

theorem pendingInto_start (ht : p.Tabled) (i : Nat) : pendingInto p (start p) i = (p.into i).length := by
  rw [pendingInto, List.countP_eq_length]
  intro e he
  exact isPending_start.mpr (targetOf?_lt_links ((ht.mem_into i e).mp he))

theorem mem_insertAll {is : List Nat} {l : List (Nat × Nat)} {x : Nat × Nat} :
    x ∈ is.foldl (fun ready i => insertPair (p.layer i, i) ready) l ↔
      x ∈ l ∨ (x.2 ∈ is ∧ x.1 = p.layer x.2) := by
  induction is generalizing l with
  | nil => simp
  | cons i is ih =>
    rw [List.foldl_cons, ih, mem_insertPair, List.mem_cons, Prod.ext_iff]
    constructor
    · rintro ((⟨hx, rfl⟩ | hm) | ⟨hm, hx⟩)
      · exact .inr ⟨.inl rfl, hx⟩
      · exact .inl hm
      · exact .inr ⟨.inr hm, hx⟩
    · rintro (hm | ⟨rfl | hm, hx⟩)
      · exact .inl (.inr hm)
      · exact .inl (.inl ⟨hx, rfl⟩)
      · exact .inr ⟨hm, hx⟩

theorem insertAll_sorted {is : List Nat} {l : List (Nat × Nat)} (hl : l.Pairwise Before) :
    (is.foldl (fun ready i => insertPair (p.layer i, i) ready) l).Pairwise Before := by
  induction is generalizing l with
  | nil => exact hl
  | cons i is ih => exact ih (insertPair_sorted hl)

theorem places_nodup {l : List (Nat × Nat)} (hl : l.Pairwise Before)
    (hlayer : ∀ x ∈ l, x.1 = p.layer x.2) : (l.map Prod.snd).Nodup := by
  refine List.pairwise_map.mpr (hl.imp_of_mem fun {a b} ha hb hab he => ?_)
  have hab' : a.1 = b.1 := by rw [hlayer a ha, hlayer b hb, he]
  unfold Before at hab
  omega

theorem counted_start (ht : p.Tabled) : Counted p (start p) [] := by
  have hlayer : ∀ x ∈ (start p).ready, x.1 = p.layer x.2 := fun x hx =>
    (mem_insertAll.mp hx).elim (fun h => absurd h List.not_mem_nil) And.right
  have hsorted : (start p).ready.Pairwise Before := insertAll_sorted List.Pairwise.nil
  refine ⟨?_, fun i hi => ?_, hsorted, hlayer, ?_, fun i => ?_⟩
  · exact List.length_replicate
  · rw [pendingInto_start ht, start, List.getElem?_map, List.getElem?_range hi, Option.map_some]
  · rw [List.append_nil]
    exact places_nodup hsorted hlayer
  · rw [List.append_nil, pendingInto_start ht, List.length_eq_zero_iff]
    simp only [start, List.mem_map, mem_insertAll, List.not_mem_nil, false_or, List.mem_filter,
      List.mem_range, List.isEmpty_iff, Prod.exists, exists_eq_right]

/-- How the progress of a run changes: links that are pending get their results one after the other, and
nodes that are ready leave, in order. The first list has the links, the second one the nodes. -/
inductive Settling (p : Plan) (s : Progress) : List Nat → List Nat → Progress → Prop where
  | refl : Settling p s [] [] s
  | settle {log gone : List Nat} {t : Progress} {e : Nat} {v : LinkState}
      (h : Settling p s log gone t) (hp : t.isPending e = true) (hv : v ≠ .pending)
      (hw : ∀ i, p.targetOf? e = some i → 0 < t.waiting.getD i 0) :
      Settling p s (log ++ [e]) gone (t.settle p e v)
  | pop {log gone : List Nat} {t : Progress} {x : Nat × Nat} {rest : List (Nat × Nat)}
      (h : Settling p s log gone t) (hr : t.ready = x :: rest) :
      Settling p s log (gone ++ [x.2]) { t with ready := rest }
  | note {log gone : List Nat} {t u : Progress} (h : Settling p s log gone t)
      (hl : u.links = t.links) (hw : u.waiting = t.waiting) (hr : u.ready = t.ready) :
      Settling p s log gone u

namespace Settling

variable {before : List Nat}

theorem trans {log' gone' : List Nat} (h : Settling p s log gone t)
    (h' : Settling p t log' gone' u) : Settling p s (log ++ log') (gone ++ gone') u := by
  induction h' with
  | refl => simpa using h
  | settle _ hp hv hw ih =>
    rw [← List.append_assoc]
    exact ih.settle hp hv hw
  | pop _ hr ih =>
    rw [← List.append_assoc]
    exact ih.pop hr
  | note _ hl hw hr ih => exact ih.note hl hw hr

theorem counted (ht : p.Tabled) (hc : Counted p s before) (h : Settling p s log gone t) :
    Counted p t (before ++ gone) := by
  induction h with
  | refl => simpa using hc
  | settle _ hp hv _ ih => exact ih.settle ht hp hv
  | pop _ hr ih =>
    rw [← List.append_assoc]
    exact ih.pop hr
  | note _ hl hw hr ih => exact ih.congr hl hw hr

theorem links_eq (h : Settling p s log gone t) (he : s.isPending e = false) :
    t.links[e]? = s.links[e]? := by
  induction h with
  | refl => rfl
  | @settle _ _ t e' _ _ hp _ _ ih =>
    have hne : e' ≠ e := by
      rintro rfl
      rw [isPending_of_eq ih, he] at hp
      cases hp
    rw [settle_links, List.getElem?_set_ne hne, ih]
  | pop _ _ ih => exact ih
  | note _ hl _ _ ih => rw [hl, ih]

theorem isPending_eq_false (h : Settling p s log gone t) (he : s.isPending e = false) :
    t.isPending e = false := by
  rw [isPending_of_eq (h.links_eq he), he]

theorem settled (h : Settling p s log gone t) : ∀ e ∈ log, t.isPending e = false := by
  induction h with
  | refl => exact fun e he => absurd he List.not_mem_nil
  | @settle log gone t e v _ hp hv _ ih =>
    intro e' he'
    by_cases hee : e' = e
    · rw [hee, isPending_settle_self hv]
    · rw [isPending_settle_of_ne hee]
      exact ih e' ((List.mem_append.mp he').resolve_right (by simpa using hee))
  | pop _ _ ih => exact ih
  | note _ hl _ _ ih =>
    rw [isPending_congr hl]
    exact ih

/-- No link gets a result twice. -/
theorem log_nodup (h : Settling p s log gone t) : log.Nodup := by
  induction h with
  | refl => exact List.nodup_nil
  | settle h hp _ _ ih =>
    refine List.nodup_append.mpr ⟨ih, List.nodup_singleton _, fun a ha b hb hab => ?_⟩
    have hfalse := h.settled a ha
    rw [hab, List.mem_singleton.mp hb, hp] at hfalse
    cases hfalse
  | pop _ _ ih => exact ih
  | note _ _ _ _ ih => exact ih

end Settling

end Workflow.Progress
