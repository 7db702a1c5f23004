import Workflow.Document.Read
import Workflow.Document.Write
import Workflow.Proofs.Tree.Values

namespace Workflow

@[simp] theorem get?_member?_self (name : String) (v : Option Json) :
    Assoc.get? (member? name v) name = v := by
  cases v with
  | none => rfl
  | some v => exact Assoc.get?_cons_self name v []

@[simp] theorem get?_member?_of_ne {name a : String} (h : name ≠ a) (v : Option Json) :
    Assoc.get? (member? name v) a = none := by
  cases v with
  | none => rfl
  | some v => exact Assoc.get?_cons_of_ne h v []

theorem sublist_member? {fields : List (String × Json)} {names : List String} {name : String}
    {v : Option Json} (h : (fields.map Prod.fst).Sublist names) :
    ((fields ++ member? name v).map Prod.fst).Sublist (names ++ [name]) := by
  rw [List.map_append]
  refine h.append ?_
  cases v with
  | none => exact List.nil_sublist _
  | some v => exact List.Sublist.refl _

namespace Tree

variable {α : Type} {f : Format} {name : String} {names : List String}

theorem isPresent?_ofJson (v : Json) : (ofJson v).isPresent? = some (!v.isNull) := by
  cases v <;> rfl

section Record

/-- Reading the members of a map that names none of them twice finds each of them. -/
theorem exists_foldlM_addMember (names : List String) {entries : List (String × Tree)}
    (h : (entries.map Prod.fst).Nodup) (found : Assoc Tree) (hf : ∀ e ∈ entries, found.get? e.1 = none) :
    ∃ r, (entries.map named).foldlM (addMember names) found = some r ∧
      ∀ name ∈ names, r.get? name = (Assoc.get? entries name).or (found.get? name) := by
  induction entries generalizing found with
  | nil => exact ⟨found, rfl, fun name _ => rfl⟩
  | cons e entries ih =>
    obtain ⟨k, t⟩ := e
    obtain ⟨hk, ht⟩ := List.nodup_cons.mp h
    have hne : ∀ e ∈ entries, k ≠ e.1 := fun e he hke =>
      hk (List.mem_map.mpr ⟨e, he, hke.symm⟩)
    have hrest : ∀ e ∈ entries, found.get? e.1 = none := fun e he => hf e (List.mem_cons_of_mem _ he)
    have hnew : found.contains k = false := by
      rw [Assoc.contains, hf (k, t) List.mem_cons_self, Option.isSome_none]
    by_cases hkn : k ∈ names
    · have hadd : addMember names found (named (k, t)) = some (found.insert k t) := by
        simp [addMember, named, memberName?, asText?, hkn, hnew]
      have hins : ∀ e ∈ entries, (found.insert k t).get? e.1 = none := fun e he => by
        rw [Assoc.get?_insert_of_ne _ _ (hne e he), hrest e he]
      obtain ⟨r, hr, hget⟩ := ih ht _ hins
      refine ⟨r, by rw [List.map_cons, List.foldlM_cons, hadd, Option.bind_eq_bind, Option.bind_some,
        hr], fun name hn => ?_⟩
      rw [hget name hn, Assoc.get?_insert, Assoc.get?]
      split
      · next hkn =>
        rw [Assoc.get?_eq_none_iff.mpr (hkn ▸ hk)]
        rfl
      · rfl
    · have hadd : addMember names found (named (k, t)) = some found := by
        simp [addMember, named, memberName?, asText?, hkn]
      obtain ⟨r, hr, hget⟩ := ih ht _ hrest
      refine ⟨r, by rw [List.map_cons, List.foldlM_cons, hadd, Option.bind_eq_bind, Option.bind_some,
        hr], fun name hn => ?_⟩
      rw [hget name hn, Assoc.get?, if_neg (fun h : k = name => hkn (h ▸ hn))]

theorem asRecord?_named (f : Format) (names : List String) {entries : List (String × Tree)}
    (h : (entries.map Prod.fst).Nodup) :
    ∃ r, asRecord? f names (.map none (entries.map named)) = some r ∧
      ∀ name ∈ names, r.get? name = Assoc.get? entries name := by
  obtain ⟨r, hr, hget⟩ := exists_foldlM_addMember names h []
    fun e _ => Assoc.get?_nil e.1
  refine ⟨r, ?_, fun name hn => (hget name hn).trans Option.or_none⟩
  cases f <;> exact hr

theorem asRecord?_ofFields (f : Format) (names : List String) {fields : List (String × Json)}
    (h : (fields.map Prod.fst).Nodup) :
    ∃ r, asRecord? f names (.map none (ofFields fields)) = some r ∧
      ∀ name ∈ names, r.get? name = (Assoc.get? fields name).map ofJson := by
  have hnames : ((Assoc.mapValues ofJson fields).map Prod.fst) = fields.map Prod.fst := by
    rw [Assoc.mapValues, List.map_map]
    rfl
  obtain ⟨r, hr, hget⟩ := asRecord?_named f names (hnames ▸ h)
  exact ⟨r, by rw [ofFields_eq_map, hr], fun name hn => (hget name hn).trans (Assoc.get?_mapValues ..)⟩

/-- The members of an object come back from the tree it is written as. -/
theorem asRecord?_ofJson (f : Format) (names : List String) {v : Json} {fields : List (String × Json)}
    (hv : v = .ofFields fields) (h : (fields.map Prod.fst).Nodup) :
    ∃ r, asRecord? f names (ofJson v) = some r ∧
      ∀ name ∈ names, r.get? name = (Assoc.get? fields name).map ofJson := by
  subst hv
  obtain ⟨r, hr, hget⟩ := asRecord?_ofFields f names (Assoc.Sorted.ofList fields).names_nodup
  exact ⟨r, hr, fun name hn => by rw [hget name hn, Assoc.get?_ofList h]⟩

end Record

section Choice

variable {tag : String} {v w : Json}

theorem filter_ofFields {test : Tree × Tree → Bool} (keep : String × Json → Bool)
    (h : ∀ e : String × Json, test (named (e.1, ofJson e.2)) = keep e) (fields : List (String × Json)) :
    (ofFields fields).filter test = ofFields (fields.filter keep) := by
  rw [ofFields_eq_map, ofFields_eq_map, Assoc.mapValues, Assoc.mapValues, List.filter_map,
    List.filter_map]
  exact congrArg (fun k => ((fields.filter k).map _).map named) (funext h)

/-- What a choice was made by comes back with the members that were given beside it. -/
theorem asChoice?_ofJson (tag : String) (v : Json) {fields : List (String × Json)} (hw : w = .ofFields fields)
    (h : (fields.map Prod.fst).Nodup) (hv : Assoc.get? fields tag = some v) :
    ∃ body, asChoice? tag (ofJson w) = some (ofJson v, body) ∧
      ∀ names, tag ∉ names → ∃ r, asRecord? .json names body = some r ∧
        ∀ name ∈ names, r.get? name = (Assoc.get? fields name).map ofJson := by
  have hs := Assoc.Sorted.ofList fields
  refine ⟨.map none (ofFields ((Assoc.ofList fields).erase tag)), ?_, fun names hn => ?_⟩
  · have hchosen : (ofFields (Assoc.ofList fields)).filter (fun e => e.1.asText? = some tag) =
        [named (tag, ofJson v)] := by
      rw [filter_ofFields (fun e => e.1 = tag) (fun e => by simp [named, asText?]),
        hs.filter_name ((Assoc.get?_ofList h tag).trans hv)]
      rfl
    have hrest : (ofFields (Assoc.ofList fields)).filter (fun e => !decide (e.1.asText? = some tag)) =
        ofFields ((Assoc.ofList fields).erase tag) :=
      filter_ofFields _ (fun e => by simp [named, asText?]) _
    rw [hw, Json.ofFields, ofJson, asChoice?, List.partition_eq_filter_filter, hchosen]
    exact congrArg (fun es => some (ofJson v, map none es)) hrest
  · obtain ⟨r, hr, hget⟩ := asRecord?_ofFields .json names (hs.erase tag).names_nodup
    refine ⟨r, hr, fun name hm => ?_⟩
    rw [hget name hm, Assoc.get?_erase, if_neg fun h : tag = name => hn (h ▸ hm), Assoc.get?_ofList h]

end Choice

section Member

variable {r : Assoc Tree} {t : Tree} {read : Tree → Option α} {x default : α}

theorem need_of_get? (h : r.get? name = some t) : need r name read = read t := by
  rw [need, h]
  rfl

theorem orElse_of_get? (h : r.get? name = some t) : orElse r name default read = read t := by
  rw [orElse, h]

theorem exists_of_need (h : need r name read = some x) : ∃ t, read t = some x := by
  obtain ⟨t, -, ht⟩ := Option.bind_eq_some_iff.mp h
  exact ⟨t, ht⟩

theorem exists_of_orElse (h : orElse r name default read = some x) :
    x = default ∨ ∃ t, read t = some x := by
  unfold orElse at h
  split at h
  · exact .inl (Option.some.inj h).symm
  · exact .inr ⟨_, h⟩

theorem exists_of_optional? (h : optional? r name read = some (some x)) : ∃ t, read t = some x := by
  unfold optional? at h
  split at h
  · cases h
  · next t _ =>
    obtain ⟨present, -, hp⟩ := Option.bind_eq_some_iff.mp h
    split at hp
    · obtain ⟨y, hy, hx⟩ := Option.map_eq_some_iff.mp hp
      exact ⟨t, hy.trans hx⟩
    · cases hp

theorem orElse_of_get?_eq_none (h : r.get? name = none) :
    orElse r name default read = some default := by
  rw [orElse, h]

/-- A member that may be left out comes back when it is never written as null. -/
theorem optional?_of_get? {write : α → Json} {o : Option α} (h : r.get? name = (o.map write).map ofJson)
    (hn : ∀ x, (write x).isNull = false) (hr : ∀ x ∈ o, read (ofJson (write x)) = some x) :
    optional? r name read = some o := by
  cases o with
  | none => rw [optional?, h, Option.map_none, Option.map_none]
  | some x =>
    rw [optional?, h, Option.map_some, Option.map_some]
    simp only [isPresent?_ofJson, hn, hr x rfl]
    rfl

/-- A value that may be left out comes back, but null comes back as nothing. -/
theorem optional?_toJson?_of_get? {o : Option Json} (h : r.get? name = o.map ofJson)
    (hr : ∀ v ∈ o, v.ReadsBack) : optional? r name toJson? = some (o.filter (fun v => !v.isNull)) := by
  cases o with
  | none => rw [optional?, h, Option.map_none, Option.filter_none]
  | some v =>
    have hv : (ofJson v).toJson? = some v := hr v rfl
    rw [optional?, h, Option.map_some, Option.filter_some]
    cases hn : v.isNull <;> simp [isPresent?_ofJson, hn, hv]

end Member

section Lists

variable {β : Type}

theorem mapM_eq_some_of_forall {read : β → Option α} {write : α → β} {xs : List α}
    (h : ∀ x ∈ xs, read (write x) = some x) : (xs.map write).mapM read = some xs := by
  induction xs with
  | nil => rfl
  | cons x xs ih =>
    rw [List.map_cons, List.mapM_cons, h x List.mem_cons_self,
      ih fun y hy => h y (List.mem_cons_of_mem _ hy)]
    rfl

theorem exists_of_mapM {read : β → Option α} {ys : List β} {xs : List α}
    (h : ys.mapM read = some xs) : ∀ x ∈ xs, ∃ y, read y = some x := by
  induction ys generalizing xs with
  | nil =>
    cases h
    exact fun x hx => absurd hx List.not_mem_nil
  | cons y ys ih =>
    simp only [List.mapM_cons, Option.bind_eq_bind, Option.bind_eq_some_iff, Option.pure_def,
      Option.some.injEq] at h
    obtain ⟨x, hx, xs, hxs, rfl⟩ := h
    exact List.forall_mem_cons.mpr ⟨⟨y, hx⟩, ih hxs⟩

theorem exists_of_eachOf {read : Tree → Option α} {t : Tree} {xs : List α}
    (h : eachOf read t = some xs) : ∀ x ∈ xs, ∃ t, read t = some x := by
  obtain ⟨items, -, hm⟩ := Option.bind_eq_some_iff.mp h
  exact exists_of_mapM hm

theorem exists_of_orElse_eachOf {r : Assoc Tree} {read : Tree → Option α} {xs : List α}
    (h : orElse r name [] (eachOf read) = some xs) : ∀ x ∈ xs, ∃ t, read t = some x := by
  obtain rfl | ⟨t, ht⟩ := exists_of_orElse h
  · exact fun x hx => absurd hx List.not_mem_nil
  · exact exists_of_eachOf ht

/-- A list comes back when each of its items does. -/
theorem eachOf_ofJson {read : Tree → Option α} {write : α → Json} {xs : List α}
    (h : ∀ x ∈ xs, read (ofJson (write x)) = some x) :
    eachOf read (ofJson (.arr (xs.map write))) = some xs := by
  rw [ofJson, ofItems_eq_map, List.map_map]
  exact mapM_eq_some_of_forall h

/-- Names that were read as a set come back as the same set. -/
theorem asTextSet?_strings {t : Tree} {names : List String} (h : asTextSet? t = some names) :
    asTextSet? (ofJson (.strings names)) = some names := by
  obtain ⟨texts, -, ht⟩ := Option.bind_eq_some_iff.mp h
  have heach : eachOf asText? (ofJson (.strings names)) = some names :=
    eachOf_ofJson fun name _ => rfl
  have hunits : ∀ s : Assoc Unit, s.keys.map (fun name => (name, ())) = s := fun s => by
    rw [Assoc.keys, List.map_map]
    exact List.map_id s
  rw [asTextSet?, heach]
  cases ht
  change some (Assoc.ofList _).keys = _
  rw [hunits, (Assoc.Sorted.ofList _).ofList_eq]

end Lists

section Number

variable {limit n : Nat}

theorem lt_of_asNat? {t : Tree} (h : asNat? limit t = some n) : n < limit := by
  have hlt : ∀ o : Option Nat, o.bind (fun m => if m < limit then some m else none) = some n →
      n < limit := fun o ho => by
    obtain ⟨m, -, hm⟩ := Option.bind_eq_some_iff.mp ho
    split at hm
    · next hlt =>
      cases hm
      exact hlt
    · cases hm
  unfold asNat? at h
  split at h
  · split at h <;> exact hlt _ h
  · split at h <;> exact hlt _ h
  · exact hlt _ h

theorem asNat?_ofNat (h : n < limit) : asNat? limit (ofJson (.ofNat n)) = some n := by
  have hn : (0 : Int) ≤ n := Int.natCast_nonneg n
  simp [asNat?, Json.ofNat, ofJson, hn, h]

end Number

end Tree

end Workflow
