import DomProtocol.Lib.Delta
import DomProtocol.Lib.Table

/-!
# `Lib.TableDelta` — change sets written to tables

Two ways to write a change set: to the table itself, with write-once inserts and required deletes, and to an
overlay in front of it.  In both cases the write succeeds exactly when the change set is applicable to what is
read, and what is read afterwards is the change set applied.
-/

namespace Lib

open Std

variable {K V ε : Type} [Ord K] [TransOrd K] [LawfulEqOrd K] [DecidableEq K]

abbrev reads (t : Table K V) : K → Option V := fun k => t[k]?

variable {kvs : List (K × V)}

omit [Ord K] [TransOrd K] [LawfulEqOrd K] in
/-- A new key at the front of a list of entries reads as if it had been inserted first. -/
theorem lookup_cons_or {k : K} {v : V} (h : k ∉ kvs.map Prod.fst) (a : K) (otherwise : Option V) :
    (((k, v) :: kvs).lookup a).or otherwise = (kvs.lookup a).or (if k = a then some v else otherwise) := by
  rw [List.lookup_cons]
  by_cases hka : k = a
  · subst hka
    have hnone : kvs.lookup k = none := Delta.lookup_eq_none (d := ⟨[], kvs⟩).mpr h
    simp [hnone]
  · have hak : (a == k) = false := by simpa using Ne.symm hka
    simp [hka, hak]

theorem getElem?_foldl_insert {t : Table K V} (hnd : (kvs.map Prod.fst).Nodup) (a : K) :
    (kvs.foldl (fun t (k, v) => t.insert k v) t)[a]? = (kvs.lookup a).or t[a]? := by
  induction kvs generalizing t with
  | nil => simp
  | cons kv kvs ih =>
    obtain ⟨k, v⟩ := kv
    rw [List.map_cons, List.nodup_cons] at hnd
    rw [List.foldl_cons, ih hnd.2, lookup_cons_or hnd.1, getElem?_insert]

def tableOf (kvs : List (K × V)) : Table K V := kvs.foldl (fun t (k, v) => t.insert k v) ∅

theorem getElem?_tableOf (hnd : (kvs.map Prod.fst).Nodup) (k : K) (v : V) :
    (tableOf kvs)[k]? = some v ↔ (k, v) ∈ kvs := by
  have hread : (tableOf kvs)[k]? = kvs.lookup k := by
    rw [tableOf, getElem?_foldl_insert hnd]
    simp
  rw [hread]
  clear hread
  induction kvs with
  | nil => simp
  | cons kv kvs ih =>
    obtain ⟨k', v'⟩ := kv
    rw [List.map_cons, List.nodup_cons] at hnd
    rw [List.lookup_cons]
    by_cases hk : k = k'
    · subst hk
      have hnot : (k, v) ∉ kvs := fun hmem => hnd.1 (List.mem_map.mpr ⟨(k, v), hmem, rfl⟩)
      simp [hnot, eq_comm]
    · have hbeq : (k == k') = false := by simpa using hk
      simp only [hbeq, ih hnd.2, List.mem_cons, Prod.mk.injEq, hk, false_and, false_or]

variable {t' : Table K V} {e' : K → ε}

namespace Delta

/-- Write a change set to a table without any check. -/
def write (t : Table K V) (d : Delta K V) : Table K V :=
  d.added.foldl (fun t (k, v) => t.insert k v) (eraseAll t d.removed)

variable {d : Delta K V}

theorem reads_write (hnd : d.addedKeys.Nodup) (t : Table K V) : reads (write t d) = d.apply (reads t) := by
  funext k
  rw [reads, write, getElem?_foldl_insert hnd, getElem?_eraseAll, apply_eq_or]

/-- Write change sets one after the other. -/
def writeAll (t : Table K V) (ds : List (Delta K V)) : Table K V := ds.foldl write t

theorem reads_writeAll {ds : List (Delta K V)} (hnd : ∀ d ∈ ds, d.addedKeys.Nodup) (t : Table K V) :
    reads (writeAll t ds) = replay (reads t) ds := by
  induction ds generalizing t with
  | nil => rfl
  | cons d ds ih =>
    have hrest := ih (fun d' hd' => hnd d' (List.mem_cons_of_mem _ hd')) (write t d)
    rw [reads_write (hnd d List.mem_cons_self)] at hrest
    exact hrest

variable {e : K → V → ε} {t : Table K V}

/-- **Insert, then delete.**  When nothing removed is also added, the two loops succeed exactly for an applicable
    change set, and leave it applied. -/
theorem insert_delete_iff (hcut : ∀ k ∈ d.removed, k ∉ d.addedKeys) :
    (∃ added, putAllNew t e d.added = .ok added ∧ delAllExisting added e' d.removed = .ok t') ↔
      d.Applicable (reads t) ∧ ∀ k, t'[k]? = d.apply (reads t) k := by
  have happly : ∀ k, (if k ∈ d.removed then none else (d.added.lookup k).or t[k]?) =
      d.apply (reads t) k := by
    intro k
    by_cases hr : k ∈ d.removed
    · rw [if_pos hr, apply_of_removed (hcut k hr) hr]
    · rw [if_neg hr, apply]
      cases d.added.lookup k with
      | some v => rfl
      | none => simp [hr]
  have hread : ∀ k, (eraseAll (d.added.foldl (fun t (k, v) => t.insert k v) t) d.removed)[k]? =
      if k ∈ d.removed then none else (d.added.foldl (fun t (k, v) => t.insert k v) t)[k]? := getElem?_eraseAll _ _
  have hpres (hnd : d.addedKeys.Nodup) {k : K} (hk : k ∈ d.removed) :
      (d.added.foldl (fun t (k, v) => t.insert k v) t)[k]? = t[k]? := by
    rw [getElem?_foldl_insert hnd, lookup_eq_none.mpr (hcut k hk), Option.none_or]
  simp only [putAllNew_eq_ok, delAllExisting_eq_ok]
  constructor
  · rintro ⟨_, ⟨hnd, habs, rfl⟩, hnd', hall, rfl⟩
    refine ⟨⟨hnd', fun k hk => ?_, hnd, habs⟩, fun k => ?_⟩
    · have := hall k hk
      rwa [hpres hnd hk] at this
    · rw [hread, getElem?_foldl_insert hnd, happly]
  · rintro ⟨happl, happd⟩
    refine ⟨_, ⟨happl.added_nodup, happl.added_absent, rfl⟩, happl.removed_nodup, fun k hk => ?_, ?_⟩
    · rw [hpres happl.added_nodup hk]
      exact happl.removed_present k hk
    · apply ExtTreeMap.ext_getElem?
      intro k
      rw [hread, getElem?_foldl_insert happl.added_nodup, happly, happd]

/-- **Delete, then insert.**  An applicable change set goes through and is left applied. -/
theorem delete_insert (h : d.Applicable (reads t)) :
    ∃ removed t', delAllExisting t e' d.removed = .ok removed ∧ putAllNew removed e d.added = .ok t' ∧
      ∀ k, t'[k]? = d.apply (reads t) k := by
  refine ⟨_, _, delAllExisting_eq_ok.mpr ⟨h.removed_nodup, h.removed_present, rfl⟩,
    putAllNew_eq_ok.mpr ⟨h.added_nodup, fun k hk => ?_, rfl⟩, fun k => congrFun (reads_write h.added_nodup t) k⟩
  rw [getElem?_eraseAll]
  split
  · rfl
  · exact h.added_absent k hk

/-- A list of inserts is a change set that removes nothing. -/
theorem insert_iff {kvs : List (K × V)} :
    putAllNew t e kvs = .ok t' ↔
      (Delta.mk [] kvs).Applicable (reads t) ∧ ∀ k, t'[k]? = (Delta.mk [] kvs).apply (reads t) k := by
  rw [putAllNew_eq_ok]
  constructor
  · rintro ⟨hnd, habs, rfl⟩
    exact ⟨⟨List.nodup_nil, by simp, hnd, habs⟩, congrFun (reads_write (d := ⟨[], kvs⟩) hnd t)⟩
  · rintro ⟨happl, hread⟩
    refine ⟨happl.added_nodup, happl.added_absent, ExtTreeMap.ext_getElem? fun k => ?_⟩
    rw [hread, ← reads_write happl.added_nodup]
    rfl

end Delta

/-! ## Change sets written to an overlay

Each loop below is one of the passes a change set makes over an overlay; `view` says what is read behind it. -/

variable {source : K → Except ε V} {check : K → V → Except ε Unit} {missing : K → ε} {taken : K × V → ε}

section Overlay

variable {t : Table K V} {o o' : Table K (Option V)}

theorem view_foldl_insert (f : K → Option V) (ks : List K) (a : K) :
    view (ks.foldl (fun o k => o.insert k (f k)) o) t a = if a ∈ ks then f a else view o t a := by
  induction ks generalizing o with
  | nil => simp
  | cons k ks ih =>
    rw [List.foldl_cons, ih, view_insert]
    by_cases hka : k = a
    · simp [hka]
    · simp [hka, Ne.symm hka]

variable {kvs : List (K × V)}

theorem view_foldl_write (hnd : (kvs.map Prod.fst).Nodup) (a : K) :
    view (kvs.foldl (fun o kv => o.insert kv.1 (some kv.2)) o) t a = (kvs.lookup a).or (view o t a) := by
  induction kvs generalizing o with
  | nil => simp
  | cons kv kvs ih =>
    rw [List.map_cons, List.nodup_cons] at hnd
    rw [List.foldl_cons, ih hnd.2, view_insert, ← lookup_cons_or hnd.1]

variable {ks : List K}

omit [LawfulEqOrd K] [DecidableEq K] in
/-- Writing restored values: every key needs a source. -/
theorem foldlM_restore {restore : K → Option V} (hsou : ∀ k ∈ ks, ∀ v, source k = .ok v ↔ restore k = some v) :
    ks.foldlM (fun o k => do return o.insert k (some (← source k))) o = .ok o' ↔
      (∀ k ∈ ks, restore k ≠ none) ∧ ks.foldl (fun o k => o.insert k (restore k)) o = o' := by
  rw [foldlM_eq_ok (g := fun o k => o.insert k (restore k)) (P := fun _ k => restore k ≠ none)
    (R := fun _ _ => True) ?_ (by simp)]
  · exact and_iff_right (List.pairwise_of_forall fun _ _ => trivial)
  · intro o k o' hk
    simp only [inversion, hsou k hk]
    cases restore k <;> simp

/-- Spending keys: each must be read, pass its check and be spent once. -/
theorem foldlM_spend : ks.foldlM (fun o k => do
      let v ← okOr (view o t k) (missing k)
      check k v return o.insert k none) o = .ok o' ↔
    ks.Nodup ∧ (∀ k ∈ ks, ∃ v, view o t k = some v ∧ check k v = .ok ()) ∧
      ks.foldl (fun o k => o.insert k none) o = o' := by
  refine foldlM_eq_ok (P := fun o k => ∃ v, view o t k = some v ∧ check k v = .ok ()) ?_ ?_
  · intro o k o' _
    simp only [inversion, ← and_assoc, exists_and_right]
  · intro o k k'
    rw [view_insert]
    by_cases hk : k = k' <;> simp [hk]

/-- Creating entries: each key must not be read, and be created once. -/
theorem foldlM_create : kvs.foldlM (fun o kv => do
      rejectIf (view o t kv.1 ≠ none) (taken kv) return o.insert kv.1 (some kv.2)) o = .ok o' ↔
    (kvs.map Prod.fst).Nodup ∧ (∀ k ∈ kvs.map Prod.fst, view o t k = none) ∧
      kvs.foldl (fun o kv => o.insert kv.1 (some kv.2)) o = o' := by
  rw [List.Nodup, List.pairwise_map, List.forall_mem_map]
  refine foldlM_eq_ok (P := fun o (kv : K × V) => view o t kv.1 = none) ?_ ?_
  · intro o kv o' _
    simp only [inversion, not_not, ne_eq]
  · intro o kv kv'
    rw [view_insert]
    by_cases hk : kv.1 = kv'.1 <;> simp [hk]

end Overlay

end Lib
