import Std.Data.ExtTreeMap
import Mathlib.Data.List.Perm.Subperm
import DomProtocol.Lib.Outcome

/-!
# `Lib.Table` — finite tables with write-once inserts, required deletes and overlays

The operations a key-value store offers inside one transaction, over ordered finite maps.  `putAllNew` fails on
the first key that is already there, `delAllExisting` on the first key that is missing, and `applyUpdates`
overwrites.  An overlay is a table of pending values (`none` = pending delete) read in front of a table.
Each operation has a lookup lemma, so a caller reasons about `t[k]?` only.
-/

namespace Lib

open Std

abbrev Table (K V : Type) [Ord K] := ExtTreeMap K V compare

variable {K V ε : Type} [Ord K] [TransOrd K]

/-! ## Operations -/

/-- Insert a key that must not be there yet. -/
def putNew (t : Table K V) (k : K) (v : V) (e : ε) : Except ε (Table K V) :=
  match t[k]? with
  | some _ => .error e
  | none => .ok (t.insert k v)

/-- Insert a list of entries in order, none of whose keys may be there when its turn comes. -/
def putAllNew (t : Table K V) (e : K → V → ε) : List (K × V) → Except ε (Table K V)
  | [] => .ok t
  | (k, v) :: kvs => do putAllNew (← putNew t k v (e k v)) e kvs

/-- Delete a list of keys in order, each of which must be there when its turn comes. -/
def delAllExisting (t : Table K V) (e : K → ε) : List K → Except ε (Table K V)
  | [] => .ok t
  | k :: ks =>
    match t[k]? with
    | none => .error (e k)
    | some _ => delAllExisting (t.erase k) e ks

/-- Delete a list of keys, present or not. -/
def eraseAll (t : Table K V) (ks : List K) : Table K V := ks.foldl (fun t k => t.erase k) t

/-- Write each listed value, deleting where it is `none`. -/
def applyUpdates (t : Table K V) (us : List (K × Option V)) : Table K V :=
  us.foldl (fun t (k, desired) =>
    match desired with
    | some v => t.insert k v
    | none => t.erase k) t

/-- What a table reads as behind an overlay. -/
def view (overlay : Table K (Option V)) (t : Table K V) (k : K) : Option V :=
  match overlay[k]? with
  | some desired => desired
  | none => t[k]?

variable {t t' : Table K V} {k : K} {v : V}

@[simp] theorem putNew_eq_ok {e : ε} :
    putNew t k v e = .ok t' ↔ t[k]? = none ∧ t.insert k v = t' := by
  unfold putNew
  cases h : t[k]? <;> simp

@[simp] theorem view_empty (t : Table K V) : view (∅ : Table K (Option V)) t = fun k => t[k]? := by
  funext k
  simp [view]

variable [LawfulEqOrd K]

theorem nodup_keys_toList (t : Table K V) : (t.toList.map Prod.fst).Nodup := by
  rw [List.Nodup, List.pairwise_map]
  refine ExtTreeMap.distinct_keys_toList.imp ?_
  intro a b h heq
  exact h (by simp [heq])

variable {ks : List K}

/-- Distinct keys of a table are no more than its size. -/
theorem length_le_size (hnd : ks.Nodup) (h : ∀ k ∈ ks, t[k]? ≠ none) :
    ks.length ≤ t.size := by
  have hsub : ks ⊆ t.toList.map Prod.fst := by
    intro k hk
    obtain ⟨v, hv⟩ := Option.ne_none_iff_exists'.mp (h k hk)
    exact List.mem_map.mpr ⟨(k, v), ExtTreeMap.mem_toList_iff_getElem?_eq_some.mpr hv, rfl⟩
  have hlen := (List.subperm_of_subset hnd hsub).length_le
  rwa [List.length_map, ExtTreeMap.length_toList] at hlen

variable [DecidableEq K]

theorem getElem?_insert (t : Table K V) (k a : K) (v : V) : (t.insert k v)[a]? = if k = a then some v else t[a]? := by
  rw [ExtTreeMap.getElem?_insert]
  simp

theorem getElem?_erase (t : Table K V) (k a : K) : (t.erase k)[a]? = if k = a then none else t[a]? := by
  rw [ExtTreeMap.getElem?_erase]
  simp

/-! ## Write-once inserts -/

variable {kvs : List (K × V)}

/-- **Write-once inserts.**  A list of entries goes in exactly when its keys are distinct and new. -/
theorem putAllNew_eq_ok {e : K → V → ε} :
    putAllNew t e kvs = .ok t' ↔ (kvs.map Prod.fst).Nodup ∧ (∀ k ∈ kvs.map Prod.fst, t[k]? = none) ∧
      kvs.foldl (fun t (k, v) => t.insert k v) t = t' := by
  have hloop : putAllNew t e kvs = kvs.foldlM (fun t kv => putNew t kv.1 kv.2 (e kv.1 kv.2)) t := by
    induction kvs generalizing t with
    | nil => rfl
    | cons kv kvs ih => simp only [putAllNew, List.foldlM_cons, ih]
  rw [hloop, List.Nodup, List.pairwise_map, List.forall_mem_map]
  refine foldlM_eq_ok (P := fun t (kv : K × V) => t[kv.1]? = none) ?_ ?_
  · exact fun _ _ _ _ => putNew_eq_ok
  · intro t kv kv'
    rw [getElem?_insert]
    by_cases hk : kv.1 = kv'.1 <;> simp [hk]

/-! ## Deletes -/

/-- **Required deletes.**  A list of keys comes out exactly when they are distinct and present. -/
theorem delAllExisting_eq_ok {e : K → ε} :
    delAllExisting t e ks = .ok t' ↔ ks.Nodup ∧ (∀ k ∈ ks, t[k]? ≠ none) ∧ eraseAll t ks = t' := by
  have hloop : delAllExisting t e ks = ks.foldlM (fun t k => do
      let _ ← okOr t[k]? (e k)
      return t.erase k) t := by
    induction ks generalizing t with
    | nil => rfl
    | cons k ks ih =>
      rw [List.foldlM_cons, delAllExisting]
      cases t[k]? with
      | none => rfl
      | some v => exact ih
  rw [hloop]
  refine foldlM_eq_ok (P := fun t k => t[k]? ≠ none) ?_ ?_
  · intro t k t' _
    simp only [bind_eq_ok, okOr_eq_ok, pure_eq_ok, exists_and_right, Option.ne_none_iff_exists']
  · intro t k k'
    rw [getElem?_erase]
    by_cases hk : k = k' <;> simp [hk]

theorem getElem?_eraseAll (t : Table K V) (ks : List K) (a : K) :
    (eraseAll t ks)[a]? = if a ∈ ks then none else t[a]? := by
  induction ks generalizing t with
  | nil => simp [eraseAll]
  | cons k ks ih =>
    refine (ih (t.erase k)).trans ?_
    rw [getElem?_erase]
    by_cases hka : k = a
    · simp [hka]
    · simp [hka, Ne.symm hka]

/-! ## Updates and overlays -/

theorem view_insert (overlay : Table K (Option V)) (t : Table K V) (k a : K) (desired : Option V) :
    view (overlay.insert k desired) t a = if k = a then desired else view overlay t a := by
  unfold view
  rw [getElem?_insert]
  by_cases hka : k = a <;> simp [hka]

variable {us : List (K × Option V)} {a : K}

theorem getElem?_applyUpdates_of_notMem (h : a ∉ us.map Prod.fst) : (applyUpdates t us)[a]? = t[a]? := by
  induction us generalizing t with
  | nil => rfl
  | cons u us ih =>
    obtain ⟨k, desired⟩ := u
    simp only [List.map_cons, List.mem_cons, not_or] at h
    have hka : k ≠ a := Ne.symm h.1
    cases desired with
    | none => exact (ih h.2).trans (by rw [getElem?_erase, if_neg hka])
    | some v => exact (ih h.2).trans (by rw [getElem?_insert, if_neg hka])

theorem getElem?_applyUpdates_of_mem {desired : Option V} (hnd : (us.map Prod.fst).Nodup)
    (h : (a, desired) ∈ us) :
    (applyUpdates t us)[a]? = desired := by
  induction us generalizing t with
  | nil => cases h
  | cons u us ih =>
    obtain ⟨k, d⟩ := u
    simp only [List.map_cons, List.nodup_cons] at hnd
    rcases List.mem_cons.mp h with heq | hmem
    · obtain ⟨rfl, rfl⟩ := Prod.mk.inj heq
      cases desired with
      | none => exact (getElem?_applyUpdates_of_notMem hnd.1).trans (by rw [getElem?_erase, if_pos rfl])
      | some v => exact (getElem?_applyUpdates_of_notMem hnd.1).trans (by rw [getElem?_insert, if_pos rfl])
    · cases d with
      | none => exact ih hnd.2 hmem
      | some v => exact ih hnd.2 hmem

/-- **Flushing an overlay.**  Writing those pending values that differ from the table makes the table read as
    the overlay did. -/
theorem getElem?_applyUpdates_overlay {overlay : Table K (Option V)} (hsub : us.Sublist overlay.toList)
    (hskip : ∀ k desired, (k, desired) ∈ overlay.toList → (k, desired) ∉ us → t[k]? = desired) (a : K) :
    (applyUpdates t us)[a]? = view overlay t a := by
  have hnd : (us.map Prod.fst).Nodup := (nodup_keys_toList overlay).sublist (hsub.map Prod.fst)
  have hread : ∀ p ∈ us, overlay[p.1]? = some p.2 := fun p hp =>
    ExtTreeMap.mem_toList_iff_getElem?_eq_some.mp (hsub.subset hp)
  cases ha : overlay[a]? with
  | none =>
    have hnot : a ∉ us.map Prod.fst := by
      intro hmem
      obtain ⟨p, hp, rfl⟩ := List.mem_map.mp hmem
      simp [hread p hp] at ha
    simp [view, ha, getElem?_applyUpdates_of_notMem hnot]
  | some desired =>
    have hmem : (a, desired) ∈ overlay.toList := ExtTreeMap.mem_toList_iff_getElem?_eq_some.mpr ha
    have hview : view overlay t a = desired := by simp [view, ha]
    by_cases hus : (a, desired) ∈ us
    · rw [hview, getElem?_applyUpdates_of_mem hnd hus]
    · have hnot : a ∉ us.map Prod.fst := by
        intro hkeys
        obtain ⟨p, hp, rfl⟩ := List.mem_map.mp hkeys
        obtain rfl := Option.some.inj ((hread p hp).symm.trans ha)
        exact hus hp
      rw [hview, getElem?_applyUpdates_of_notMem hnot, hskip a desired hmem hus]

end Lib
