import Mathlib.Algebra.Ring.Nat
import Mathlib.Algebra.BigOperators.Group.List.Basic
import Mathlib.Data.List.Nodup
import DomProtocol.Lib.Table

/-!
# `Lib.TableSum` — sums over the entries of a table

A quantity summed over a table changes by that of the entry that is put in or taken out.
-/

namespace Lib

open Std

variable {K V : Type} [Ord K] [TransOrd K] [LawfulEqOrd K]

theorem nodup_toList (t : Table K V) : t.toList.Nodup := List.Nodup.of_map _ (nodup_keys_toList t)

/-- The sum of a quantity over the entries of a table. -/
def tableSum (f : V → Nat) (t : Table K V) : Nat := (t.toList.map fun entry => f entry.2).sum

theorem toList_empty : (∅ : Table K V).toList = [] := by
  rw [List.eq_nil_iff_forall_not_mem]
  rintro ⟨k, v⟩ hmem
  rw [ExtTreeMap.mem_toList_iff_getElem?_eq_some, ExtTreeMap.getElem?_empty] at hmem
  cases hmem

theorem tableSum_empty (f : V → Nat) : tableSum f (∅ : Table K V) = 0 := by
  rw [tableSum, toList_empty]
  rfl

variable [DecidableEq K]

variable {t : Table K V} {k : K}

/-- A table with an entry taken out lists all the others. -/
theorem toList_erase_perm {v : V} (h : t[k]? = some v) :
    t.toList.Perm ((k, v) :: (t.erase k).toList) := by
  have hgone : (k, v) ∉ (t.erase k).toList := by
    rw [ExtTreeMap.mem_toList_iff_getElem?_eq_some, getElem?_erase, if_pos rfl]
    exact nofun
  refine (List.perm_ext_iff_of_nodup (nodup_toList t) (List.nodup_cons.mpr ⟨hgone, nodup_toList _⟩)).mpr ?_
  rintro ⟨a, w⟩
  rw [List.mem_cons, ExtTreeMap.mem_toList_iff_getElem?_eq_some, ExtTreeMap.mem_toList_iff_getElem?_eq_some,
    getElem?_erase]
  by_cases ha : k = a
  · subst ha
    simp [h, eq_comm]
  · simp [ha, Ne.symm ha]

theorem erase_of_none (h : t[k]? = none) : t.erase k = t := by
  refine ExtTreeMap.ext_getElem? fun a => ?_
  rw [getElem?_erase]
  split
  · next ha => rw [← ha, h]
  · rfl

/-- A table with an entry put in lists it and all the others. -/
theorem toList_insert_perm (t : Table K V) (k : K) (v : V) :
    (t.insert k v).toList.Perm ((k, v) :: (t.erase k).toList) := by
  have hsame : (t.insert k v).erase k = t.erase k := by
    refine ExtTreeMap.ext_getElem? fun a => ?_
    rw [getElem?_erase, getElem?_insert, getElem?_erase]
    split <;> rfl
  rw [← hsame]
  exact toList_erase_perm (by rw [getElem?_insert, if_pos rfl])

theorem tableSum_insert (f : V → Nat) (h : t[k]? = none) (v : V) :
    tableSum f (t.insert k v) = f v + tableSum f t := by
  unfold tableSum
  rw [((toList_insert_perm t k v).map _).sum_eq, erase_of_none h]
  simp

theorem tableSum_erase (f : V → Nat) {v : V} (h : t[k]? = some v) :
    tableSum f t = f v + tableSum f (t.erase k) := by
  unfold tableSum
  rw [((toList_erase_perm h).map _).sum_eq]
  simp

/-! ## Sums that depend on the key -/

/-- The sum of a quantity over the entries of a table, keys and values. -/
def entrySum (f : K × V → Nat) (t : Table K V) : Nat := (t.toList.map f).sum

omit [DecidableEq K] in
theorem entrySum_empty (f : K × V → Nat) : entrySum f (∅ : Table K V) = 0 := by
  rw [entrySum, toList_empty]
  rfl

/-- **Writing an entry** replaces what was counted for its key. -/
theorem entrySum_insert (f : K × V → Nat) (t : Table K V) (k : K) (v : V) :
    entrySum f (t.insert k v) + t[k]?.elim 0 (fun old => f (k, old)) = f (k, v) + entrySum f t := by
  unfold entrySum
  rw [((toList_insert_perm t k v).map f).sum_eq]
  cases h : t[k]? with
  | none => simp [erase_of_none h]
  | some old =>
    rw [((toList_erase_perm h).map f).sum_eq]
    simp only [List.map_cons, List.sum_cons, Option.elim_some]
    omega

end Lib
