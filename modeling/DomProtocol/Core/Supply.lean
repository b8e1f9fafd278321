import Mathlib.Algebra.BigOperators.Intervals
import Mathlib.Algebra.Order.BigOperators.Group.Finset
import DomProtocol.Core.Types

/-!
# `Core.Supply` — the reward schedule against the supply cap

The cap is computed from the epoch table, the reward of a block by dividing its height.  The sum of the rewards of all
heights below `m` is a sum over whole epochs and a partial one, which ties the two together for every height.
-/

namespace DomProtocol

open Finset

/-! ## Sums of step functions -/

theorem sum_range_div (f : ℕ → ℕ) {interval : ℕ} (hpos : 0 < interval) (m : ℕ) :
    ∑ h ∈ range m, f (h / interval) =
      interval * ∑ e ∈ range (m / interval), f e + m % interval * f (m / interval) := by
  induction m with
  | zero => simp
  | succ m ih =>
    rw [sum_range_succ, ih]
    have hspl := Nat.mod_add_div m interval
    have hlt := Nat.mod_lt m hpos
    by_cases hlast : m % interval + 1 = interval
    · -- `m` completes its interval
      obtain ⟨hdiv, hmod⟩ : (m + 1) / interval = m / interval + 1 ∧ (m + 1) % interval = 0 := by
        rw [Nat.div_mod_unique hpos, Nat.mul_add, Nat.mul_one]
        exact ⟨by omega, hpos⟩
      rw [hdiv, hmod, sum_range_succ, Nat.mul_add, Nat.zero_mul, Nat.add_zero, Nat.add_assoc, ← Nat.succ_mul,
        Nat.succ_eq_add_one, hlast]
    · obtain ⟨hdiv, hmod⟩ : (m + 1) / interval = m / interval ∧ (m + 1) % interval = m % interval + 1 := by
        rw [Nat.div_mod_unique hpos]
        exact ⟨by omega, by omega⟩
      rw [hdiv, hmod, Nat.succ_mul, Nat.add_assoc]

/-! ## The schedule -/

def epochReward (epoch : ℕ) : ℕ := blockRewardTable.getD epoch 0

theorem blockReward_eq (height : ℕ) : blockReward height = epochReward (height / halvingInterval) := by
  unfold blockReward halvingEpoch epochReward
  split
  · next h => rw [List.getD_eq_default _ _ h]
  · rfl

theorem epochReward_eq_zero {epoch : ℕ} : epochReward epoch = 0 ↔ halvingEpochs - 1 ≤ epoch := by
  have hpaying : ∀ e < halvingEpochs - 1, epochReward e ≠ 0 := by decide
  constructor
  · intro hzero
    by_contra hlt
    exact hpaying epoch (Nat.lt_of_not_le hlt) hzero
  · intro hle
    rcases Nat.eq_or_lt_of_le hle with rfl | hlt
    · rfl
    · exact List.getD_eq_default _ _ (Nat.succ_le_of_lt hlt)

theorem epochReward_antitone : Antitone epochReward := by
  refine antitone_nat_of_succ_le fun epoch => ?_
  have htab : ∀ e < halvingEpochs, epochReward (e + 1) ≤ epochReward e := by decide
  by_cases hlt : epoch < halvingEpochs
  · exact htab epoch hlt
  · have hzero : epochReward (epoch + 1) = 0 := epochReward_eq_zero.mpr (by omega)
    rw [hzero]
    exact Nat.zero_le _

theorem sum_epochReward {epoch : ℕ} (hend : halvingEpochs - 1 ≤ epoch) :
    ∑ e ∈ range epoch, epochReward e = ∑ e ∈ range (halvingEpochs - 1), epochReward e := by
  refine (sum_subset (range_subset_range.mpr hend) fun e _ hout => ?_).symm
  rw [mem_range, not_lt] at hout
  exact epochReward_eq_zero.mpr hout

theorem sum_epochReward_le (epoch : ℕ) :
    ∑ e ∈ range epoch, epochReward e ≤ ∑ e ∈ range (halvingEpochs - 1), epochReward e := by
  rcases Nat.le_total epoch (halvingEpochs - 1) with hle | hge
  · exact sum_le_sum_of_subset (range_subset_range.mpr hle)
  · exact (sum_epochReward hge).le

theorem maxSupplyNoms_eq :
    maxSupplyNoms + epochReward 0 = halvingInterval * ∑ e ∈ range (halvingEpochs - 1), epochReward e := by
  decide +kernel

/-! ## The loops of the source -/

/-- Subtraction and multiplication of two `u64` values that fail instead of wrapping. -/
def checkedSub64 (a b : ℕ) : Option ℕ := if b ≤ a then some (a - b) else none

def checkedMul64 (a b : ℕ) : Option ℕ := if a * b < u64Bound then some (a * b) else none

/-- The loop of `maximum_supply_from_schedule`, in checked arithmetic. -/
def checkedSupplyFromSchedule : Option ℕ :=
  blockRewardTable.zipIdx.foldlM (fun total (reward, epoch) => do
    let blocks ← if epoch = 0 then checkedSub64 halvingInterval 1 else some halvingInterval
    let issued ← checkedMul64 reward blocks
    checkedAdd64 total issued) 0

/-- The rewards of all blocks above genesis up to a height. -/
def emitted (n : ℕ) : ℕ := ∑ h ∈ Icc 1 n, blockReward h

/-- The same sum, block by block in checked arithmetic. -/
def checkedEmitted (n : ℕ) : Option ℕ :=
  (List.range' 1 n).foldlM (fun total h => checkedAdd64 total (blockReward h)) 0

def scheduleEnd : ℕ := (halvingEpochs - 1) * halvingInterval

theorem blockReward_eq_zero {height : ℕ} : blockReward height = 0 ↔ scheduleEnd ≤ height := by
  rw [blockReward_eq, epochReward_eq_zero, scheduleEnd]
  exact Nat.le_div_iff_mul_le (by decide)

theorem emitted_succ (n : ℕ) : emitted (n + 1) = emitted n + blockReward (n + 1) := sum_Icc_succ_top (by omega) _

theorem emitted_add_genesis (n : ℕ) : emitted n + blockReward 0 = ∑ h ∈ range (n + 1), blockReward h := by
  induction n with
  | zero => simp [emitted]
  | succ n ih => rw [sum_range_succ, ← ih, emitted_succ, Nat.add_right_comm]

theorem emitted_eq (n : ℕ) :
    emitted n + epochReward 0 = halvingInterval * ∑ e ∈ range ((n + 1) / halvingInterval), epochReward e +
      (n + 1) % halvingInterval * epochReward ((n + 1) / halvingInterval) := by
  have hgen : blockReward 0 = epochReward 0 := blockReward_eq 0
  rw [← hgen, emitted_add_genesis, ← sum_range_div epochReward (by decide)]
  exact sum_congr rfl fun h _ => blockReward_eq h

theorem emitted_le (n : ℕ) : emitted n ≤ maxSupplyNoms := by
  have hsum := emitted_eq n
  have hcap := maxSupplyNoms_eq
  have hle := sum_epochReward_le ((n + 1) / halvingInterval + 1)
  rw [sum_range_succ] at hle
  -- the partial epoch pays at most a whole one
  have hpartial : (n + 1) % halvingInterval * epochReward ((n + 1) / halvingInterval) ≤
      halvingInterval * epochReward ((n + 1) / halvingInterval) :=
    Nat.mul_le_mul_right _ (Nat.mod_lt _ (by decide)).le
  have hscaled := Nat.mul_le_mul_left halvingInterval hle
  rw [Nat.mul_add] at hscaled
  omega

theorem emitted_of_end {n : ℕ} (hend : scheduleEnd ≤ n + 1) : emitted n = maxSupplyNoms := by
  have hep : halvingEpochs - 1 ≤ (n + 1) / halvingInterval := (Nat.le_div_iff_mul_le (by decide)).mpr hend
  have hsum := emitted_eq n
  rw [sum_epochReward hep, epochReward_eq_zero.mpr hep, Nat.mul_zero, Nat.add_zero] at hsum
  have hcap := maxSupplyNoms_eq
  omega

theorem checkedEmitted_eq (n : ℕ) : checkedEmitted n = some (emitted n) := by
  induction n with
  | zero => rfl
  | succ n ih =>
    have hlt := (emitted_le (n + 1)).trans_lt maxSupplyNoms_lt
    rw [emitted_succ] at hlt
    rw [checkedEmitted] at ih
    rw [checkedEmitted, List.range'_1_concat, List.foldlM_append, ih]
    simp [emitted_succ, Nat.add_comm 1 n, hlt]

/-- **The supply cap is exact**: rewards never increase, no partial sum of them overflows or exceeds the cap, and from
the end of the schedule on the sum is the cap. -/
theorem emission_capped : checkedSupplyFromSchedule = some maxSupplyNoms ∧ Antitone blockReward ∧
      (∀ n, checkedEmitted n = some (emitted n) ∧ emitted n ≤ maxSupplyNoms) ∧
      (∀ n, blockReward n = 0 ↔ scheduleEnd ≤ n) ∧ ∀ n, scheduleEnd ≤ n → emitted n = maxSupplyNoms := by
  refine ⟨by decide +kernel, ?_, fun n => ⟨checkedEmitted_eq n, emitted_le n⟩, fun n => blockReward_eq_zero,
    fun n hend => emitted_of_end (by omega)⟩
  intro h h' hle
  rw [blockReward_eq, blockReward_eq]
  exact epochReward_antitone (Nat.div_le_div_right hle)

end DomProtocol
