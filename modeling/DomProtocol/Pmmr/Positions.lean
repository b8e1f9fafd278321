import DomProtocol.Pmmr

/-!
# `Pmmr.Positions` — heights and peaks over the whole range of positions

The numbering is specified by the perfect trees themselves: a tree is its two subtrees and then its root.  The loop that
finds a height stops within its 64 rounds everywhere, but at the largest position it has missed the root it started from.
-/

namespace DomProtocol

/-! ## Heights -/

/-- Node `p` of the perfect tree of height `h`, in postorder, has height `k`. -/
inductive NodeAt : Nat → Nat → Nat → Prop where
  | root (h : Nat) : NodeAt h (2 ^ (h + 1) - 1) h
  | left {h p k : Nat} (hnode : NodeAt h p k) : NodeAt (h + 1) p k
  | right {h p k : Nat} (hnode : NodeAt h p k) : NodeAt (h + 1) (2 ^ (h + 1) - 1 + p) k

/-- Every perfect tree that has a node `p` has it at this height. -/
def HeightAt (p k : Nat) : Prop := ∀ h, p < 2 ^ (h + 1) → NodeAt h p k

variable {p h k : Nat}

theorem NodeAt.lt (hnode : NodeAt h p k) : p < 2 ^ (h + 1) := by
  induction hnode with
  | root h => exact Nat.sub_lt (Nat.two_pow_pos _) Nat.one_pos
  | left _ ih | right _ ih => omega

theorem isAllOnes_root (hfit : 2 ^ (h + 1) < 2 ^ 64) : isAllOnes (2 ^ (h + 1) - 1) = true := by
  have hsucc : 2 ^ (h + 1) - 1 + 1 = 2 ^ (h + 1) := Nat.sub_add_cancel Nat.one_le_two_pow
  rw [isAllOnes, hsucc, decide_eq_true_eq]
  exact ⟨by omega, hfit, h + 1, rfl⟩

theorem not_isAllOnes (hle : 2 ^ h ≤ p) (hlt : p < 2 ^ (h + 1) - 1) : isAllOnes p = false := by
  simp only [isAllOnes, decide_eq_false_iff_not]
  rintro ⟨-, -, k, hk⟩
  have hlo : h < k := (Nat.pow_lt_pow_iff_right Nat.one_lt_two).mp (by omega)
  have hhi : k < h + 1 := (Nat.pow_lt_pow_iff_right Nat.one_lt_two).mp (by omega)
  omega

theorem mostSignificantPos_eq (hle : 2 ^ h ≤ p) (hlt : p < 2 ^ (h + 1)) : mostSignificantPos p = h + 1 := by
  have hne : p ≠ 0 := (Nat.two_pow_pos h).trans_le hle |>.ne'
  rw [mostSignificantPos, if_neg hne, (Nat.log2_eq_iff hne).mpr ⟨hle, hlt⟩]

theorem jumpLeftUntilAllOnes_root (fuel : Nat) (hfit : 2 ^ (h + 1) < 2 ^ 64) :
    jumpLeftUntilAllOnes fuel (2 ^ (h + 1) - 1) = 2 ^ (h + 1) - 1 := by
  cases fuel with
  | zero => rfl
  | succ fuel => rw [jumpLeftUntilAllOnes, if_pos (isAllOnes_root hfit)]

/-- **The loop ends at the root of a tree of the height of the node.**  A jump moves a node of the right subtree to the
    same place in the left one, so the induction is on the tree. -/
theorem jumps_to_root {fuel : Nat} (hpos : 0 < p) (hp : p < 2 ^ (h + 1)) (hfuel : p < 2 ^ (fuel + 1))
    (hfit : p + 1 < 2 ^ 64) :
    ∃ k, jumpLeftUntilAllOnes fuel p = 2 ^ (k + 1) - 1 ∧ 2 ^ (k + 1) < 2 ^ 64 ∧ NodeAt h p k := by
  induction h generalizing p fuel with
  | zero =>
    obtain rfl : p = 1 := by omega
    exact ⟨0, jumpLeftUntilAllOnes_root (h := 0) fuel (by decide), by decide, .root 0⟩
  | succ h ih =>
    by_cases hroot : p = 2 ^ (h + 1 + 1) - 1
    · subst hroot
      exact ⟨h + 1, jumpLeftUntilAllOnes_root fuel (by omega), by omega, .root (h + 1)⟩
    by_cases hleft : p < 2 ^ (h + 1)
    · obtain ⟨k, hjump, hpow, hnode⟩ := ih hpos hleft hfuel hfit
      exact ⟨k, hjump, hpow, .left hnode⟩
    · have hle := Nat.not_lt.mp hleft
      cases fuel with
      | zero => omega
      | succ fuel =>
        have hdepth : h + 1 < fuel + 2 := (Nat.pow_lt_pow_iff_right Nat.one_lt_two).mp (hle.trans_lt hfuel)
        have hpow := Nat.pow_le_pow_right Nat.two_pos (Nat.lt_succ_iff.mp hdepth)
        obtain ⟨k, hjump, hroot, hnode⟩ := @ih (p - (2 ^ (h + 1) - 1)) fuel (by omega) (by omega) (by omega) (by omega)
        refine ⟨k, ?_, hroot, ?_⟩
        · rw [jumpLeftUntilAllOnes, not_isAllOnes hle (by omega), jumpLeft, mostSignificantPos_eq hle hp, Nat.add_sub_cancel]
          exact hjump
        · have hright := hnode.right
          rwa [Nat.add_sub_of_le (by omega)] at hright

theorem heightAt_nodeHeight (hpos : 0 < p) (hfit : p + 1 < 2 ^ 64) :
    isAllOnes (jumpLeftUntilAllOnes 64 p) = true ∧ HeightAt p (nodeHeight p) := by
  have hjumps (h : Nat) (hp : p < 2 ^ (h + 1)) := jumps_to_root hpos hp (show p < 2 ^ (64 + 1) by omega) hfit
  obtain ⟨k, hk, hpow, -⟩ := hjumps 63 (by omega)
  refine ⟨by rw [hk]; exact isAllOnes_root hpow, fun h hp => ?_⟩
  obtain ⟨k, hk, -, hnode⟩ := hjumps h hp
  have hone := Nat.two_pow_pos k
  rw [nodeHeight, if_neg (by omega), hk, mostSignificantPos_eq (h := k) (by omega) (by omega)]
  exact hnode

/-! ## Peaks -/

/-- The peaks of the bits below `bit`, with checked additions. -/
def peakPositionsFixedFrom : Nat → Nat → Nat → Option (List Nat)
  | 0, _, _ => some []
  | bit + 1, remaining, posOffset =>
    if 2 ^ bit ≤ remaining then do
      let subtreeSize ← checkedAdd64 (2 ^ bit - 1) (2 ^ bit)
      let peakPos ← checkedAdd64 posOffset subtreeSize
      let peaks ← peakPositionsFixedFrom bit (remaining - 2 ^ bit) peakPos
      return peakPos :: peaks
    else peakPositionsFixedFrom bit remaining posOffset

def peakPositionsFixed (leafCount : Nat) : Option (List Nat) :=
  if leafCount = 0 then some [] else peakPositionsFixedFrom 64 leafCount 0

/-- The last positions of perfect trees side by side, the first of them after `pos`. -/
def peaksFrom : Nat → List Nat → List Nat
  | _, [] => []
  | pos, h :: heights => (pos + (2 ^ (h + 1) - 1)) :: peaksFrom (pos + (2 ^ (h + 1) - 1)) heights

/-- Perfect trees of falling heights that have `leafCount` leaves together. -/
def IsRange (leafCount : Nat) (heights : List Nat) : Prop :=
  heights.Pairwise (· > ·) ∧ (heights.map (2 ^ ·)).sum = leafCount

theorem peakPositionsFixedFrom_eq_some {bit remaining : Nat} (posOffset : Nat) (hrem : remaining < 2 ^ bit) :
    ∃ heights, IsRange remaining heights ∧ (∀ h ∈ heights, h < bit) ∧
      ∀ peaks, peakPositionsFixedFrom bit remaining posOffset = some peaks ↔
        (∀ peak ∈ peaksFrom posOffset heights, peak < u64Bound) ∧ peaksFrom posOffset heights = peaks := by
  induction bit generalizing remaining posOffset with
  | zero =>
    obtain rfl : remaining = 0 := by omega
    exact ⟨[], ⟨.nil, rfl⟩, nofun, by simp [peakPositionsFixedFrom, peaksFrom]⟩
  | succ bit ih =>
    unfold peakPositionsFixedFrom
    split
    · have hsize : 2 ^ bit - 1 + 2 ^ bit = 2 ^ (bit + 1) - 1 := by omega
      obtain ⟨heights, ⟨hfalls, hsum⟩, hlow, hpeaks⟩ :=
        @ih (remaining - 2 ^ bit) (posOffset + (2 ^ (bit + 1) - 1)) (by omega)
      refine ⟨bit :: heights, ⟨.cons hlow hfalls, ?_⟩, ?_, fun peaks => ?_⟩
      · rw [List.map_cons, List.sum_cons, hsum]
        omega
      · simpa using fun h hh => Nat.lt_succ_of_lt (hlow h hh)
      · simp only [Option.bind_eq_bind, Option.bind_eq_some_iff, checkedAdd64_eq_some, hsize, peaksFrom, List.forall_mem_cons]
        constructor
        · rintro ⟨_, ⟨-, rfl⟩, _, ⟨hfit, rfl⟩, rest, hrest, heq⟩
          obtain ⟨hall, rfl⟩ := (hpeaks rest).mp hrest
          exact ⟨⟨hfit, hall⟩, Option.some.inj heq⟩
        · rintro ⟨⟨hfit, hall⟩, rfl⟩
          exact ⟨_, ⟨by omega, rfl⟩, _, ⟨hfit, rfl⟩, _, (hpeaks _).mpr ⟨hall, rfl⟩, rfl⟩
    · rename_i hbit
      obtain ⟨heights, hrange, hlow, hpeaks⟩ := ih posOffset (Nat.not_le.mp hbit)
      exact ⟨heights, hrange, fun h hh => Nat.lt_succ_of_lt (hlow h hh), hpeaks⟩

theorem not_nodeAt_last : ¬ NodeAt 63 (2 ^ 64 - 1) 0 := by
  generalize hp : 2 ^ 64 - 1 = p
  intro hnode
  cases hnode with
  | left hnode =>
    have := hnode.lt
    omega
  | right hnode =>
    have := hnode.lt
    omega

/-- **Heights are right up to the largest position but one, and peaks everywhere.** -/
theorem positions_exact_iff (p n : UInt64) (hp : p ≠ 0) :
    isAllOnes (jumpLeftUntilAllOnes 64 p.toNat) = true ∧
      (HeightAt p.toNat (nodeHeight p.toNat) ↔ p.toNat ≠ 2 ^ 64 - 1) ∧
      ∃ heights, IsRange n.toNat heights ∧ ∀ peaks, peakPositionsFixed n.toNat = some peaks ↔
        (∀ peak ∈ peaksFrom 0 heights, peak < u64Bound) ∧ peaksFrom 0 heights = peaks := by
  have hpos : 0 < p.toNat := Nat.pos_of_ne_zero fun hzero => hp (UInt64.toNat_inj.mp hzero)
  have hlt := p.toNat_lt
  obtain ⟨heights, hrange, -, hpeaks⟩ := peakPositionsFixedFrom_eq_some 0 n.toNat_lt
  refine ⟨?_, ⟨fun hheight hlast => ?_, fun hlast => (heightAt_nodeHeight hpos (by omega)).2⟩, heights, hrange, fun peaks => ?_⟩
  · by_cases hlast : p.toNat = 2 ^ 64 - 1
    · rw [hlast]
      decide
    · exact (heightAt_nodeHeight hpos (by omega)).1
  · rw [hlast] at hheight
    exact not_nodeAt_last (hheight 63 (by decide))
  · rw [← hpeaks, peakPositionsFixed]
    split
    · rename_i hzero
      rw [hzero]
      rfl
    · rfl

theorem seventh_position : HeightAt 7 (nodeHeight 7) := (positions_exact_iff 7 0 (by decide)).2.1.mpr (by decide)

/-- The largest position is a root of height 63. -/
theorem last_position : nodeHeight (2 ^ 64 - 1) = 0 ∧ NodeAt 63 (2 ^ 64 - 1) 63 ∧ ¬ NodeAt 63 (2 ^ 64 - 1) 0 :=
  ⟨by decide, .root 63, not_nodeAt_last⟩

end DomProtocol
