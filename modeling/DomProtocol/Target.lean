import Mathlib.Data.Nat.Bitwise
import DomProtocol.Pow

/-!
# `Target` — expected targets and their compact form

The header carries a compact target, consensus requires the expanded one.  Both encoders keep the largest candidate
that the decoder gives back and that is at most the target, so what they return lies between the bounds, and a target
that the decoder gave is given again (`targetToCompact_compactToTarget`).
-/

namespace DomProtocol

open Lib

/-! ## What the decoder gives -/

theorem mask_mantissa (bits : UInt32) : bits &&& 0x007fffff = 0 ↔ bits.toNat % 2 ^ 23 = 0 := by
  rw [← UInt32.toNat_inj, UInt32.toNat_and]
  show bits.toNat &&& (2 ^ 23 - 1) = 0 ↔ _
  rw [Nat.and_two_pow_sub_one_eq_mod]

theorem mask_sign (bits : UInt32) : bits &&& 0x00800000 = 0 ↔ bits.toNat / 2 ^ 23 % 2 = 0 := by
  rw [← UInt32.toNat_inj, UInt32.toNat_and]
  show bits.toNat &&& 2 ^ 23 = 0 ↔ _
  rw [Nat.and_two_pow, Nat.testBit_eq_decide_div_mod_eq]
  rcases Nat.mod_two_eq_zero_or_one (bits.toNat / 2 ^ 23) with h | h <;> rw [h] <;> simp

/-- A target whose three leading bytes are `a`, `b` and `c`, in front of `k` zero bytes. -/
structure Leads (t : BitVec 256) (k a b c : Nat) : Prop where
  places : k ≤ 29
  first : a < 256
  second : b < 256
  third : c < 128
  value : t.toNat = (a * 65536 + b * 256 + c) * 256 ^ k

variable {t : BitVec 256} {bits : UInt32}

theorem compactToTarget_eq_ok (ht : t ≠ 0) : compactToTarget bits = .ok t ↔
    bits.toNat % 2 ^ 23 ≠ 0 ∧ bits.toNat / 2 ^ 23 % 2 = 0 ∧ bits.toNat / 2 ^ 24 ≤ 32 ∧
      t = compactToTargetUnchecked bits ∧ t ≤ maximumAcceptedTarget ∧ minTargetBytes ≤ t := by
  unfold compactToTarget
  dsimp only
  split
  · rename_i hzero
    rw [mask_mantissa] at hzero
    refine iff_of_false (fun h => ht (Except.ok.inj h).symm) fun h => h.1 hzero
  · rename_i hzero
    rw [mask_mantissa] at hzero
    simp only [validateTargetBounds, inversion, ne_eq, mask_sign, not_not, hzero, not_false_eq_true, true_and,
      Nat.not_lt, gt_iff_lt, BitVec.not_lt]
    constructor
    · rintro ⟨hsign, hexp, ⟨hmax, hmin⟩, rfl⟩
      exact ⟨hsign, hexp, rfl, hmax, hmin⟩
    · rintro ⟨hsign, hexp, rfl, hmax, hmin⟩
      exact ⟨hsign, hexp, ⟨hmax, hmin⟩, rfl⟩

variable {k a b c : Nat}

theorem leads_unchecked (hk : k ≤ 29) (he : bits.toNat / 2 ^ 24 = k + 3) :
    Leads (compactToTargetUnchecked bits) k (bits.toNat % 256) (bits.toNat / 256 % 256)
      (bits.toNat % 2 ^ 23 / 65536) := by
  refine ⟨hk, Nat.mod_lt _ (by decide), Nat.mod_lt _ (by decide), by omega, ?_⟩
  have hplaces : 256 ^ (k + 2) = 65536 * 256 ^ k ∧ 256 ^ (k + 1) = 256 * 256 ^ k := by
    constructor <;> ring
  have hm : bits.toNat % 2 ^ 23 % 256 = bits.toNat % 256 ∧ bits.toNat % 2 ^ 23 / 256 % 256 = bits.toNat / 256 % 256 ∧
      bits.toNat % 2 ^ 23 / 65536 % 256 = bits.toNat % 2 ^ 23 / 65536 := by omega
  have hfit : (bits.toNat % 256 * 65536 + bits.toNat / 256 % 256 * 256 + bits.toNat % 2 ^ 23 / 65536) * 256 ^ k <
      2 ^ 256 := by
    calc _ < 2 ^ 24 * 256 ^ k := Nat.mul_lt_mul_of_pos_right (by omega) (Nat.pow_pos (by decide))
      _ ≤ 2 ^ 24 * 256 ^ 29 := Nat.mul_le_mul_left _ (Nat.pow_le_pow_right (by decide) hk)
      _ = 2 ^ 256 := by norm_num
  simp only [compactToTargetUnchecked, he, pow_zero, Nat.div_one, pow_one, hm, BitVec.toNat_ofNat]
  rw [if_pos (by omega), if_pos (by omega), if_pos (by omega), show 256 ^ 2 = 65536 from rfl, hm.2.2,
    show k + 3 - (0 + 1) = k + 2 from rfl, show k + 3 - (1 + 1) = k + 1 from rfl, show k + 3 - (2 + 1) = k from rfl,
    hplaces.1, hplaces.2]
  rw [Nat.mod_eq_of_lt]
  · ring
  · refine lt_of_eq_of_lt ?_ hfit
    ring

/-- A nonzero target of the decoder, written with its first nonzero byte in front. -/
theorem leads_of_ok (ht : t ≠ 0) (h : compactToTarget bits = .ok t) :
    ∃ k a b c, Leads t k a b c ∧ a ≠ 0 ∧ 3 ≤ k := by
  obtain ⟨-, -, hexp, rfl, -, hmin⟩ := (compactToTarget_eq_ok ht).mp h
  have hlow : 0xffff * 256 ^ 4 ≤ (compactToTargetUnchecked bits).toNat := hmin
  have hge : ¬ bits.toNat / 2 ^ 24 < 3 := by
    intro hlt
    have hplace : (compactToTargetUnchecked bits).toNat < 2 ^ 24 := by
      unfold compactToTargetUnchecked
      refine (Nat.mod_le _ _).trans_lt ?_
      generalize bits.toNat / 2 ^ 24 = e at hlt
      obtain rfl | rfl | rfl : e = 0 ∨ e = 1 ∨ e = 2 := by omega
      all_goals simp <;> omega
    omega
  obtain ⟨k, hk⟩ := Nat.exists_eq_add_of_le' (Nat.not_lt.mp hge)
  have hlead := leads_unchecked (by omega) hk
  generalize bits.toNat % 256 = a at hlead
  generalize bits.toNat / 256 % 256 = b at hlead
  generalize bits.toNat % 2 ^ 23 / 65536 = c at hlead
  generalize compactToTargetUnchecked bits = t at hlead hlow
  have hfar {k a b c : Nat} (hl : Leads t k a b c) : 3 ≤ k := by
    obtain ⟨-, ha, hb, hc, hvalue⟩ := hl
    by_contra hk
    have hpow : 256 ^ k ≤ 256 ^ 2 := Nat.pow_le_pow_right (by decide) (by omega)
    have hsmall : a * 65536 + b * 256 + c ≤ 2 ^ 24 := by omega
    have := Nat.mul_le_mul hsmall hpow
    omega
  -- a leading zero byte moves the mantissa one place down
  have hdown {k a b : Nat} (hb : b < 128) (hl : Leads t k 0 a b) : ∃ k, Leads t k a b 0 := by
    obtain ⟨k, rfl⟩ := Nat.exists_eq_add_of_le' (Nat.le_of_lt (hfar hl))
    refine ⟨k + 1, by have := hl.places; omega, hl.second, by omega, by decide, ?_⟩
    rw [hl.value]
    ring
  by_cases ha : a = 0
  · subst ha
    obtain ⟨k, hl⟩ := hdown hlead.third hlead
    by_cases hb : b = 0
    · subst hb
      obtain ⟨k, hl⟩ := hdown (by decide) hl
      refine ⟨k, c, 0, 0, hl, ?_, hfar hl⟩
      rintro rfl
      have := hl.value
      omega
    · exact ⟨k, b, c, 0, hl, hb, hfar hl⟩
  · exact ⟨k, a, b, c, hlead, ha, hfar hlead⟩

/-! ## The legacy encoder -/

namespace Leads

variable (h : Leads t k a b c)

include h

theorem firstNonzeroByte (ha : a ≠ 0) : firstNonzeroByte t = some (29 - k) := by
  have ⟨_, _, _, _, _⟩ := h
  have hpow : 0 < 256 ^ k := Nat.pow_pos (by decide)
  unfold DomProtocol.firstNonzeroByte
  rw [List.find?_range_eq_some]
  refine ⟨?_, List.mem_range.mpr (by omega), ?_⟩
  · rw [byteAt, h.value, show 31 - (29 - k) = 2 + k by omega, Nat.pow_add, Nat.mul_div_mul_right _ _ hpow]
    simp only [decide_eq_true_eq]
    omega
  · intro i hi
    have hle : 256 ^ (3 + k) ≤ 256 ^ (31 - i) := Nat.pow_le_pow_right (by decide) (by omega)
    rw [byteAt, h.value, Nat.div_eq_of_lt]
    · rfl
    · refine lt_of_lt_of_le ?_ hle
      rw [Nat.pow_add]
      exact Nat.mul_lt_mul_of_pos_right (by omega) hpow

theorem mantissaAt (hk : 3 ≤ k) : mantissaAt t (29 - k) = a + 256 * b + 65536 * c := by
  have ⟨_, _, _, _, _⟩ := h
  have hpow : 0 < 256 ^ k := Nat.pow_pos (by decide)
  unfold DomProtocol.mantissaAt
  rw [show 32 - (29 - k) = k + 3 by omega]
  simp only [byteAt, h.value]
  rw [show 31 - (29 - k) = 2 + k by omega, show 31 - (29 - k + 1) = 1 + k by omega,
    show 31 - (29 - k + 2) = 0 + k by omega]
  simp only [Nat.pow_add, Nat.mul_div_mul_right _ _ hpow]
  omega

/-- The mantissa of the target, below its exponent, is decoded to the target. -/
theorem compactToTarget_eq (hk : 3 ≤ k) (ha : a ≠ 0) (hmax : t ≤ maximumAcceptedTarget) (hmin : minTargetBytes ≤ t) :
    compactToTarget (UInt32.ofNat ((k + 3) * 2 ^ 24 + (a + 256 * b + 65536 * c))) = .ok t := by
  have ⟨_, _, _, _, _⟩ := h
  have hnat := UInt32.toNat_ofNat' (n := (k + 3) * 2 ^ 24 + (a + 256 * b + 65536 * c))
  rw [Nat.mod_eq_of_lt (by omega)] at hnat
  generalize UInt32.ofNat ((k + 3) * 2 ^ 24 + (a + 256 * b + 65536 * c)) = bits at hnat
  have ht : t ≠ 0 := by
    rintro rfl
    exact absurd hmin (by decide)
  have hmantissa : bits.toNat % 256 = a ∧ bits.toNat / 256 % 256 = b ∧ bits.toNat % 2 ^ 23 / 65536 = c := by omega
  have hl : Leads (compactToTargetUnchecked bits) k _ _ _ := leads_unchecked (by omega) (by omega)
  refine (compactToTarget_eq_ok ht).mpr ⟨by omega, by omega, by omega, BitVec.eq_of_toNat_eq ?_, hmax, hmin⟩
  rw [h.value, hl.value, hmantissa.1, hmantissa.2.1, hmantissa.2.2]

end Leads

/-! ## The encoders -/

/-- A step towards the best candidate: it keeps the one it has, or takes one that the decoder gives, that is at most
    the target, and that is not lower. -/
structure Improves (t : BitVec 256) (best best' : Option (UInt32 × BitVec 256)) : Prop where
  sound : ∀ c x, best' = some (c, x) → best = some (c, x) ∨ (compactToTarget c = .ok x ∧ x ≤ t)
  keeps : ∀ c x, best = some (c, x) → ∃ c' x', best' = some (c', x') ∧ x ≤ x'

variable {best : Option (UInt32 × BitVec 256)}

theorem Improves.same (t : BitVec 256) (best : Option (UInt32 × BitVec 256)) : Improves t best best :=
  ⟨fun _ _ h => .inl h, fun c x h => ⟨c, x, h, BitVec.le_refl _⟩⟩

theorem Improves.some {x : BitVec 256} (hok : compactToTarget bits = .ok x) (hle : ¬ x > t)
    (hbest : ∀ c y, best = some (c, y) → y ≤ x) : Improves t best (some (bits, x)) := by
  refine ⟨?_, fun c y h => ⟨bits, x, rfl, hbest c y h⟩⟩
  intro c y h
  cases h
  exact .inr ⟨hok, BitVec.not_lt.mp hle⟩

theorem improves_step (t : BitVec 256) (best : Option (UInt32 × BitVec 256)) (start : Nat) :
    Improves t best (targetToCompactStep t best start) := by
  fun_cases targetToCompactStep t best start
  case case4 hok hle => exact .some hok hle (by simp)
  case case6 hok hle hbet =>
    refine .some hok hle ?_
    intro c y h
    cases h
    rcases hbet with hlt | ⟨heq, -⟩
    · exact BitVec.le_of_lt hlt
    · exact BitVec.le_of_eq heq.symm
  all_goals exact .same t _

/-- What a run of steps ends with is decoded, is at most the target, and is not lower than what it started with. -/
theorem improves_foldl {step : Option (UInt32 × BitVec 256) → Nat → Option (UInt32 × BitVec 256)}
    (hstep : ∀ best start, Improves t best (step best start)) (starts : List Nat) :
    Improves t best (starts.foldl step best) := by
  induction starts generalizing best with
  | nil => exact .same t best
  | cons start rest ih =>
    obtain ⟨hsnd, hkps⟩ := @ih (step best start)
    refine ⟨?_, ?_⟩
    · intro c x h
      rcases hsnd c x h with hold | hnew
      · exact (hstep best start).sound c x hold
      · exact .inr hnew
    · intro c x h
      obtain ⟨c', x', h', hle⟩ := (hstep best start).keeps c x h
      obtain ⟨c'', x'', h'', hle'⟩ := hkps c' x' h'
      exact ⟨c'', x'', h'', BitVec.le_trans hle hle'⟩

theorem stripMantissa_of_odd {size m : Nat} (h : m % 256 ≠ 0) : stripMantissa 4 size m = (size, m) := by
  rw [stripMantissa, if_neg fun hc => h hc.2]

/-- A step ends with a target that is not lower than its own candidate. -/
theorem le_step {start size m : Nat} {x : BitVec 256} (hm : mantissaAt t start / 2 ^ 23 % 2 ≠ 1)
    (hs : stripMantissa 4 (32 - start) (mantissaAt t start) = (size, m)) (hpos : mantissaAt t start ≠ 0)
    (hok : compactToTarget (UInt32.ofNat (size * 2 ^ 24 + m)) = .ok x) (hle : x ≤ t) :
    ∃ c y, targetToCompactStep t best start = some (c, y) ∧ x ≤ y := by
  fun_cases targetToCompactStep t best start
  case case1 mantissa hno => exact absurd hno (not_or.mpr ⟨hpos, hm⟩)
  all_goals
    obtain ⟨rfl, rfl⟩ := Prod.mk.inj (hs.symm.trans ‹stripMantissa _ _ _ = _›)
    cases hok.symm.trans ‹compactToTarget _ = _›
  case case4 | case6 => exact ⟨_, _, rfl, BitVec.le_refl _⟩
  case case7 hno => exact ⟨_, _, rfl, BitVec.not_lt.mp fun hlt => hno (.inl hlt)⟩
  all_goals exact absurd hle (BitVec.not_le.mpr ‹x > t›)

theorem targetToCompact_compactToTarget (h : compactToTarget bits = .ok t) :
    compactToTarget (targetToCompact t) = .ok t := by
  by_cases ht : t = 0
  · subst ht
    decide
  · obtain ⟨-, -, -, -, hmax, hmin⟩ := (compactToTarget_eq_ok ht).mp h
    obtain ⟨k, a, b, c, hl, ha, hk⟩ := leads_of_ok ht h
    have ⟨_, _, _, _, _⟩ := hl
    have hm := hl.mantissaAt hk
    have hs : stripMantissa 4 (32 - (29 - k)) (mantissaAt t (29 - k)) = (k + 3, a + 256 * b + 65536 * c) := by
      rw [hm, stripMantissa_of_odd (by omega), show 32 - (29 - k) = k + 3 by omega]
    obtain ⟨c', y, hstep, hy⟩ := @le_step t none _ _ _ _ (by omega) hs (by omega)
      (hl.compactToTarget_eq hk ha hmax hmin) (BitVec.le_refl t)
    -- the candidates after the first keep what it found, and nothing above the target is ever taken
    have hrun : targetToCompactBest t (29 - k) =
        (List.range' (29 - k + 1) (k + 2)).foldl (targetToCompactStep t) (some (c', y)) := by
      rw [targetToCompactBest, show 32 - (29 - k) = k + 2 + 1 by omega, List.range'_succ, List.foldl_cons, hstep]
    obtain ⟨c'', x, hbest, hyx⟩ := (improves_foldl (improves_step t) (List.range' (29 - k + 1) (k + 2))).keeps c' y rfl
    rw [← hrun] at hbest
    obtain ⟨hok, hle⟩ := ((improves_foldl (improves_step t) _).sound c'' x hbest).resolve_left nofun
    rw [targetToCompact, hl.firstNonzeroByte ha]
    simp only [hbest, hok]
    exact congrArg _ (BitVec.le_antisymm hle (BitVec.le_trans hy hyx))

/-! ## Expected targets -/

/-- Every expected target was given by the decoder, in the rescue as before it. -/
theorem exists_compact_of_expected {networkMagic : UInt32} {blockTimestamp blockHeight : Nat}
    (h : computeExpectedTarget networkMagic blockTimestamp blockHeight = .ok t) :
    ∃ bits, compactToTarget bits = .ok t := by
  simp only [computeExpectedTarget, PowParams.maxTarget, inversion] at h
  obtain ⟨params, -, h⟩ := h
  split at h
  · exact ⟨_, h⟩
  · simp only [inversion] at h
    obtain ⟨anchor, -, raw, -, h⟩ := h
    split at h
    · exact ⟨_, h⟩
    · exact ⟨_, h⟩

/-- What the miner writes for the expected target is read back as that target, whichever encoder produced it. -/
theorem expectedTarget_roundTrip {networkMagic : UInt32} {blockTimestamp blockHeight : Nat} {T : BitVec 256}
    (hT : computeExpectedTarget networkMagic blockTimestamp blockHeight = .ok T) :
    compactToTarget (targetToCompact T) = .ok T := by
  obtain ⟨bits, hbits⟩ := exists_compact_of_expected hT
  exact targetToCompact_compactToTarget hbits

theorem expectedTarget_roundTrip_rescue :
    computeExpectedTarget networkMagicMainnet 1784652190 4849 = .ok (BitVec.ofNat 256 (0x860679 * 256 ^ 27)) ∧
      compactToTarget (targetToCompact (.ofNat 256 (0x860679 * 256 ^ 27))) =
        .ok (BitVec.ofNat 256 (0x860679 * 256 ^ 27)) := by
  have h : computeExpectedTarget networkMagicMainnet 1784652190 4849 =
      .ok (BitVec.ofNat 256 (0x860679 * 256 ^ 27)) := by
    decide +kernel
  exact ⟨h, expectedTarget_roundTrip h⟩

/-! ## Work -/

/-- How often a target fits into the one that counts for a work of one, by the network and height. -/
def workQuotient (networkMagic : UInt32) (blockHeight : Nat) (t : BitVec 256) : Nat :=
  (if isMainnetRescue networkMagic blockHeight then 0xffff * 256 ^ 29 else 2 ^ 240 - 1) / t.toNat

variable {networkMagic : UInt32} {blockHeight : Nat}

theorem targetToDifficulty_eq (hmin : minTargetBytes ≤ t) :
    targetToDifficultyForNetworkHeight networkMagic blockHeight t =
      .ok (if workQuotient networkMagic blockHeight t < 2 ^ 128 then max (workQuotient networkMagic blockHeight t) 1
        else workQuotient networkMagic blockHeight t / 2 ^ 128) := by
  have ht : t ≠ 0 := by
    rintro rfl
    exact absurd hmin (by decide)
  obtain ⟨n, hn, hq⟩ : ∃ n : BitVec 256, (if isMainnetRescue networkMagic blockHeight then
      compactToTarget mainnetAsertRescueMaxCompactTarget else .ok maxTargetBytes) = .ok n ∧
      workQuotient networkMagic blockHeight t = n.toNat / t.toNat := by
    unfold workQuotient
    split
    · exact ⟨.ofNat 256 (0xffff * 256 ^ 29), by decide +kernel, rfl⟩
    · exact ⟨maxTargetBytes, rfl, rfl⟩
  have hlt : n.toNat / t.toNat / u128Bound < u128Bound :=
    Nat.div_lt_of_lt_mul ((Nat.div_le_self _ _).trans_lt n.isLt)
  unfold targetToDifficultyForNetworkHeight
  rw [hn, hq]
  show Except.ok (workOf n t) = .ok (if _ < u128Bound then _ else _ / u128Bound)
  simp only [workOf, if_neg ht, Nat.mod_eq_of_lt hlt]
  by_cases h : n.toNat / t.toNat < u128Bound
  · rw [if_pos h, if_pos (Nat.div_eq_of_lt h), Nat.mod_eq_of_lt h]
  · rw [if_neg h, if_neg fun hz => h (Nat.lt_of_div_eq_zero (by decide) hz)]

/-- Of two accepted targets the lower one counts for at least as much work, except where its quotient alone reaches
    `2 ^ 128`: from there on only the high half counts. -/
theorem difficulty_antitone_iff {t₁ t₂ : BitVec 256} (hle : t₁ ≤ t₂) (hmin : minTargetBytes ≤ t₁) :
    ∃ d₁ d₂, targetToDifficultyForNetworkHeight networkMagic blockHeight t₁ = .ok d₁ ∧
      targetToDifficultyForNetworkHeight networkMagic blockHeight t₂ = .ok d₂ ∧ 1 ≤ d₁ ∧ 1 ≤ d₂ ∧
      (d₂ ≤ d₁ ↔ ¬ (workQuotient networkMagic blockHeight t₂ < 2 ^ 128 ∧
        2 ^ 128 ≤ workQuotient networkMagic blockHeight t₁ ∧
        workQuotient networkMagic blockHeight t₁ / 2 ^ 128 < max (workQuotient networkMagic blockHeight t₂) 1)) := by
  have hpos : 0 < t₁.toNat := lt_of_lt_of_le (by decide) hmin
  have hq : workQuotient networkMagic blockHeight t₂ ≤ workQuotient networkMagic blockHeight t₁ :=
    Nat.div_le_div_left hle hpos
  rw [targetToDifficulty_eq hmin, targetToDifficulty_eq (BitVec.le_trans hmin hle)]
  refine ⟨_, _, rfl, rfl, ?_, ?_, ?_⟩
  all_goals split_ifs <;> omega

theorem difficulty_antitone_above_limit : ∃ d₁ d₂,
    targetToDifficultyForNetworkHeight networkMagicMainnet 1 (.ofNat 256 (2 ^ 150)) = .ok d₁ ∧
      targetToDifficultyForNetworkHeight networkMagicMainnet 1 (.ofNat 256 (2 ^ 200)) = .ok d₂ ∧ d₂ ≤ d₁ := by
  obtain ⟨d₁, d₂, h₁, h₂, -, -, hiff⟩ := @difficulty_antitone_iff networkMagicMainnet 1 (.ofNat 256 (2 ^ 150))
    (.ofNat 256 (2 ^ 200)) (by decide) (by decide)
  exact ⟨d₁, d₂, h₁, h₂, hiff.mpr (by decide)⟩

/-- The hardest accepted target counts for less work than one `2 ^ 65` times as easy. -/
theorem difficulty_drops_at_limit : minTargetBytes ≤ BitVec.ofNat 256 (2 ^ 113) ∧ ∃ d₁ d₂,
    targetToDifficultyForNetworkHeight networkMagicMainnet 1 minTargetBytes = .ok d₁ ∧
      targetToDifficultyForNetworkHeight networkMagicMainnet 1 (.ofNat 256 (2 ^ 113)) = .ok d₂ ∧ d₁ < d₂ := by
  refine ⟨by decide, ?_⟩
  rw [targetToDifficulty_eq (by decide), targetToDifficulty_eq (by decide)]
  exact ⟨_, _, rfl, rfl, by decide⟩

end DomProtocol
