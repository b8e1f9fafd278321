import DomProtocol.Chain.State

/-!
# `Node.Locator` — the block locator of a syncing node

Ten hashes from the tip down, then steps that double.  The tip alone decides whether they land on height 0.
-/

namespace DomProtocol

def maxLocatorHashes : Nat := 32

/-- A `u64` read as an `i64`. -/
def asI64 (n : Nat) : Int := if n < 2 ^ 63 then n else n - 2 ^ 64

/-- The loop of `buildLocator`; `none` when the fuel ran out. -/
def locatorLoop (store : DomStore) : Nat → Int → Nat → List Hash256 → Option (List Hash256)
  | 0, _, _, _ => none
  | fuel + 1, h, step, out =>
    if 0 ≤ h ∧ out.length < maxLocatorHashes then
      let out := out ++ store.heightIndex[h.toNat]?.toList
      -- `saturating_mul`
      let step := if 10 ≤ out.length then min (2 * step) (2 ^ 64 - 1) else step
      locatorLoop store fuel (h - asI64 step) step out
    else some out

def buildLocator (S : ChainState) (fuel : Nat) : Option (List Hash256) :=
  locatorLoop S.store fuel (asI64 S.tipHeight) 1 []

/-- Every height up to the tip is indexed, with a stored block of this height. -/
def CompleteIndex (S : ChainState) : Prop :=
  ∀ k ≤ S.tipHeight, ∃ hash header, S.store.heightIndex[k]? = some hash ∧ S.store.blocks[hash]? = some header ∧
    header.height.toNat = k

/-- Canonical blocks in descending order, from the tip to genesis. -/
structure Locates (S : ChainState) (out : List Hash256) : Prop where
  bounded : out.length ≤ maxLocatorHashes
  descending : ∃ heights : List Nat, heights.Pairwise (· > ·) ∧ out.map some = heights.map (S.store.heightIndex[·]?)
  tip : out.head? = S.store.heightIndex[S.tipHeight]?
  genesis : out.getLast? = S.store.heightIndex[0]?

/-- How far below the tip the entry at an index lies, and the step that led to it. -/
def locatorOffset (i : Nat) : Nat := if i ≤ 9 then i else 2 ^ (i - 8) + 7

def locatorStep (i : Nat) : Nat := if i ≤ 9 then 1 else 2 ^ (i - 9)

theorem locatorOffset_lt : ∀ j < maxLocatorHashes, ∀ i < j, locatorOffset i < locatorOffset j := by decide +kernel

theorem locatorStep_succ : ∀ k < maxLocatorHashes,
    (if 10 ≤ k + 1 then min (2 * locatorStep k) (2 ^ 64 - 1) else locatorStep k) = locatorStep (k + 1) ∧
      locatorOffset k + asI64 (locatorStep (k + 1)) = locatorOffset (k + 1) := by decide +kernel

variable {S : ChainState}

def ChainState.hashAt (S : ChainState) (height : Nat) : Hash256 := S.store.heightIndex[height]?.getD Hash256.zero

/-- The heights of the entries from the `k`-th on. -/
def locatorHeights (tip k n : Nat) : List Nat :=
  ((List.range' k n).filter (locatorOffset · ≤ tip)).map (tip - locatorOffset ·)

theorem CompleteIndex.index (hidx : CompleteIndex S) {k : Nat} (hk : k ≤ S.tipHeight) :
    S.store.heightIndex[k]? = some (S.hashAt k) ∧ S.store.blocks[S.hashAt k]?.map (·.height.toNat) = some k := by
  obtain ⟨hash, header, hfnd, hsto, rfl⟩ := hidx k hk
  simp [ChainState.hashAt, hfnd, hsto]

theorem locatorLoop_eq (hidx : CompleteIndex S) {n k fuel : Nat} (hn : k + n = maxLocatorHashes) (hfuel : n < fuel)
    {out : List Hash256} (hout : out.length = k) :
    locatorLoop S.store fuel (S.tipHeight - locatorOffset k) (locatorStep k) out =
      some (out ++ (locatorHeights S.tipHeight k n).map S.hashAt) := by
  induction n generalizing k fuel out with
  | zero =>
    obtain ⟨fuel, rfl⟩ := Nat.exists_eq_add_one.mpr hfuel
    rw [locatorLoop, if_neg (by omega)]
    simp [locatorHeights]
  | succ n ih =>
    obtain ⟨fuel, rfl⟩ := Nat.exists_eq_add_one.mpr (Nat.zero_lt_of_lt hfuel)
    rw [locatorLoop]
    by_cases hle : locatorOffset k ≤ S.tipHeight
    · have hhash : S.store.heightIndex[((S.tipHeight : Int) - locatorOffset k).toNat]? =
          some (S.hashAt (S.tipHeight - locatorOffset k)) := by
        rw [← (hidx.index (Nat.sub_le ..)).1]
        congr 1
        omega
      obtain ⟨hstep, hoff⟩ := locatorStep_succ k (by omega)
      have hnext : (S.tipHeight : Int) - locatorOffset k - asI64 (locatorStep (k + 1)) =
          S.tipHeight - locatorOffset (k + 1) := by omega
      rw [if_pos (by omega)]
      simp only [hhash, Option.toList_some, List.length_append, List.length_singleton, hout, hstep, hnext]
      rw [ih (by omega) (by omega) (by simp [hout])]
      simp [locatorHeights, List.range'_succ, hle]
    · rw [if_neg (by omega)]
      have hnone : (List.range' k (n + 1)).filter (locatorOffset · ≤ S.tipHeight) = [] := by
        simp only [List.filter_eq_nil_iff, List.mem_range'_1, decide_eq_true_eq]
        rintro i ⟨hki, hi⟩ h
        obtain rfl | hlt := Nat.eq_or_lt_of_le hki
        · exact hle h
        · exact hle ((locatorOffset_lt i (by omega) k hlt).le.trans h)
      simp [locatorHeights, hnone]

theorem mem_locatorHeights {tip h : Nat} : h ∈ locatorHeights tip 0 maxLocatorHashes ↔
    ∃ i < maxLocatorHashes, locatorOffset i ≤ tip ∧ tip - locatorOffset i = h := by
  simp [locatorHeights, and_assoc]

theorem locatorHeights_descending (tip : Nat) : (locatorHeights tip 0 maxLocatorHashes).Pairwise (· > ·) := by
  refine List.pairwise_map.mpr (((List.pairwise_lt_range' ..).filter _).imp_of_mem ?_)
  intro i j hi hj hlt
  obtain ⟨hmem, hle⟩ := List.mem_filter.mp hj
  have hoff := locatorOffset_lt j (by simpa using hmem) i hlt
  simp only [decide_eq_true_eq] at hle
  omega

/-- **The locator ends with genesis** exactly if the tip is at most 9 or `2 ^ m + 7` for an `m` from 2 to 23. -/
theorem buildLocator_locates_iff (hidx : CompleteIndex S) :
    (∃ out, (∀ fuel, 33 ≤ fuel → buildLocator S fuel = some out) ∧ Locates S out) ↔
      ∃ i < maxLocatorHashes, S.tipHeight = locatorOffset i := by
  obtain ⟨-, header, -, -, hht⟩ := hidx S.tipHeight le_rfl
  have hlt := header.height.toNat_lt
  by_cases hpos : S.tipHeight < 2 ^ 63
  · have hrun (fuel : Nat) (hfuel : 33 ≤ fuel) : buildLocator S fuel =
        some ((locatorHeights S.tipHeight 0 maxLocatorHashes).map S.hashAt) := by
      have hloop := locatorLoop_eq hidx (Nat.zero_add maxLocatorHashes) hfuel (List.length_nil (α := Hash256))
      rw [buildLocator, asI64, if_pos hpos]
      simpa [locatorOffset, locatorStep] using hloop
    constructor
    · rintro ⟨out, hout, hloc⟩
      obtain rfl := Option.some.inj ((hrun 33 le_rfl).symm.trans (hout 33 le_rfl))
      have hgen := hloc.genesis
      rw [(hidx.index (Nat.zero_le _)).1] at hgen
      obtain ⟨m, hm, heq⟩ := List.mem_map.mp (List.mem_of_getLast? hgen)
      obtain ⟨i, hi, hle, rfl⟩ := mem_locatorHeights.mp hm
      -- the last entry is stored as a block of height 0
      have hzero := (hidx.index (Nat.sub_le S.tipHeight (locatorOffset i))).2
      rw [heq, (hidx.index (Nat.zero_le _)).2, Option.some.injEq] at hzero
      exact ⟨i, hi, by omega⟩
    · rintro ⟨i, hi, htip⟩
      have hdesc := locatorHeights_descending S.tipHeight
      refine ⟨_, hrun, ?_, ⟨_, hdesc, ?_⟩, ?_, ?_⟩
      · rw [List.length_map, locatorHeights, List.length_map]
        exact (List.length_filter_le _ _).trans (List.length_range' ..).le
      · rw [List.map_map]
        refine List.map_congr_left fun h hh => ?_
        obtain ⟨j, -, -, rfl⟩ := mem_locatorHeights.mp hh
        exact (hidx.index (Nat.sub_le ..)).1.symm
      · rw [(hidx.index le_rfl).1]
        simp [locatorHeights, maxLocatorHashes, List.range'_succ, locatorOffset]
      · have hzero := mem_locatorHeights.mpr ⟨i, hi, htip.ge, Nat.sub_eq_zero_of_le htip.le⟩
        obtain ⟨init, m, heq⟩ := (List.eq_nil_or_concat _).resolve_left (List.ne_nil_of_mem hzero)
        rw [heq, List.concat_eq_append] at hdesc hzero ⊢
        -- the entries before the last one are higher than it
        obtain rfl : m = 0 := by
          obtain hin | hin := List.mem_append.mp hzero
          · exact absurd ((List.pairwise_append.mp hdesc).2.2 0 hin m (by simp)) (Nat.not_lt_zero m)
          · exact (List.mem_singleton.mp hin).symm
        simp [(hidx.index (Nat.zero_le _)).1]
  · have hempty : buildLocator S 33 = some [] := by
      rw [buildLocator, locatorLoop, asI64, if_neg hpos, if_neg (by omega)]
    constructor
    · rintro ⟨out, hout, hloc⟩
      obtain rfl := Option.some.inj (hempty.symm.trans (hout 33 le_rfl))
      have htip := hloc.tip
      rw [(hidx.index le_rfl).1] at htip
      cases htip
    · rintro ⟨i, hi, htip⟩
      have hsmall : ∀ i < maxLocatorHashes, locatorOffset i < 2 ^ 63 := by decide +kernel
      exact absurd (htip ▸ hsmall i hi) hpos

namespace SmallLocator

def header (k : Nat) : BlockHeader := ⟨1, UInt64.ofNat k, 0, 0, 0, 0, 0, 0, 0, 0, ⟨0, 0⟩⟩

/-- A chain of eleven blocks. -/
def eleven : ChainState :=
  let store := { DomStore.empty with
    blocks := .ofList ((List.range 11).map fun k => (BitVec.ofNat 256 k, header k))
    heightIndex := .ofList ((List.range 11).map fun k => (k, BitVec.ofNat 256 k)) }
  ⟨store, 10, 10, 0, 0, ⟨0, 0, 0⟩, 0, 0⟩

theorem completeIndex_eleven : CompleteIndex eleven := by
  intro k hk
  have hall : ∀ k ≤ 10, eleven.store.heightIndex[k]? = some (BitVec.ofNat 256 k) ∧
      eleven.store.blocks[BitVec.ofNat 256 k]? = some (header k) ∧ (header k).height.toNat = k := by decide +kernel
  exact ⟨_, _, hall k hk⟩

theorem locator_misses_genesis : CompleteIndex eleven ∧ eleven.store.heightIndex[0]? = some 0 ∧
    buildLocator eleven 33 = some [10, 9, 8, 7, 6, 5, 4, 3, 2, 1] :=
  ⟨completeIndex_eleven, by decide +kernel⟩

theorem locates_iff_eleven : CompleteIndex eleven ∧
    ((∃ out, (∀ fuel, 33 ≤ fuel → buildLocator eleven fuel = some out) ∧ Locates eleven out) ↔
      ∃ i < maxLocatorHashes, eleven.tipHeight = locatorOffset i) :=
  ⟨completeIndex_eleven, buildLocator_locates_iff completeIndex_eleven⟩

end SmallLocator

end DomProtocol
