import DomProtocol.Chain.Genesis

/-!
# `Chain.State` — the chain state and the header rules it checks

`ChainState` is the store together with the cached tip.  This module has everything `connect_block` decides about a
header: identity, link to the parent, timestamps, RandomX seed, proof of work, target and total difficulty.
Ancestors are looked up by walking the header's own branch.
-/

namespace DomProtocol

open Lib

/-- The state of the chain: the store and the cached tip. -/
structure ChainState where
  store : DomStore
  tipHash : Hash256
  tipHeight : Nat
  tipDifficulty : U256
  genesisHash : Hash256
  asertAnchor : AsertAnchor
  networkMagic : UInt32
  coinbaseMaturity : Nat
  deriving DecidableEq

def coinbaseMaturityForMagic (magic : UInt32) : Nat :=
  if magic = networkMagicRegtest then regtestCoinbaseMaturity else coinbaseMaturity

/-- More work wins; at equal work the lower identifier does. -/
def isBetterForkChoiceTip (candidateTotalDifficulty : U256) (candidateHash : Hash256)
    (currentTotalDifficulty : U256) (currentHash : Hash256) : Prop :=
  candidateTotalDifficulty > currentTotalDifficulty
    ∨ (candidateTotalDifficulty = currentTotalDifficulty ∧ candidateHash < currentHash)

instance (d : U256) (h : Hash256) (d' : U256) (h' : Hash256) :
    Decidable (isBetterForkChoiceTip d h d' h') :=
  inferInstanceAs (Decidable (_ ∨ _))

/-- Expand the compact target of a header. -/
def toTarget (bits : UInt32) : Except DomError (BitVec 256) :=
  (compactToTarget bits).mapError fun e => DomError.invalid s!"invalid target: {e}"

namespace ChainState

/-! ## Targets and difficulty -/

/-- Expected-target metadata of a child block. -/
structure ExpectedTarget where
  previousTarget : BitVec 256
  nextTarget : BitVec 256
  heightDelta : Nat
  actualElapsedSecs : Nat
  expectedElapsedSecs : Nat

/-- The target a child of `parent` must carry. -/
def expectedTargetForChild (networkMagic : UInt32) (parent : BlockHeader)
    (childTimestamp childHeight : Nat) : Except DomError ExpectedTarget := do
  let previousTarget ← toTarget parent.target
  let nextTarget ← computeExpectedTarget networkMagic childTimestamp childHeight
  let params ← powParamsForNetworkAtHeight networkMagic childHeight
  let anchor ← asertAnchorForNetworkHeight networkMagic childHeight
  rejectIf (childHeight < anchor.height) (.invalid "height before ASERT anchor")
  rejectIf (childTimestamp < anchor.timestamp) (.invalid "timestamp before ASERT anchor")
  let heightDelta := childHeight - anchor.height
  rejectIf (params.targetSpacing * heightDelta ≥ u64Bound)
    (.invalid "ASERT expected elapsed overflow")
  return { previousTarget, nextTarget, heightDelta
           actualElapsedSecs := childTimestamp - anchor.timestamp
           expectedElapsedSecs := params.targetSpacing * heightDelta }

/-- The target of a header is the one the schedule expects of it. -/
def validateExpectedTarget (networkMagic : UInt32) (header parent : BlockHeader) :
    Except DomError Unit := do
  let expected ← expectedTargetForChild networkMagic parent header.timestamp.toNat header.height.toNat
  let actualTarget ← toTarget header.target
  let expectedHex := expected.nextTarget.toHex
  let actualHex := actualTarget.toHex
  rejectIf (actualTarget ≠ expected.nextTarget)
    (DomError.invalid
      (s!"target mismatch at height {header.height}: expected={expectedHex} got={actualHex} "
        ++ s!"height_delta={expected.heightDelta} actual_elapsed={expected.actualElapsedSecs} "
        ++ s!"expected_elapsed={expected.expectedElapsedSecs}"))

/-- The total difficulty of a header is its parent's plus its own work. -/
def validateTotalDifficulty (networkMagic : UInt32) (header : BlockHeader) (parentDifficulty : U256) :
    Except DomError Unit := do
  let target ← toTarget header.target
  let blockDiff ← targetToDifficultyForNetworkHeight networkMagic header.height.toNat target
  let expectedTotal ← checkedAccumulatedDifficulty parentDifficulty blockDiff
  let expectedNat := expectedTotal.toNat
  let actualNat := header.totalDifficulty.toNat
  rejectIf (header.totalDifficulty ≠ expectedTotal)
    (.invalid s!"total_difficulty mismatch: expected {expectedNat}, got {actualNat}")

theorem validateTotalDifficulty_lt {networkMagic : UInt32} {header : BlockHeader} {parentDifficulty : U256}
    (h : validateTotalDifficulty networkMagic header parentDifficulty = .ok ()) :
    parentDifficulty < header.totalDifficulty := by
  simp only [validateTotalDifficulty, inversion, ne_eq, not_not] at h
  obtain ⟨target, -, work, hwork, total, htot, heq⟩ := h
  have hpos := targetToDifficultyForNetworkHeight_pos hwork
  unfold checkedAccumulatedDifficulty at htot
  by_cases hlt : parentDifficulty.toNat + work < 2 ^ 256
  · rw [if_pos hlt] at htot
    injection htot with htot
    rw [heq, ← htot, BitVec.lt_def, BitVec.toNat_ofNat, Nat.mod_eq_of_lt hlt]
    omega
  · rw [if_neg hlt] at htot
    cases htot

/-! ## Ancestor lookups -/

/-- Timestamps of up to `count` blocks, from `cursor` back along its own branch. -/
def recentTimestamps (store : DomStore) : Nat → Hash256 → List Nat
  | 0, _ => []
  | count + 1, cursor =>
    if cursor = Hash256.zero then []
    else
      match store.blocks[cursor]? with
      | none => []
      | some header => header.timestamp.toNat :: recentTimestamps store count header.prevHash

/-- The RandomX seed by the canonical height index. -/
def computeRandomxSeed (store : DomStore) (height : Nat) : Except DomError Hash256 :=
  let seedHeight := randomxSeedHeight height
  match store.heightIndex[seedHeight]? with
  | some hash => do
      let hex := hash.toHex
      let header ← okOr store.blocks[hash]?
        (.internal s!"RandomX seed height {seedHeight} points to missing header {hex}")
      rejectIf (header.height.toNat ≠ seedHeight)
        (DomError.internal
          s!"RandomX seed height index mismatch: key {seedHeight}, header {header.height}")
      return hash
  | none =>
    if seedHeight = 0 then .ok Hash256.zero
    else
      .error (.internal
        (s!"RandomX seed block at height {seedHeight} missing from committed store "
          ++ s!"(needed for block at height {height})"))

/-- One stop of the seed walk at `cursor`; `next` goes on from its parent. -/
def seedWalkAt (store : DomStore) (height seedHeight : Nat) (cursor : Hash256)
    (next : Hash256 → Except DomError Hash256) : Except DomError Hash256 := do
  let hex := cursor.toHex
  let header ← okOr store.blocks[cursor]?
    (.internal s!"randomx seed walk: missing header {hex}")
  let cursorHeight := header.height.toNat
  if store.heightIndex[cursorHeight]? = some cursor then computeRandomxSeed store height
  else if cursorHeight = seedHeight then return cursor
  else if cursorHeight < seedHeight then
    throw (DomError.internal
      s!"randomx seed walk underran seed_height {seedHeight} at height {cursorHeight}")
  else next header.prevHash

/-- Walk back from `cursor` until the branch joins the canonical chain or reaches the seed height, with a
    budget of further steps. -/
def seedWalk (store : DomStore) (height seedHeight : Nat) : Nat → Hash256 → Except DomError Hash256
  | 0, cursor =>
    seedWalkAt store height seedHeight cursor fun _ =>
      .error (.invalid
        (s!"randomx seed walk exceeded max reorg depth {maxReorgDepthPolicy} for block at "
          ++ s!"height {height}"))
  | budget + 1, cursor =>
    seedWalkAt store height seedHeight cursor (seedWalk store height seedHeight budget)

/-- The RandomX seed of a block at `height` on `parentHash`, on its own branch. -/
def computeRandomxSeedBranchAware (store : DomStore) (height : Nat) (parentHash : Hash256) :
    Except DomError Hash256 :=
  let seedHeight := randomxSeedHeight height
  if seedHeight = 0 then computeRandomxSeed store height
  else seedWalk store height seedHeight maxReorgDepthPolicy parentHash

/-! ## Header rules -/

/-- Genesis is fixed by configuration and by what is already indexed. -/
def validateGenesisIdentity (S : ChainState) (header : BlockHeader) (headerHash : Hash256) :
    Except DomError Unit :=
  if header.height.toNat ≠ 0 then .ok ()
  else do
    rejectIf (S.networkMagic = networkMagicMainnet)
      (DomError.invalid
        "Mainnet genesis is accepted only through the canonical identity-envelope bootstrap path")
    let expectedHex := S.genesisHash.toHex
    let gotHex := headerHash.toHex
    rejectIf (S.genesisHash ≠ Hash256.zero ∧ headerHash ≠ S.genesisHash)
      (.invalid s!"genesis hash mismatch: expected {expectedHex}, got {gotHex}")
    match S.store.heightIndex[0]? with
    | none => return ()
    | some existing =>
      let existingHex := existing.toHex
      rejectIf (existing ≠ headerHash)
        (DomError.invalid
          s!"alternate genesis block rejected: canonical genesis already exists as {existingHex}")

def maxFutureBlockTime (S : ChainState) : Nat :=
  if S.networkMagic = networkMagicTestnet then testnetMaxFutureBlockTime
  else DomProtocol.maxFutureBlockTime

/-- The stored parent of a header above genesis, with the rules that relate the two. -/
def validateParentLink (store : DomStore) (header : BlockHeader) : Except DomError BlockHeader := do
  let parentHex := header.prevHash.toHex
  let parent ← okOr store.blocks[header.prevHash]? (.orphan s!"parent {parentHex} not found")
  let expectedHeight ← okOr (checkedNext parent.height) (.invalid "block height overflow")
  rejectIf (header.height.toNat ≠ expectedHeight)
    (.invalid s!"height mismatch: expected {expectedHeight}, got {header.height}")
  validateParentTimestampProgression header parent
  validateMedianTimePast header (recentTimestamps store medianTimeWindow header.prevHash)
  return parent

variable (X : Externals)

/-- The rules that place a header on its branch: parent, time, proof of work, target and difficulty. -/
def validateHeaderContext (S : ChainState) (header : BlockHeader) (now : UInt64) :
    Except DomError Unit := do
  let parent ←
    (if header.height.toNat ≠ 0 then some <$> validateParentLink S.store header else .ok none)
  validateFutureTimestampWithLimit header now.toNat S.maxFutureBlockTime
  let seed ← computeRandomxSeedBranchAware S.store header.height.toNat header.prevHash
  validatePowForNetwork X S.networkMagic header seed
  (match parent with
    | some parentHeader => validateExpectedTarget S.networkMagic header parentHeader
    | none => .ok ())
  validateTotalDifficulty S.networkMagic header ((parent.map (·.totalDifficulty)).getD 0)

/-- The rules a header satisfies by itself and by the configured genesis. -/
def validateHeaderIdentity (S : ChainState) (header : BlockHeader) (hash : Hash256) :
    Except DomError Unit := do
  validateHeaderSyntax header S.networkMagic
  S.validateGenesisIdentity header hash

/-- Every header-level check `connect_block` makes on an unknown block. -/
def headerChecks (S : ChainState) (header : BlockHeader) (hash : Hash256) (now : UInt64) :
    Except DomError Unit := do
  S.validateHeaderIdentity header hash
  S.validateHeaderContext X header now

end ChainState

end DomProtocol
