import DomProtocol.Chain.Prune

/-!
# `Chain.Connect` — `connect_block` and `promote_heavier_known_tip`

Both operations return an outcome together with the state they leave behind, on failure too: a block may have
been stored or pruned before a later stage fails.  Each stage that only reads is a computation of its own.
-/

namespace DomProtocol

open Lib

/-! ## Results -/

/-- What one block contributes to a reorganization. -/
structure ReorgBlockDelta where
  blockHash : Hash256
  blockHeight : Nat
  transactions : List Transaction
  deriving DecidableEq

/-- What a reorganization did, for the wallet and the mempool. -/
structure ReorgDelta where
  commonAncestorHeight : Nat
  disconnectedBlocks : List ReorgBlockDelta
  connectedBlocks : List ReorgBlockDelta
  disconnectedTxs : List Transaction
  connectedTxs : List Transaction
  deriving DecidableEq

inductive ConnectResult where
  | BestChain
  | Reorg (delta : ReorgDelta)
  | SideChain
  | AlreadyHave
  deriving DecidableEq

def reorgBlockDelta (hb : Hash256 × Block) : ReorgBlockDelta :=
  ⟨hb.1, hb.2.header.height.toNat, hb.2.transactions⟩

def buildReorgDelta (ancestorHeight : Nat) (disconnectBlocks connectBlocks : List (Hash256 × Block)) : ReorgDelta where
  commonAncestorHeight := ancestorHeight
  disconnectedBlocks := disconnectBlocks.map reorgBlockDelta
  connectedBlocks := connectBlocks.map reorgBlockDelta
  disconnectedTxs := disconnectBlocks.flatMap (·.2.transactions)
  connectedTxs := connectBlocks.flatMap (·.2.transactions)

namespace ChainState

variable (X : Externals) (S : ChainState)

/-- The chain identifier kernel signatures are bound to. -/
def chainId : Hash256 := deriveChainId X S.networkMagic S.genesisHash

/-! ## Promotion -/

/-- What a promotion has decided before it changes anything. -/
structure ReorgPlan where
  newTipHeader : BlockHeader
  ancestorHeight : Nat
  /-- Canonical blocks above the ancestor, the tip first. -/
  disconnectBlocks : List (Hash256 × Block)
  /-- Branch blocks above the ancestor, lowest first. -/
  connectBlocks : List (Hash256 × Block)

def ancestorHeightOf (ancestor : Hash256) : Except DomError Nat :=
  if ancestor = S.tipHash then .ok S.tipHeight
  else do
    let hex := ancestor.toHex
    let header ← okOr S.store.blocks[ancestor]?
      (.internal s!"reorg ancestor header missing: {hex}")
    return header.height.toNat

/-- Context-free checks on a branch block, repeated at promotion time. -/
def validateReorgCandidate (now : UInt64) (hb : Hash256 × Block) : Except DomError Unit := do
  validateFutureTimestampWithLimit hb.2.header now.toNat S.maxFutureBlockTime
  let ctx : ValidationContext := ⟨hb.2.header.height.toNat, S.chainId X⟩
  let hex := hb.1.toHex
  (validateBlockForNetwork X hb.2 ctx S.networkMagic).mapError fun e =>
    DomError.invalid s!"reorg candidate block validation failed: hash={hex}, error={e}"

/-- Find the fork point, enforce the depth limits, load both branches and check the new one. -/
def planReorg (newTipHash : Hash256) (now : UInt64) : Except DomError ReorgPlan := do
  let newTipHex := newTipHash.toHex
  let newTipHeader ← okOr S.store.blocks[newTipHash]?
    (.internal s!"reorg target header missing: {newTipHex}")
  let ancestor ← okOr ((← findCommonAncestor S.store S.tipHash newTipHash).filter (· ≠ Hash256.zero))
    (.invalid "heavier side chain has no common ancestor")
  let ancestorHeight ← S.ancestorHeightOf ancestor
  validateBranchHeaderSyntax S.store ancestor S.networkMagic S.store.blocks.size newTipHash
  let newTotal := newTipHeader.totalDifficulty.toNat
  let currentTotal := S.tipDifficulty.toNat
  let currentHex := S.tipHash.toHex
  rejectIf (¬ isBetterForkChoiceTip newTipHeader.totalDifficulty newTipHash S.tipDifficulty S.tipHash)
    (DomError.policyRejected
      (s!"reorg target is not heavier or tie-preferred: new_total={newTotal} "
        ++ s!"current_total={currentTotal} new_hash={newTipHex} current_hash={currentHex}"))
  rejectIf (S.tipHeight < ancestorHeight) (.internal "reorg ancestor is above local tip")
  let reorgDepth := S.tipHeight - ancestorHeight
  checkRollingFinality S.tipHeight reorgDepth
  checkReorgDepth reorgDepth
  let disconnectBlocks ← collectBranchBlocks X S.store ancestor S.store.blockBodies.size S.tipHash
  let collected := disconnectBlocks.length
  rejectIf (collected ≠ reorgDepth)
    (.internal s!"reorg depth mismatch: height-derived={reorgDepth}, collected={collected}")
  let connectBlocks ← collectBranchBlocks X S.store ancestor S.store.blockBodies.size newTipHash
  forM connectBlocks.reverse (S.validateReorgCandidate X now)
  return { newTipHeader, ancestorHeight, disconnectBlocks, connectBlocks := connectBlocks.reverse }

/-- Run the plan on overlays: disconnect, then connect. -/
def reorgOverlays (plan : ReorgPlan) : Except DomError Overlays := do
  let index := plan.disconnectBlocks.foldl (fun t hb => recordBlockOutputs t hb.2) ∅
  let disconnected ← plan.disconnectBlocks.foldlM
    (applyDisconnect S.store plan.ancestorHeight index) ⟨∅, ∅⟩
  plan.connectBlocks.foldlM (applyConnect S.store S.coinbaseMaturity) disconnected

def reorgStore (newTipHash : Hash256) (plan : ReorgPlan) : Except DomError DomStore := do
  let overlays ← S.reorgOverlays plan
  let heightUpdates := buildHeightUpdates plan.ancestorHeight S.tipHeight plan.connectBlocks
  let utxoUpdates ← buildUtxoUpdates S.store overlays.utxo
  let kernelUpdates := buildKernelUpdates S.store overlays.kernel
  return S.store.applyReorg newTipHash heightUpdates utxoUpdates kernelUpdates

/-- Prune after a successful write; a failure leaves the written state in place. -/
def pruned {α : Type} (S : ChainState) (result : α) : Except DomError α × ChainState :=
  match pruneRetainedSideChains S.store S.tipHeight S.tipHash with
  | .error e => (.error e, S)
  | .ok store => (.ok result, { S with store })

/-- Make a stored heavier side tip canonical. -/
def promoteHeavierKnownTip (newTipHash : Hash256) (now : UInt64) : Except DomError ReorgDelta × ChainState :=
  let prepared : Except DomError (ReorgPlan × DomStore) := do
    let plan ← S.planReorg X newTipHash now
    return (plan, ← S.reorgStore newTipHash plan)
  match prepared with
  | .error e => (.error e, S)
  | .ok (plan, store) =>
    let S' : ChainState := { S with
      store
      tipHash := newTipHash
      tipHeight := plan.newTipHeader.height.toNat
      tipDifficulty := plan.newTipHeader.totalDifficulty }
    S'.pruned (buildReorgDelta plan.ancestorHeight plan.disconnectBlocks plan.connectBlocks)

/-! ## Connecting a block -/

variable (block : Block) (blockHash : Hash256) (now : UInt64)

/-- A configured production genesis must carry the frozen canonical body. -/
def validateGenesisBodyIdentity : Except DomError Unit :=
  if block.header.height.toNat ≠ 0 ∨ S.networkMagic = networkMagicMainnet then .ok ()
  else do
    let configured ← configuredGenesisHashForNetworkMagic S.networkMagic
    if S.genesisHash ≠ configured then return ()
    else
      let canonical ← buildCanonicalGenesis X S.networkMagic (deriveChainId X S.networkMagic configured)
      rejectIf (canonical.body ≠ .block block)
        (DomError.invalid
          "genesis body mismatch: configured network requires the exact frozen canonical body")

/-- Everything `connect_block` checks about an unknown block before looking at the ledger. -/
def validateIncomingBlock : Except DomError Unit := do
  S.validateHeaderIdentity block.header blockHash
  S.validateGenesisBodyIdentity X block
  S.validateHeaderContext X block.header now
  let ctx : ValidationContext := ⟨block.header.height.toNat, S.chainId X⟩
  let hex := blockHash.toHex
  (validateBlockForNetwork X block ctx S.networkMagic).mapError fun e =>
    DomError.invalid s!"block validation failed: hash={hex}, error={e}"

def validateDirectExtensionInputs : Except DomError Unit :=
  forM block.inputs fun c => do
    let hex := c.toHex
    let height := block.header.height
    let entry ← okOr S.store.utxos[c]?
      (.invalid s!"input commitment not found in UTXO set: {hex}")
    rejectIf (entry.isCoinbase ∧ ¬ entry.isMatureFor height.toNat S.coinbaseMaturity)
      (DomError.invalid
        (s!"immature coinbase spend at height {height} (created at {entry.blockHeight}, "
          ++ s!"maturity {S.coinbaseMaturity})"))

/-- The store after a direct extension of the tip. -/
def directExtensionStore : Except DomError DomStore := do
  let header := block.header
  let newTotal := header.totalDifficulty.toNat
  let currentTotal := S.tipDifficulty.toNat
  let newHex := blockHash.toHex
  let currentHex := S.tipHash.toHex
  rejectIf (¬ isBetterForkChoiceTip header.totalDifficulty blockHash S.tipDifficulty S.tipHash)
    (DomError.invalid
      (s!"direct extension did not improve fork choice: new_total={newTotal} "
        ++ s!"current_total={currentTotal} new_hash={newHex} current_hash={currentHex}"))
  let (newUtxos, spentUtxos) := buildUtxoChangeset block
  S.validateDirectExtensionInputs block
  forM block.outputCommitments fun c =>
    let hex := c.toHex
    rejectIf (S.store.utxos[c]? ≠ none)
      (.invalid s!"direct connect duplicate output commitment {hex}")
  forM block.excesses fun excess =>
    let hex := excess.toHex
    rejectIf (S.store.kernels[excess]? ≠ none)
      (.invalid s!"direct connect kernel replay detected: excess={hex}")
  S.store.commitBlock blockHash header.height.toNat header (.block block) newUtxos spentUtxos
    (block.extractKernelExcesses blockHash)

def connectDirect : Except DomError ConnectResult × ChainState :=
  match S.directExtensionStore block blockHash with
  | .error e => (.error e, S)
  | .ok store =>
    let S' : ChainState := { S with
      store
      tipHash := blockHash
      tipHeight := block.header.height.toNat
      tipDifficulty := block.header.totalDifficulty }
    S'.pruned .BestChain

/-- A block off the tip: quarantine it, prune, and promote it when it outranks the tip. -/
def connectSide : Except DomError ConnectResult × ChainState :=
  let extendsBestChain :=
    isBetterForkChoiceTip block.header.totalDifficulty blockHash S.tipDifficulty S.tipHash
  match S.store.storeKnownBlock blockHash block.header (.block block) with
  | .error e => (.error e, S)
  | .ok store =>
    match { S with store }.pruned () with
    | (.error e, S') => (.error e, S')
    | (.ok (), S') =>
      if extendsBestChain then
        match S'.promoteHeavierKnownTip X blockHash now with
        | (.error e, S'') => (.error e, S'')
        | (.ok delta, S'') => (.ok (.Reorg delta), S'')
      else (.ok .SideChain, S')

def connectBlock : Except DomError ConnectResult × ChainState :=
  match computeBlockIdentifier X S.networkMagic block.header with
  | .error e => (.error e, S)
  | .ok blockHash =>
    if S.store.blocks[blockHash]?.isSome then (.ok .AlreadyHave, S)
    else
      match S.validateIncomingBlock X block blockHash now with
      | .error e => (.error e, S)
      | .ok () =>
        if block.header.height.toNat = 0 ∨ block.header.prevHash = S.tipHash then
          S.connectDirect block blockHash
        else S.connectSide X block blockHash now

end ChainState

end DomProtocol
