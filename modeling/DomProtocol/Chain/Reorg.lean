import DomProtocol.Chain.State

/-!
# `Chain.Reorg` — fork points, branches and the overlays of a reorganization

A reorganization disconnects the canonical blocks above the common ancestor and connects a stored branch, on
overlays in front of the UTXO and kernel tables.  The loops of the source that follow `prev_hash` without a
bound carry a budget here; it is the number of stored blocks, so it runs out only on a cycle of links, where the
source does not terminate.
-/

namespace DomProtocol

open Lib

/-! ## Common ancestor and depth limits -/

def maxReorgDepth : Nat := 360

/-- The hashes on our side, from `cursor` back, `steps` of them at most; the zero hash marks the root. -/
def ourWalk (store : DomStore) : Nat → Hash256 → Except DomError (List Hash256)
  | 0, _ => .ok []
  | steps + 1, cursor =>
    if cursor = Hash256.zero then .ok [cursor]
    else do
      let hex := cursor.toHex
      let header ← okOr store.blocks[cursor]?
        (.internal s!"missing header during ancestor walk: {hex}")
      if header.prevHash = Hash256.zero then return [cursor, Hash256.zero]
      else return cursor :: (← ourWalk store steps header.prevHash)

/-- The first hash from `cursor` back that is on our side. -/
def theirWalk (store : DomStore) (ours : List Hash256) : Nat → Hash256 → Option Hash256
  | 0, _ => none
  | steps + 1, cursor =>
    if cursor ∈ ours then some cursor
    else if cursor = Hash256.zero then none
    else
      match store.blocks[cursor]? with
      | none => none
      | some header => theirWalk store ours steps header.prevHash

/-- The common ancestor of two tips, within the depth policy on both sides. -/
def findCommonAncestor (store : DomStore) (ourTip theirTip : Hash256) :
    Except DomError (Option Hash256) :=
  if ourTip = theirTip then .ok (some ourTip)
  else do
    let ours ← ourWalk store (maxReorgDepthPolicy + 1) ourTip
    return theirWalk store ours (maxReorgDepthPolicy + 1) theirTip

def checkReorgDepth (disconnectCount : Nat) : Except DomError Unit :=
  rejectIf (disconnectCount > maxReorgDepthPolicy)
    (DomError.policyRejected
      s!"reorg depth {disconnectCount} exceeds MAX_REORG_DEPTH_POLICY {maxReorgDepthPolicy}")

def checkRollingFinality (localTipHeight disconnectCount : Nat) : Except DomError Unit :=
  let limit := maxReorgDepth - 1
  rejectIf (localTipHeight ≥ maxReorgDepth ∧ disconnectCount ≥ maxReorgDepth)
    (DomError.policyRejected
      (s!"rolling finality rejects reorg depth {disconnectCount} at local height {localTipHeight} "
        ++ s!"(maximum accepted depth is {limit})"))

/-! ## Branches -/

/-- The outcome of following a cycle of links, which the source does for ever. -/
def linkCycle : DomError := .panicked "prev_hash cycle"

/-- Re-check the syntax of every header from `cursor` back to the ancestor. -/
def validateBranchHeaderSyntax (store : DomStore) (ancestor : Hash256) (networkMagic : UInt32) :
    Nat → Hash256 → Except DomError Unit
  | budget, cursor =>
    if cursor = ancestor then .ok ()
    else
      match budget with
      | 0 => .error linkCycle
      | budget + 1 => do
          let hex := cursor.toHex
          let header ← okOr store.blocks[cursor]?
            (.internal s!"reorg candidate header missing during validation: {hex}")
          (validateHeaderSyntax header networkMagic).mapError fun e =>
            DomError.invalid s!"reorg candidate header validation failed: hash={hex}, error={e}"
          validateBranchHeaderSyntax store ancestor networkMagic budget header.prevHash

variable (X : Externals)

/-- The blocks from `tip` back to the ancestor, the ancestor excluded, with their header hashes. -/
def collectBranchBlocks (store : DomStore) (ancestor : Hash256) :
    Nat → Hash256 → Except DomError (List (Hash256 × Block))
  | budget, tip =>
    if tip = ancestor then .ok []
    else
      match budget with
      | 0 => .error linkCycle
      | budget + 1 => do
          let hex := tip.toHex
          let body ← okOr store.blockBodies[tip]? (.internal s!"reorg block body missing: {hex}")
          let block ← body.decodeBlock.mapError fun e =>
            DomError.internal s!"reorg block body decode failed for {hex}: {e}"
          let rest ← collectBranchBlocks store ancestor budget block.header.prevHash
          return (computeBlockHash X block.header, block) :: rest

/-! ## What a block does to the ledger -/

namespace Block

/-- The UTXO records a block creates, the coinbase record first. -/
def utxoEntries (b : Block) : List (Commitment × UtxoEntry) :=
  (b.coinbase.output.commitment, ⟨b.header.height, true, b.coinbase.output.proof⟩)
    :: b.transactions.flatMap fun tx =>
      tx.outputs.map fun o => (o.commitment, ⟨b.header.height, false, o.proof⟩)

def extractKernelExcesses (b : Block) (blockHash : Hash256) : List (Commitment × Hash256) :=
  b.excesses.map fun excess => (excess, blockHash)

theorem map_fst_utxoEntries (b : Block) : b.utxoEntries.map Prod.fst = b.outputCommitments := by
  simp [utxoEntries, outputCommitments, outputs, List.map_flatMap, Function.comp_def]

end Block

/-- New records and spent commitments of a block. -/
def buildUtxoChangeset (block : Block) : List (Commitment × UtxoEntry) × List Commitment :=
  (block.utxoEntries, block.inputs)

/-! ## Overlays -/

/-- Pending UTXO and kernel values of a reorganization. -/
structure Overlays where
  utxo : Table Commitment (Option UtxoEntry)
  kernel : Table Commitment (Option Hash256)

/-- Remember the outputs of a disconnected block. -/
def recordBlockOutputs (out : Table Commitment UtxoEntry) (block : Block) : Table Commitment UtxoEntry :=
  block.utxoEntries.foldl (fun t (c, e) => t.insert c e) out

/-- The block the height index names, if its body is stored and carries transactions. -/
def canonicalBlockForOutput (store : DomStore) (commitment : Commitment) (height : Nat) :
    Except DomError (Option Block) :=
  match store.heightIndex[height]? with
  | none => .ok none
  | some hash =>
    match store.blockBodies[hash]? with
    | none => .ok none
    | some body =>
      if height = 0 ∧ body.isMainnetGenesisIdentity then .ok none
      else
        some <$> body.decodeBlock.mapError fun e =>
          let hex := hash.toHex
          let commitmentHex := commitment.toHex
          DomError.internal s!"decode canonical block {hex} while resurrecting {commitmentHex}: {e}"

/-- The newest canonical record of a commitment at or below a height. -/
def findCanonicalOutputEntry (store : DomStore) (commitment : Commitment) :
    Nat → Except DomError (Option UtxoEntry)
  | 0 => do
      let block ← canonicalBlockForOutput store commitment 0
      return block.bind fun b => b.utxoEntries.lookup commitment
  | height + 1 => do
      let block ← canonicalBlockForOutput store commitment (height + 1)
      match block.bind fun b => b.utxoEntries.lookup commitment with
      | some entry => return some entry
      | none => findCanonicalOutputEntry store commitment height

/-- The record a disconnected spend is given back. -/
def resurrect (store : DomStore) (ancestorHeight : Nat)
    (disconnectOutputIndex : Table Commitment UtxoEntry) (commitment : Commitment) :
    Except DomError UtxoEntry := do
  let hex := commitment.toHex
  -- the canonical lookup runs, and may fail, even where the index has the answer
  let canonical ← findCanonicalOutputEntry store commitment ancestorHeight
  okOr (disconnectOutputIndex[commitment]?.or canonical)
    (.internal s!"reorg disconnect could not resurrect spent output {hex}")

def applyDisconnect (store : DomStore) (ancestorHeight : Nat)
    (disconnectOutputIndex : Table Commitment UtxoEntry) (overlays : Overlays)
    (hashedBlock : Hash256 × Block) : Except DomError Overlays := do
  let (blockHash, block) := hashedBlock
  let cleared := block.outputCommitments.foldl (fun o c => o.insert c none) overlays.utxo
  let utxo ← block.inputs.foldlM (fun o c => do
    let entry ← resurrect store ancestorHeight disconnectOutputIndex c
    return o.insert c (some entry)) cleared
  let kernel := (block.extractKernelExcesses blockHash).foldl
    (fun o (excess, _) => o.insert excess none) overlays.kernel
  return { utxo, kernel }

def connectInput (store : DomStore) (height maturity : Nat) (o : Table Commitment (Option UtxoEntry))
    (c : Commitment) : Except DomError (Table Commitment (Option UtxoEntry)) := do
  let hex := c.toHex
  let entry ← okOr (view o store.utxos c)
    (.invalid s!"reorg connect missing input commitment {hex}")
  rejectIf (entry.isCoinbase ∧ ¬ entry.isMatureFor height maturity)
    (DomError.invalid
      (s!"reorg connect spends immature coinbase at height {height} (created at {entry.blockHeight}, "
        ++ s!"maturity {maturity})"))
  return o.insert c none

def connectOutput (store : DomStore) (o : Table Commitment (Option UtxoEntry))
    (ce : Commitment × UtxoEntry) : Except DomError (Table Commitment (Option UtxoEntry)) := do
  let hex := ce.1.toHex
  rejectIf (view o store.utxos ce.1 ≠ none)
    (.invalid s!"reorg connect duplicate output commitment {hex}")
  return o.insert ce.1 (some ce.2)

def connectKernel (store : DomStore) (o : Table Commitment (Option Hash256))
    (eh : Commitment × Hash256) : Except DomError (Table Commitment (Option Hash256)) := do
  let hex := eh.1.toHex
  rejectIf (view o store.kernels eh.1 ≠ none)
    (.invalid s!"reorg connect kernel replay detected: excess={hex}")
  return o.insert eh.1 (some eh.2)

def applyConnect (store : DomStore) (coinbaseMaturity : Nat) (overlays : Overlays)
    (hashedBlock : Hash256 × Block) : Except DomError Overlays := do
  let (blockHash, block) := hashedBlock
  let spent ← block.inputs.foldlM
    (connectInput store block.header.height.toNat coinbaseMaturity) overlays.utxo
  let utxo ← block.utxoEntries.foldlM (connectOutput store) spent
  let kernel ← (block.extractKernelExcesses blockHash).foldlM (connectKernel store) overlays.kernel
  return { utxo, kernel }

/-! ## Translating overlays into store updates -/

/-- The store write for one pending UTXO value.  A record may move to another height, but not change its proof
    or its coinbase flag. -/
def utxoUpdate (store : DomStore) (pending : Commitment × Option UtxoEntry) :
    Except DomError (Option (Commitment × Option UtxoEntry)) :=
  match store.utxos[pending.1]?, pending.2 with
  | some current, some desired =>
    if current.toBytes = desired.toBytes then .ok none
    else if current.proof = desired.proof ∧ current.isCoinbase = desired.isCoinbase then
      .ok (some pending)
    else
      let hex := pending.1.toHex
      .error (.internal
        (s!"reorg utxo mismatch for existing commitment {hex}: current_height={current.blockHeight} "
          ++ s!"desired_height={desired.blockHeight}"))
  | none, some _ => .ok (some pending)
  | some _, none => .ok (some pending)
  | none, none => .ok none

def buildUtxoUpdates (store : DomStore) (overlay : Table Commitment (Option UtxoEntry)) :
    Except DomError (List (Commitment × Option UtxoEntry)) := do
  return (← overlay.toList.mapM (utxoUpdate store)).filterMap id

def buildKernelUpdates (store : DomStore) (overlay : Table Commitment (Option Hash256)) :
    List (Commitment × Option Hash256) :=
  overlay.toList.filter fun pending => store.kernels[pending.1]? ≠ pending.2

/-- The final occupant of every touched height. -/
def buildHeightUpdates (ancestorHeight tipHeight : Nat) (connectBlocks : List (Hash256 × Block)) :
    List (Nat × Option Hash256) :=
  let cleared : Table Nat (Option Hash256) :=
    (List.range' (ancestorHeight + 1) (tipHeight - ancestorHeight)).foldl
      (fun t height => t.insert height none) ∅
  (connectBlocks.foldl
    (fun t hb => t.insert hb.2.header.height.toNat (some hb.1)) cleared).toList

end DomProtocol
