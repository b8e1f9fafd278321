import DomProtocol.Chain.Connect

/-!
# `Chain.Open` — opening a store, rebuilding its indices and creating genesis

Opening replays the canonical bodies from genesis and compares the result with the persisted UTXO set.  A fresh
chain is an empty store that was opened, before or after its genesis was created.
-/

namespace DomProtocol

open Lib

def chainCorruptSentinel : String := "CHAIN_CORRUPT"

def chainCorrupt (detail : String) : DomError := .internal s!"{chainCorruptSentinel}: {detail}"

variable (X : Externals)

/-! ## Replaying canonical bodies -/

/-- The texts in which the two rebuilds differ. -/
structure RebuildLabels where
  stage : String
  decodeStage : String

def utxoRebuild : RebuildLabels := ⟨" during UTXO rebuild", "UTXO rebuild"⟩
def kernelRebuild : RebuildLabels := ⟨"", "kernel-index rebuild"⟩

/-- The canonical block at a height with its hash; `none` for the mainnet genesis envelope. -/
def canonicalBlockAt (labels : RebuildLabels) (store : DomStore) (networkMagic : UInt32) (height : Nat) :
    Except DomError (Option (Hash256 × Block)) := do
  let hash ← okOr store.heightIndex[height]?
    (chainCorrupt s!"missing canonical height_index entry at height {height}{labels.stage}")
  let hex := hash.toHex
  let body ← okOr store.blockBodies[hash]?
    (chainCorrupt s!"canonical block {hex} has no body{labels.stage}")
  if height = 0 ∧ networkMagic = networkMagicMainnet ∧ body.isMainnetGenesisIdentity then return none
  else
    let block ← body.decodeBlock.mapError fun e =>
      chainCorrupt s!"canonical block {hex} body decode failed during {labels.decodeStage}: {e}"
    let computed ← computeBlockIdentifier X networkMagic block.header
    let computedHex := computed.toHex
    rejectIf (computed ≠ hash)
      (chainCorrupt
        (s!"canonical block body/header hash mismatch at height {height}{labels.stage}: "
          ++ s!"height_index={hex} body_header={computedHex}"))
    return some (hash, block)

/-- Spend the inputs of a transaction and add its outputs. -/
def replayTransaction (height : Nat) (blockHeight : UInt64) (utxos : Table Commitment UtxoEntry)
    (tx : Transaction) : Except DomError (Table Commitment UtxoEntry) := do
  let spent ← delAllExisting utxos (fun c =>
    let hex := c.toHex
    chainCorrupt
      s!"canonical spend references missing UTXO {hex} at height {height} during UTXO rebuild") tx.inputs
  putAllNew spent (fun c _ =>
    let hex := c.toHex
    chainCorrupt s!"duplicate output UTXO commitment {hex} at height {height} during UTXO rebuild")
    (tx.outputs.map fun o => (o.commitment, ⟨blockHeight, false, o.proof⟩))

/-- Replay a canonical block: its coinbase output, then its transactions in order. -/
def replayBlock (height : Nat) (utxos : Table Commitment UtxoEntry) (block : Block) :
    Except DomError (Table Commitment UtxoEntry) := do
  let output := block.coinbase.output
  let hex := output.commitment.toHex
  let utxos ← putNew utxos output.commitment ⟨block.header.height, true, output.proof⟩
    (chainCorrupt
      s!"duplicate coinbase UTXO commitment {hex} at height {height} during UTXO rebuild")
  block.transactions.foldlM (replayTransaction height block.header.height) utxos

variable (store : DomStore) (tipHeight : Nat) (genesisHash : Hash256) (networkMagic : UInt32) (allowUtxoRepair : Bool)

/-- The UTXO set of the canonical chain, from its bodies. -/
def reconstructCanonicalUtxoSet : Except DomError (Table Commitment UtxoEntry) :=
  (List.range (tipHeight + 1)).foldlM (fun utxos height => do
    match ← canonicalBlockAt X utxoRebuild store networkMagic height with
    | none => return utxos
    | some (_, block) => replayBlock height utxos block) ∅

/-- The digest of a UTXO set, in commitment order. -/
def digestUtxoEntries (utxos : Table Commitment UtxoEntry) : Hash256 :=
  X.blake2b256 (strBytes "DOM_CANONICAL_UTXO_SET_V1" ++ utxos.toList.flatMap fun (c, e) =>
    commitmentBytes c ++ leBytes 4 e.toBytes.length ++ e.toBytes)

/-- Check the persisted UTXO set against the canonical one, or replace it on request. -/
def ensureCanonicalUtxoSet : Except DomError DomStore := do
  let canonical ← reconstructCanonicalUtxoSet X store tipHeight networkMagic
  let digest := digestUtxoEntries X canonical
  if store.utxos = canonical then
    return if store.utxoSetDigest ≠ some digest then store.persistUtxoSetDigest digest else store
  else if allowUtxoRepair = false then
    let persistedEntries := store.utxos.size
    let canonicalEntries := canonical.size
    throw (chainCorrupt
      (s!"persisted UTXO set diverges from the canonical set reconstructed from block history "
        ++ s!"(persisted_entries={persistedEntries}, canonical_entries={canonicalEntries}). "
        ++ s!"This indicates disk corruption or tampering of the UTXO database. The node refuses "
        ++ s!"to open on a divergent UTXO set rather than silently healing it. To rebuild the UTXO "
        ++ s!"set from canonical block history, restart in the explicit operator UTXO-repair mode "
        ++ s!"(ChainState::open_with_utxo_repair)."))
  else return store.replaceUtxoSet canonical digest

/-- Make sure every canonical kernel is indexed to its block. -/
def rebuildKernelIndexFromCanonicalChain : Except DomError DomStore :=
  (List.range (tipHeight + 1)).foldlM (fun store height => do
    match ← canonicalBlockAt X kernelRebuild store networkMagic height with
    | none => return store
    | some (hash, block) => store.ensureKernelIndices (block.extractKernelExcesses hash)) store

def validatePersistedGenesisIdentity (configuredGenesisHash : Hash256) : Except DomError Unit :=
  match store.heightIndex[0]? with
  | none => .ok ()
  | some stored =>
    let expectedHex := configuredGenesisHash.toHex
    let storedHex := stored.toHex
    rejectIf (configuredGenesisHash ≠ Hash256.zero ∧ stored ≠ configuredGenesisHash)
      (.invalid s!"stored genesis hash mismatch: expected {expectedHex}, got {storedHex}")

namespace ChainState

/-! ## Opening -/

/-- Check a persisted tip: header, body and height index must agree. -/
def validatePersistedTip (hash : Hash256) : Except DomError BlockHeader := do
  let hex := hash.toHex
  let header ← okOr store.blocks[hash]? (chainCorrupt s!"chain_tip {hex} points at missing header")
  rejectIf (store.blockBodies[hash]? = none) (chainCorrupt s!"tip {hex} has header but no body")
  let indexed ← okOr store.heightIndex[header.height.toNat]?
    (chainCorrupt s!"tip {hex} has no height_index entry at height {header.height}")
  let indexedHex := indexed.toHex
  rejectIf (indexed ≠ hash)
    (chainCorrupt s!"height_index[{header.height}] = {indexedHex} but tip = {hex}")
  return header

/-- Open a store; `allowUtxoRepair` selects the operator recovery mode. -/
def openInner : Except DomError ChainState := do
  let asertAnchor ← (genesisAnchor networkMagic).mapError fun e =>
    DomError.internal s!"genesis anchor: {e}"
  let (store, tipHash, tipHeight, tipDifficulty) ←
    (match store.chainTip with
      | some hash => do
          let header ← validatePersistedTip store hash
          let store ← rebuildKernelIndexFromCanonicalChain X store header.height.toNat networkMagic
          let store ← ensureCanonicalUtxoSet X store header.height.toNat networkMagic allowUtxoRepair
          let store ← pruneRetainedSideChains store header.height.toNat hash
          return (store, hash, header.height.toNat, header.totalDifficulty)
      | none => do
          let store ← pruneRetainedSideChains store 0 Hash256.zero
          return (store, Hash256.zero, 0, 0))
  validatePersistedGenesisIdentity store genesisHash
  return { store, tipHash, tipHeight, tipDifficulty, genesisHash, asertAnchor, networkMagic
           coinbaseMaturity := coinbaseMaturityForMagic networkMagic }

def openStore : Except DomError ChainState := openInner X store genesisHash networkMagic false

def openWithUtxoRepair : Except DomError ChainState := openInner X store genesisHash networkMagic true

/-! ## Genesis -/

/-- The records the genesis block persists. -/
def genesisCanonicalChangeset (body : BlockBody) (hash : Hash256) :
    List (Commitment × UtxoEntry) × List Commitment × List (Commitment × Hash256) :=
  match body with
  | .block block => (block.utxoEntries, block.inputs, block.extractKernelExcesses hash)
  | .identityEnvelope => ([], [], [])

/-- Build and commit the canonical genesis of the network. -/
def createGenesisBlock (S : ChainState) : Except DomError ChainState := do
  let configured ← configuredGenesisHashForNetworkMagic S.networkMagic
  let canonical ← buildCanonicalGenesis X S.networkMagic (deriveChainId X S.networkMagic configured)
  let configuredHex := configured.toHex
  let hex := canonical.hash.toHex
  rejectIf (canonical.hash ≠ configured)
    (DomError.invalid
      s!"canonical genesis identifier mismatch: configured {configuredHex}, constructed {hex}")
  let (newUtxos, spentUtxos, kernelExcesses) := genesisCanonicalChangeset canonical.body canonical.hash
  let store ← S.store.commitBlock canonical.hash 0 canonical.header canonical.body
    newUtxos spentUtxos kernelExcesses
  return { S with
    store
    tipHash := canonical.hash
    tipHeight := 0
    tipDifficulty := canonical.header.totalDifficulty }

/-- A freshly created chain: an empty store that was opened, with or without its genesis. -/
inductive Fresh : ChainState → Prop where
  | opened {S : ChainState} {genesisHash : Hash256} {networkMagic : UInt32}
      (h : openStore X DomStore.empty genesisHash networkMagic = .ok S) : Fresh S
  | created {S S' : ChainState} {genesisHash : Hash256} {networkMagic : UInt32}
      (h : openStore X DomStore.empty genesisHash networkMagic = .ok S)
      (hgenesis : S.createGenesisBlock X = .ok S') : Fresh S'

end ChainState

end DomProtocol
