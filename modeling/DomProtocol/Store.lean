import DomProtocol.Consensus.Block
import DomProtocol.Lib.Table

/-!
# `Store` — the persistent tables and their transactions

The databases of the store are tables whose records are kept decoded: header records by
`BlockHeader.wire_canonical`, UTXO records by `UtxoEntry.fromBytes_toBytes`.  Every mutation is one
transaction, so an operation either returns the new store or an error and no store at all.
-/

namespace DomProtocol

open Lib

/-! ## UTXO records -/

structure UtxoEntry where
  /-- The height of the block that created the output. -/
  blockHeight : UInt64
  isCoinbase : Bool
  proof : List UInt8
  deriving DecidableEq

namespace UtxoEntry

def toBytes (e : UtxoEntry) : List UInt8 :=
  writeU64 e.blockHeight ++ [if e.isCoinbase then 1 else 0] ++ e.proof

def fromBytes (bytes : List UInt8) : Except DomError UtxoEntry := do
  rejectIf (bytes.length < 9) (.malformed "utxo entry too short")
  let flag := bytes.getD 8 0
  rejectIf (flag ≠ 0 ∧ flag ≠ 1) (.malformed "utxo entry has invalid coinbase flag")
  return { blockHeight := UInt64.ofNat (ofLeBytes (bytes.take 8))
           isCoinbase := decide (flag = 1)
           proof := bytes.drop 9 }

theorem fromBytes_toBytes (e : UtxoEntry) : fromBytes e.toBytes = .ok e := by
  obtain ⟨height, coinbase, proof⟩ := e
  have hlen : (writeU64 height).length = 8 := length_leBytes 8 height.toNat
  have hht : UInt64.ofNat (ofLeBytes (writeU64 height)) = height := by
    rw [writeU64, ofLeBytes_leBytes (by simpa using height.toNat_lt)]
    simp
  have hread : ∀ flag : UInt8, flag = 0 ∨ flag = 1 →
      fromBytes (writeU64 height ++ [flag] ++ proof) = .ok ⟨height, decide (flag = 1), proof⟩ := by
    intro flag hflag
    have hshort : ¬ (writeU64 height ++ [flag] ++ proof).length < 9 := by
      simp only [List.length_append, hlen, List.length_singleton]
      omega
    have hget : (writeU64 height ++ [flag] ++ proof).getD 8 0 = flag := by
      rw [List.append_assoc, List.getD_append_right _ _ _ _ (by omega), hlen]
      rfl
    have htake : (writeU64 height ++ [flag] ++ proof).take 8 = writeU64 height := by
      rw [List.append_assoc, ← hlen, List.take_left]
    have hdrop : (writeU64 height ++ [flag] ++ proof).drop 9 = proof := by
      have h9 : (writeU64 height ++ [flag]).length = 9 := by simp [hlen]
      rw [← h9, List.drop_left]
    have hcanon : ¬ (flag ≠ 0 ∧ flag ≠ 1) := by tauto
    simp only [fromBytes, hget, htake, hdrop, hht, rejectIf, if_neg hshort, if_neg hcanon,
      ok_bind]
    rfl
  cases coinbase with
  | false => exact hread 0 (.inl rfl)
  | true => exact hread 1 (.inr rfl)

/-- Coinbase outputs wait for `maturity` blocks, other outputs do not wait. -/
def isMatureFor (e : UtxoEntry) (currentHeight maturity : Nat) : Bool :=
  ¬ e.isCoinbase ∨ currentHeight - e.blockHeight.toNat ≥ maturity

end UtxoEntry

/-! ## Bodies -/

/-- A record of the body database: a serialized block, or the mainnet genesis identity envelope, which is
    no encoding of a block. -/
inductive BlockBody where
  | block (b : Block)
  | identityEnvelope
  deriving DecidableEq

/-- Decode a stored body as a block.  The envelope puts inscription text where a block carries the length of
    its coinbase proof. -/
def BlockBody.decodeBlock : BlockBody → Except DomError Block
  | .block b => .ok b
  | .identityEnvelope => .error (.malformed "vec length 1919906931 exceeds limit 835")

/-- Whether a stored body parses as the mainnet genesis identity. -/
def BlockBody.isMainnetGenesisIdentity : BlockBody → Bool
  | .block _ => false
  | .identityEnvelope => true

/-! ## The store -/

@[ext]
structure DomStore where
  blocks : Table Hash256 BlockHeader
  blockBodies : Table Hash256 BlockBody
  heightIndex : Table Nat Hash256
  chainTip : Option Hash256
  utxos : Table Commitment UtxoEntry
  kernels : Table Commitment Hash256
  /-- The one metadata record of the chain code: the digest of the last verified UTXO set. -/
  utxoSetDigest : Option Hash256
  deriving DecidableEq

variable {header : BlockHeader} {body : BlockBody} {hash : Hash256}

namespace DomStore

def empty : DomStore where
  blocks := ∅
  blockBodies := ∅
  heightIndex := ∅
  chainTip := none
  utxos := ∅
  kernels := ∅
  utxoSetDigest := none

/-- Write a header and a body that must both be new. -/
def putBlockNew (s : DomStore) (hash : Hash256) (header : BlockHeader) (body : BlockBody) :
    Except DomError DomStore := do
  let hex := hash.toHex
  let blocks ← putNew s.blocks hash header
    (.internal s!"block header already exists — connect_block dedup bypassed? hash={hex}")
  let blockBodies ← putNew s.blockBodies hash body
    (.internal s!"block body already exists — connect_block dedup bypassed? hash={hex}")
  return { s with blocks, blockBodies }

def utxoExistsError (c : Commitment) : DomError :=
  let hex := c.toHex
  .internal s!"UTXO commitment already exists — consensus bug? commitment={hex}"

def spentMissingError (c : Commitment) : DomError :=
  let hex := c.toHex
  .internal s!"spent UTXO not found in canonical store — double-spend or missing input: commitment={hex}"

def kernelReplayError (excess : Commitment) (block : Hash256) : DomError :=
  let excessHex := excess.toHex
  let blockHex := block.toHex
  .internal (s!"KERNEL REPLAY DETECTED — excess already indexed (DOM-SEC critical): excess={excessHex}, "
    ++ s!"block={blockHex}")

def kernelMovedError (excess : Commitment) (existing new : Hash256) : DomError :=
  let excessHex := excess.toHex
  let existingHex := existing.toHex
  let newHex := new.toHex
  .internal (s!"KERNEL REPLAY DETECTED — excess already indexed to different block: excess={excessHex}, "
    ++ s!"existing={existingHex}, new={newHex}")

/-- Commit a validated block as the new tip, in one transaction. -/
def commitBlock (s : DomStore) (hash : Hash256) (height : Nat) (header : BlockHeader) (body : BlockBody)
    (newUtxos : List (Commitment × UtxoEntry)) (spentUtxos : List Commitment)
    (kernelExcesses : List (Commitment × Hash256)) : Except DomError DomStore := do
  let s ← s.putBlockNew hash header body
  let added ← putAllNew s.utxos (fun c _ => utxoExistsError c) newUtxos
  let utxos ← delAllExisting added spentMissingError spentUtxos
  let kernels ← putAllNew s.kernels kernelReplayError kernelExcesses
  return { s with
    heightIndex := s.heightIndex.insert height hash
    chainTip := some hash
    utxos
    kernels
    utxoSetDigest := none }

/-- Remember a side-chain block without touching canonical state. -/
def storeKnownBlock (s : DomStore) (hash : Hash256) (header : BlockHeader) (body : BlockBody) :
    Except DomError DomStore := s.putBlockNew hash header body

/-- Rewrite the canonical pointers and the touched state for a reorganization, in one transaction. -/
def applyReorg (s : DomStore) (newTipHash : Hash256) (heightUpdates : List (Nat × Option Hash256))
    (utxoUpdates : List (Commitment × Option UtxoEntry))
    (kernelUpdates : List (Commitment × Option Hash256)) : DomStore :=
  { s with
    heightIndex := applyUpdates s.heightIndex heightUpdates
    utxos := applyUpdates s.utxos utxoUpdates
    kernels := applyUpdates s.kernels kernelUpdates
    chainTip := some newTipHash
    utxoSetDigest := none }

/-- Delete headers and bodies of retained side-chain blocks. -/
def pruneKnownBlocks (s : DomStore) (pruneHashes : List Hash256) : DomStore :=
  { s with
    blocks := eraseAll s.blocks pruneHashes
    blockBodies := eraseAll s.blockBodies pruneHashes }

/-- Index the kernels of a canonical block, or check that they are indexed to it already. -/
def ensureKernelIndices (s : DomStore) (kernelExcesses : List (Commitment × Hash256)) :
    Except DomError DomStore := do
  let kernels ← kernelExcesses.foldlM (fun t (excess, hash) =>
    match t[excess]? with
    | none => .ok (t.insert excess hash)
    | some existing =>
      if existing = hash then .ok t else .error (kernelMovedError excess existing hash))
    s.kernels
  return { s with kernels }

/-- Record the digest of the verified UTXO set. -/
def persistUtxoSetDigest (s : DomStore) (digest : Hash256) : DomStore :=
  { s with utxoSetDigest := some digest }

/-- Replace the whole UTXO database together with its digest. -/
def replaceUtxoSet (s : DomStore) (utxos : Table Commitment UtxoEntry) (digest : Hash256) : DomStore :=
  { s with utxos, utxoSetDigest := some digest }

@[simp] theorem putBlockNew_eq_ok {s s' : DomStore} :
    s.putBlockNew hash header body = .ok s' ↔ s.blocks[hash]? = none ∧ s.blockBodies[hash]? = none ∧
      s' = { s with blocks := s.blocks.insert hash header,
                    blockBodies := s.blockBodies.insert hash body } := by
  simp only [putBlockNew, inversion, putNew_eq_ok]
  constructor
  · rintro ⟨_, ⟨hblk, rfl⟩, _, ⟨hbody, rfl⟩, rfl⟩
    exact ⟨hblk, hbody, rfl⟩
  · rintro ⟨hblk, hbody, rfl⟩
    exact ⟨_, ⟨hblk, rfl⟩, _, ⟨hbody, rfl⟩, rfl⟩

end DomStore

end DomProtocol
