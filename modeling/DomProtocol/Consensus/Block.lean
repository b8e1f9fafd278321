import DomProtocol.Consensus.Header
import DomProtocol.Consensus.Transaction
import DomProtocol.Pmmr

/-!
# `Consensus.Block` — full blocks and context-free block validation

`validateBlockForNetwork` is the whole of the block checks that need no chain state.  `BlockShape` collects
what the chain code relies on afterwards: distinct inputs, distinct outputs, and no input among the outputs.
-/

namespace DomProtocol

open Lib

structure Block where
  header : BlockHeader
  coinbase : CoinbaseTransaction
  transactions : List Transaction
  deriving DecidableEq

namespace Block

def inputs (b : Block) : List Commitment := b.transactions.flatMap (·.inputs)

/-- All outputs, the coinbase output first. -/
def outputs (b : Block) : List TransactionOutput :=
  b.coinbase.output :: b.transactions.flatMap (·.outputs)

/-- All kernel excesses, the coinbase excess first. -/
def excesses (b : Block) : List Commitment :=
  b.coinbase.kernel.excess :: b.transactions.flatMap fun tx => tx.kernels.map (·.excess)

/-- All output commitments, the coinbase commitment first. -/
def outputCommitments (b : Block) : List Commitment := b.outputs.map (·.commitment)

end Block

/-- Weight of a coinbase and a list of transactions. -/
def blockWeight (transactions : List Transaction) : Except DomError Nat :=
  transactions.foldlM (fun total tx => do
    let w ← tx.weight
    rejectIf (total + w ≥ u32Bound) (.invalid "block weight overflow")
    return total + w) (weightCoinbaseKernel + weightOutput)

/-- Checked sum of the fees of all transactions, with the error an overflow reports. -/
def sumFees (transactions : List Transaction) (overflow : String) : Except DomError Nat :=
  transactions.foldlM (fun total tx => do
    let fee ← tx.totalFee
    okOr (checkedAdd64 total fee) (.invalid overflow)) 0

def Block.totalFees (b : Block) : Except DomError Nat := sumFees b.transactions "block fee overflow"

variable (X : Externals)

/-- Validate every transaction and add up the fees. -/
def validateTransactionsAndFees (transactions : List Transaction) (ctx : ValidationContext) :
    Except DomError Nat :=
  transactions.zipIdx.foldlM (fun total (tx, i) => do
    validateTransaction X tx ctx
    let fee ← tx.totalFee.mapError fun e => DomError.invalid s!"tx {i} fee error: {e}"
    okOr (checkedAdd64 total fee) (.invalid "block total fees overflow")) 0

def validateBlockTransactions (transactions : List Transaction) (coinbase : CoinbaseTransaction)
    (ctx : ValidationContext) (blockHeight claimedTotalFees : Nat) : Except DomError Unit := do
  let totalBlockWeight ← blockWeight transactions
  let actualTotalFees ← validateTransactionsAndFees X transactions ctx
  rejectIf (totalBlockWeight > maxBlockWeight)
    (.invalid s!"block weight {totalBlockWeight} > MAX_BLOCK_WEIGHT {maxBlockWeight}")
  coinbase.validate X blockHeight actualTotalFees ctx.chainId
  rejectIf (claimedTotalFees ≠ actualTotalFees)
    (.invalid s!"claimed fees {claimedTotalFees} != actual fees {actualTotalFees}")

/-! ## Header roots -/

/-- The three accumulators over outputs, kernels and range proofs. -/
def computeUnboundBlockPmmrRoots (coinbase : CoinbaseTransaction) (transactions : List Transaction) :
    Except DomError (Hash256 × Hash256 × Hash256) := do
  let outputs := coinbase.output :: transactions.flatMap (·.outputs)
  let excesses := coinbase.kernel.excess :: transactions.flatMap fun tx => tx.kernels.map (·.excess)
  let outputMmr ← Pmmr.pushAll X Pmmr.new (outputs.map fun o => commitmentBytes o.commitment)
  let rangeproofMmr ← Pmmr.pushAll X Pmmr.new (outputs.map (·.proof))
  let kernelMmr ← Pmmr.pushAll X Pmmr.new (excesses.map commitmentBytes)
  return (← outputMmr.root X, ← kernelMmr.root X, ← rangeproofMmr.root X)

def canonicalBlockBodyBytes (coinbase : CoinbaseTransaction) (transactions : List Transaction) :
    Except DomError (List UInt8) := do
  return (← coinbase.serialize) ++ (← writeList Transaction.serialize transactions)

def computeBlockBodyCommitment (coinbase : CoinbaseTransaction) (transactions : List Transaction) :
    Except DomError Hash256 := do
  return blake2b256Tagged X "DOM:block-body-commitment:v1"
    (← canonicalBlockBodyBytes coinbase transactions)

/-- The header roots; above genesis the third one also binds the complete body. -/
def computeBlockPmmrRoots (blockHeight : Nat) (coinbase : CoinbaseTransaction)
    (transactions : List Transaction) : Except DomError (Hash256 × Hash256 × Hash256) := do
  let (outputRoot, kernelRoot, rangeproofRoot) ← computeUnboundBlockPmmrRoots X coinbase transactions
  if blockHeight = 0 then return (outputRoot, kernelRoot, rangeproofRoot)
  else
    let bodyCommitment ← computeBlockBodyCommitment X coinbase transactions
    let bound := blake2b256Tagged X "DOM:bound-rangeproof-root:v1"
      (hashBytes rangeproofRoot ++ hashBytes bodyCommitment)
    return (outputRoot, kernelRoot, bound)

def validatePmmrRoots (block : Block) : Except DomError Unit := do
  let (outputRoot, kernelRoot, rangeproofRoot) ←
    computeBlockPmmrRoots X block.header.height.toNat block.coinbase block.transactions
  let h := block.header
  rejectIf (outputRoot ≠ h.outputRoot)
    (DomError.invalid
      s!"output_root mismatch: header={h.outputRoot.toHex} computed={outputRoot.toHex}")
  rejectIf (kernelRoot ≠ h.kernelRoot)
    (DomError.invalid
      s!"kernel_root mismatch: header={h.kernelRoot.toHex} computed={kernelRoot.toHex}")
  rejectIf (rangeproofRoot ≠ h.rangeproofRoot)
    (DomError.invalid
      s!"rangeproof_root mismatch: header={h.rangeproofRoot.toHex} computed={rangeproofRoot.toHex}")

/-- The chain identifier of a network and genesis. -/
def deriveChainId (networkMagic : UInt32) (genesisHash : Hash256) : Hash256 :=
  blake2b256Tagged X "DOM:chain-id:v1" (beBytes 4 networkMagic.toNat ++ hashBytes genesisHash)

/-! ## Block validation -/

/-- Validate a complete block under the version schedule of a network. -/
def validateBlockForNetwork (block : Block) (ctx : ValidationContext) (networkMagic : UInt32) :
    Except DomError Unit := do
  validateHeaderSyntax block.header networkMagic
  let weight ← blockWeight block.transactions
  rejectIf (weight > maxBlockWeight)
    (.invalid s!"block weight {weight} > MAX_BLOCK_WEIGHT {maxBlockWeight}")
  rejectIf (block.transactions.length > maxBlockTxs)
    (.invalid s!"too many transactions: {block.transactions.length} > {maxBlockTxs}")
  rejectIf (¬ block.inputs.Nodup) (.invalid "duplicate input commitment across block")
  rejectIf (¬ block.outputCommitments.Nodup)
    (.invalid "duplicate output commitment across block")
  rejectIf (block.inputs.any fun c => c ∈ block.outputCommitments)
    (.invalid "block-level cut-through violation: input commitment matches a block output")
  let totalFees ← block.totalFees
  validateBlockTransactions X block.transactions block.coinbase ctx block.header.height.toNat totalFees
  let valid ← verifyBlockBalanceEquation X block.outputCommitments block.inputs block.excesses
    block.header.totalKernelOffset (blockReward block.header.height.toNat)
  rejectIf (valid = false) (.invalid "aggregate block balance equation does not hold")
  validatePmmrRoots X block

/-- What the commitments of a validated block satisfy. -/
structure BlockShape (b : Block) : Prop where
  inputs_nodup : b.inputs.Nodup
  outputs_nodup : b.outputCommitments.Nodup
  cut_through : ∀ c ∈ b.inputs, c ∉ b.outputCommitments

theorem validateBlockForNetwork_shape {b : Block} {ctx : ValidationContext} {networkMagic : UInt32}
    (h : validateBlockForNetwork X b ctx networkMagic = .ok ()) : BlockShape b := by
  simp only [validateBlockForNetwork, inversion, not_not, List.any_eq_true, decide_eq_true_eq, not_exists,
    not_and] at h
  obtain ⟨-, -, -, -, -, hin, hout, hcut, -⟩ := h
  exact ⟨hin, hout, hcut⟩

end DomProtocol
