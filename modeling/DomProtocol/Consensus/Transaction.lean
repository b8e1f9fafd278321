import DomProtocol.Crypto.Primitives

/-!
# `Consensus.Transaction` — transactions, coinbases and their validation

Inputs carry nothing but a commitment and are kept as one.  Sets of seen commitments are `List.Nodup`
checks over the same sequence the source inserts from.
-/

namespace DomProtocol

open Lib

/-! ## Types -/

/-- An output: a commitment and its proof envelope. -/
structure TransactionOutput where
  commitment : Commitment
  proof : List UInt8
  deriving DecidableEq

structure TransactionKernel where
  features : UInt8
  fee : Amount
  lockHeight : UInt64
  excess : Commitment
  excessSignature : SignatureBytes
  deriving DecidableEq

/-- Coinbase kernel, with the value it claims. -/
structure CoinbaseKernel where
  features : UInt8
  explicitValue : UInt64
  excess : Commitment
  excessSignature : SignatureBytes
  deriving DecidableEq

structure Transaction where
  inputs : List Commitment
  outputs : List TransactionOutput
  kernels : List TransactionKernel
  offset : BitVec 256
  deriving DecidableEq

structure CoinbaseTransaction where
  output : TransactionOutput
  kernel : CoinbaseKernel
  offset : BitVec 256
  deriving DecidableEq

/-! ## Encodings -/

def TransactionOutput.serialize (o : TransactionOutput) : Except DomError (List UInt8) := do
  return commitmentBytes o.commitment ++ (← writeVec o.proof)

def TransactionKernel.serialize (k : TransactionKernel) : List UInt8 :=
  [k.features] ++ leBytes 8 k.fee.noms ++ writeU64 k.lockHeight ++ commitmentBytes k.excess
    ++ writeArray (n := 65) k.excessSignature

def CoinbaseKernel.serialize (k : CoinbaseKernel) : List UInt8 :=
  [k.features] ++ writeU64 k.explicitValue ++ commitmentBytes k.excess
    ++ writeArray (n := 65) k.excessSignature

def Transaction.serialize (tx : Transaction) : Except DomError (List UInt8) := do
  let inputs ← writeList (fun c => pure (commitmentBytes c)) tx.inputs
  let outputs ← writeList TransactionOutput.serialize tx.outputs
  let kernels ← writeList (fun k => pure (TransactionKernel.serialize k)) tx.kernels
  return inputs ++ outputs ++ kernels ++ hashBytes tx.offset

def CoinbaseTransaction.serialize (cb : CoinbaseTransaction) : Except DomError (List UInt8) := do
  return (← cb.output.serialize) ++ cb.kernel.serialize ++ hashBytes cb.offset

/-! ## Weight and fees -/

/-- Collection counts within the policy limits. -/
structure TransactionShape where
  inputCount : Nat
  outputCount : Nat
  kernelCount : Nat

def TransactionShape.fromCounts (inputs outputs kernels : Nat) : Except DomError TransactionShape := do
  rejectIf (inputs > maxInputsPerTx)
    (.invalid s!"too many inputs for fee policy: {inputs} > {maxInputsPerTx}")
  rejectIf (outputs > maxOutputsPerTx)
    (.invalid s!"too many outputs for fee policy: {outputs} > {maxOutputsPerTx}")
  rejectIf (kernels > maxKernelsPerTx)
    (.invalid s!"too many kernels for fee policy: {kernels} > {maxKernelsPerTx}")
  return ⟨inputs, outputs, kernels⟩

/-- Weight of a shape; the bounded counts keep every product and sum far below `u32`. -/
def transactionWeight (shape : TransactionShape) : Nat :=
  shape.inputCount * weightInput + shape.outputCount * weightOutput + shape.kernelCount * weightKernel

namespace Transaction

def feeShape (tx : Transaction) : Except DomError TransactionShape :=
  TransactionShape.fromCounts tx.inputs.length tx.outputs.length tx.kernels.length

def weightChecked (tx : Transaction) : Except DomError Nat := do
  return transactionWeight (← tx.feeShape)

/-- Weight of a transaction whose counts are assumed bounded; the thread aborts otherwise. -/
def weight (tx : Transaction) : Except DomError Nat :=
  tx.weightChecked.mapError fun _ =>
    DomError.panicked "deserialized transaction count limits keep weight in u32"

def totalFee (tx : Transaction) : Except DomError Nat :=
  tx.kernels.foldlM (fun acc k =>
    okOr (checkedAdd64 acc k.fee.noms) (.invalid "fee sum overflow")) 0

end Transaction

/-! ## Structure -/

def hexByte (b : UInt8) : String := b.toBitVec.toHex

def validateKernelFeatures (features : UInt8) : Except DomError Unit :=
  let hex := hexByte features
  rejectIf (features ≠ kernelFeatPlain ∧ features ≠ kernelFeatCoinbase
      ∧ features ≠ kernelFeatHeightLocked)
    (.invalid s!"unknown kernel features 0x{hex}")

/-- Features and lock height of the `i`-th kernel of a transaction. -/
def validateKernelFields (k : TransactionKernel) (i : Nat) : Except DomError Unit := do
  validateKernelFeatures k.features
  rejectIf (k.features = kernelFeatCoinbase)
    (.invalid s!"kernel {i}: COINBASE feature in non-coinbase transaction")
  rejectIf (k.features = kernelFeatHeightLocked ∧ k.lockHeight = 0)
    (.invalid s!"kernel {i}: HEIGHT_LOCKED with lock_height == 0")
  rejectIf (k.features ≠ kernelFeatHeightLocked ∧ k.lockHeight ≠ 0)
    (DomError.invalid
      s!"kernel {i}: lock_height must be 0 for non-HEIGHT_LOCKED kernels (got {k.lockHeight})")

/-- Proof envelope size of the `i`-th output. -/
def validateProofEnvelope (o : TransactionOutput) (i : Nat) : Except DomError Unit := do
  rejectIf (o.proof = []) (.invalid s!"output {i} has empty range proof")
  rejectIf (o.proof.length > maxOutputProofEnvelopeSize)
    (.invalid s!"output {i} proof envelope too large")

def validateTransactionStructure (tx : Transaction) : Except DomError Unit := do
  rejectIf (tx.inputs.length > maxInputsPerTx)
    (.invalid s!"too many inputs: {tx.inputs.length}")
  rejectIf (tx.outputs.length > maxOutputsPerTx)
    (.invalid s!"too many outputs: {tx.outputs.length}")
  rejectIf (tx.kernels.length > maxKernelsPerTx)
    (.invalid s!"too many kernels: {tx.kernels.length}")
  rejectIf (tx.kernels = []) (.invalid "transaction must have at least one kernel")
  forM tx.outputs.zipIdx fun (o, i) => validateProofEnvelope o i
  forM tx.kernels.zipIdx fun (k, i) => validateKernelFields k i
  rejectIf (¬ tx.inputs.Nodup) (.invalid "duplicate input commitment")
  rejectIf (¬ (tx.outputs.map (·.commitment)).Nodup) (.invalid "duplicate output commitment")
  let _ ← tx.totalFee
  let w ← tx.weightChecked
  rejectIf (w > maxTxWeight) (.invalid s!"tx weight {w} > MAX_TX_WEIGHT {maxTxWeight}")

/-- Height-locked kernels wait for their height. -/
def validateLockHeights (tx : Transaction) (current : Nat) : Except DomError Unit :=
  forM tx.kernels fun k =>
    rejectIf (k.features = kernelFeatHeightLocked ∧ k.lockHeight.toNat > current)
      (.temporarilyInvalid s!"kernel locked until height {k.lockHeight}, current {current}")

/-! ## Range proofs -/

namespace TransactionOutput

def rangeProofBytes (o : TransactionOutput) : Except DomError (List UInt8) :=
  if o.proof.length = rangeProofSize then .ok o.proof
  else if o.proof.length = maxOutputProofEnvelopeSize then .ok (o.proof.take rangeProofSize)
  else .error (.invalid s!"noncanonical output proof envelope length {o.proof.length}")

/-- Public framing of a recovery capsule: length, version and ciphertext length. -/
def parseRecoveryCapsule (bytes : List UInt8) : Except DomError (List UInt8) := do
  let version := ofLeBytes (bytes.take 2)
  let ciphertextLen := ofLeBytes ((bytes.drop 14).take 2)
  rejectIf (bytes.length ≠ recoveryCapsuleSize)
    (.malformed s!"recovery capsule length {bytes.length} != {recoveryCapsuleSize}")
  rejectIf (version ≠ 1) (.malformed s!"unsupported recovery capsule version {version}")
  rejectIf (ciphertextLen ≠ 80)
    (.malformed s!"recovery ciphertext length {ciphertextLen} != 80")
  return bytes

/-- The optional recovery capsule after the proof. -/
def recoveryCapsule (o : TransactionOutput) : Except DomError (Option (List UInt8)) :=
  if o.proof.length = rangeProofSize then .ok none
  else if o.proof.length = maxOutputProofEnvelopeSize then
    some <$> parseRecoveryCapsule (o.proof.drop rangeProofSize)
  else .error (.invalid s!"noncanonical output proof envelope length {o.proof.length}")

end TransactionOutput

variable (X : Externals)

/-- Verify the proof of one output; `label` names the output in the error. -/
def validateOutputProof (o : TransactionOutput) (label : String) : Except DomError Unit := do
  let proofBytes ← o.rangeProofBytes
  let capsule ← o.recoveryCapsule
  let valid :=
    match capsule with
    | some c => bpVerifyWithExtraCommit X o.commitment proofBytes c
    | none => bpVerify X o.commitment proofBytes
  match valid with
  | .ok true => return ()
  | .ok false => throw (.invalid s!"{label} range proof verification failed")
  | .error e => throw (.invalid s!"{label} range proof error: {e}")

def validateRangeProofs (tx : Transaction) : Except DomError Unit :=
  forM tx.outputs.zipIdx fun (o, i) => validateOutputProof X o s!"output {i}"

/-! ## Kernel signatures -/

/-- The texts a signature check reports its failures with. -/
structure SignatureLabels where
  badSignature : String
  badExcess : String
  rejected : String
  internal : String

/-- Verify the signature of a kernel under its excess. -/
def validateExcessSignature (labels : SignatureLabels) (signature : SignatureBytes)
    (excess : Commitment) (chainId : Hash256) (message : Hash256) : Except DomError Unit := do
  let sig ← (SchnorrSignature.fromBytes X signature).mapError fun e =>
    DomError.invalid s!"{labels.badSignature}: {e}"
  let pk ← (publicKeyFromCompressedBytes X excess).mapError fun e =>
    DomError.invalid s!"{labels.badExcess}: {e}"
  match schnorrVerify X sig pk chainId (hashBytes message) with
  | .ok true => return ()
  | .ok false => throw (.peerMisbehavior .InvalidSignature labels.rejected)
  | .error (.internal msg) => throw (.internal s!"{labels.internal}: {msg}")
  | .error e => throw e

/-- The message a kernel signs; the chain identifier enters through the challenge. -/
def kernelMessage (k : TransactionKernel) : Hash256 :=
  blake2b256Tagged X "DOM:kernel-msg:v1"
    ([k.features] ++ leBytes 8 k.fee.noms ++ writeU64 k.lockHeight)

def validateKernelSignatures (tx : Transaction) (chainId : Hash256) : Except DomError Unit :=
  forM tx.kernels.zipIdx fun (k, i) =>
    validateExcessSignature X
      { badSignature := s!"kernel {i} bad signature"
        badExcess := s!"kernel {i} bad excess point"
        rejected := s!"kernel {i} Schnorr signature invalid"
        internal := "kernel sig" }
      k.excessSignature k.excess chainId (kernelMessage X k)

/-! ## Balance and the whole transaction -/

/-- Re-parse a commitment before summing it. -/
def parseCommitment (c : Commitment) : Except DomError Commitment :=
  (commitmentFromCompressedBytes X c).mapError fun e => DomError.invalid s!"commitment parse: {e}"

def validateBalanceEquation (tx : Transaction) : Except DomError Unit := do
  let outputs ← (tx.outputs.map (·.commitment)).mapM (parseCommitment X)
  let inputs ← tx.inputs.mapM (parseCommitment X)
  let excesses ← (tx.kernels.map (·.excess)).mapM (parseCommitment X)
  let totalFee ← tx.totalFee
  let valid ← verifyBalanceEquation X outputs inputs excesses tx.offset totalFee
  rejectIf (valid = false) (.invalid "transaction balance equation does not hold")

/-- What validation needs to know about its surroundings. -/
structure ValidationContext where
  currentHeight : Nat
  chainId : Hash256

def validateTransaction (tx : Transaction) (ctx : ValidationContext) : Except DomError Unit := do
  validateTransactionStructure tx
  validateLockHeights tx ctx.currentHeight
  validateRangeProofs X tx
  validateKernelSignatures X tx ctx.chainId
  let _ ← tx.totalFee
  let w ← tx.weight
  rejectIf (w > maxTxWeight) (.invalid s!"tx weight {w} > MAX_TX_WEIGHT {maxTxWeight}")
  validateBalanceEquation X tx

/-! ## Coinbase -/

/-- The claimed value is the block reward plus the fees, and provable. -/
def CoinbaseKernel.validateExplicitValue (k : CoinbaseKernel) (blockHeight totalTxFees : Nat) :
    Except DomError Unit := do
  let reward := blockReward blockHeight
  let explicit := k.explicitValue.toNat
  let expected ← okOr (checkedAdd64 reward totalTxFees) (.invalid "coinbase value overflow")
  rejectIf (expected > maxProvableValue)
    (DomError.invalid
      s!"coinbase expected value {expected} exceeds MAX_PROVABLE_VALUE {maxProvableValue}")
  rejectIf (explicit > maxProvableValue)
    (DomError.invalid
      s!"coinbase explicit_value {explicit} exceeds MAX_PROVABLE_VALUE {maxProvableValue}")
  rejectIf (explicit ≠ expected)
    (DomError.invalid
      s!"coinbase explicit_value {explicit}: expected {expected} (reward={reward} + fees={totalTxFees})")

def coinbaseKernelMessage (k : CoinbaseKernel) : Hash256 :=
  blake2b256Tagged X "DOM:kernel-msg:coinbase:v1" ([k.features] ++ writeU64 k.explicitValue)

def CoinbaseTransaction.validate (cb : CoinbaseTransaction) (height totalTxFees : Nat)
    (chainId : Hash256) : Except DomError Unit := do
  let hex := hexByte cb.kernel.features
  rejectIf (cb.kernel.features ≠ kernelFeatCoinbase)
    (.invalid s!"coinbase kernel features must be 0x01, got 0x{hex}")
  rejectIf (cb.offset ≠ 0) (.invalid "coinbase offset must be zero")
  cb.kernel.validateExplicitValue height totalTxFees
  rejectIf (cb.output.proof = []) (.invalid "coinbase output has empty range proof")
  validateOutputProof X cb.output "coinbase"
  validateExcessSignature X
    { badSignature := "coinbase signature malformed"
      badExcess := "coinbase excess invalid"
      rejected := "coinbase kernel signature invalid — miner does not prove ownership"
      internal := "coinbase sig" }
    cb.kernel.excessSignature cb.kernel.excess chainId (coinbaseKernelMessage X cb.kernel)

end DomProtocol
