import Mathlib.Algebra.Ring.Nat
import Mathlib.Data.List.GetD
import DomProtocol.Lib.Outcome

/-!
# `Core.Types` — errors, primitive types and the consensus constants

The shared vocabulary of the node: the error taxonomy, 32-byte hashes, amounts in noms with their supply
ceiling, the block subsidy and the numeric parameters of consensus.  A byte array of fixed length is the
bit vector of its big-endian value, so the lexicographic order of the bytes is the order of the vectors.
-/

namespace DomProtocol

/-! ## Errors -/

/-- Structured peer-misbehavior reasons used for ban scoring. -/
inductive PeerMisbehavior where
  | AddressFlooding
  | HandshakeTimeout
  | HelloTimeout
  | WriteTimeout
  | MessageRateLimit
  | WrongChainId
  | UnexpectedHello
  | InvalidPow
  | InvalidSignature
  deriving DecidableEq, Repr

/-- The name of a misbehavior reason, as error messages print it. -/
def PeerMisbehavior.debugName : PeerMisbehavior → String
  | .AddressFlooding => "AddressFlooding"
  | .HandshakeTimeout => "HandshakeTimeout"
  | .HelloTimeout => "HelloTimeout"
  | .WriteTimeout => "WriteTimeout"
  | .MessageRateLimit => "MessageRateLimit"
  | .WrongChainId => "WrongChainId"
  | .UnexpectedHello => "UnexpectedHello"
  | .InvalidPow => "InvalidPow"
  | .InvalidSignature => "InvalidSignature"

/-- Top-level protocol error.  `panicked` is not a value of the source type: it stands for an abort of
    the thread (a failed `expect`), which no caller can catch. -/
inductive DomError where
  | malformed (message : String)
  | invalid (message : String)
  | temporarilyInvalid (message : String)
  | orphan (parent : String)
  | policyRejected (message : String)
  | peerMisbehavior (kind : PeerMisbehavior) (message : String)
  | internal (message : String)
  | panicked (message : String)
  deriving DecidableEq, Repr

instance : ToString DomError where
  toString
    | .malformed m => s!"Malformed: {m}"
    | .invalid m => s!"Invalid: {m}"
    | .temporarilyInvalid m => s!"TemporarilyInvalid: {m}"
    | .orphan m => s!"Orphan: unknown parent {m}"
    | .policyRejected m => s!"PolicyRejected: {m}"
    | .peerMisbehavior k m => s!"PeerMisbehavior({k.debugName}): {m}"
    | .internal m => s!"Internal: {m}"
    | .panicked m => m

/-! ## Primitive types -/

abbrev Hash256 := BitVec 256

instance : Std.TransOrd Hash256 := BitVec.instTransOrd

instance : Std.LawfulEqOrd Hash256 := BitVec.instLawfulEqOrd

instance : LawfulBEq Hash256 := instLawfulBEq

/-- The all-zero hash, the previous-hash sentinel of genesis. -/
def Hash256.zero : Hash256 := 0#256

/-- A 256-bit unsigned integer, as chain work is counted in. -/
abbrev U256 := BitVec 256

/-- Exclusive bound of the `u32` and `u64` ranges. -/
def u32Bound : Nat := 2 ^ 32

def u64Bound : Nat := 2 ^ 64

/-- Addition of two `u64` values that fails instead of wrapping. -/
def checkedAdd64 (a b : Nat) : Option Nat := if a + b < u64Bound then some (a + b) else none

@[simp] theorem checkedAdd64_eq_some {a b c : Nat} :
    checkedAdd64 a b = some c ↔ a + b < u64Bound ∧ a + b = c := by
  unfold checkedAdd64
  by_cases h : a + b < u64Bound <;> simp [h]

def checkedNext (height : UInt64) : Option Nat := checkedAdd64 height.toNat 1

/-! ## Monetary policy -/

def coinUnit : Nat := 100000000

/-- Blocks between two reductions of the subsidy. -/
def halvingInterval : Nat := 330000

def halvingEpochs : Nat := 55

def blockRewardTable : List Nat :=
  [3300000000, 2211000000, 1481370000, 992517900, 664986993, 445541285, 298512660, 200003482,
   134002332, 89781562, 60153646, 40302942, 27002971, 18091990, 12121633, 8121494, 5441400, 3645738,
   2442644, 1636571, 1096502, 734656, 492219, 329786, 220956, 148040, 99186, 66454, 44524, 29831, 19986,
   13390, 8971, 6010, 4026, 2697, 1806, 1210, 810, 542, 363, 243, 162, 108, 72, 48, 32, 21, 14, 9, 6, 4,
   2, 1, 0]

/-- Maximum issuance: the first epoch has one reward-bearing block less than the others. -/
def maximumSupplyFromSchedule : Nat :=
  (blockRewardTable.zipIdx.map fun (reward, epoch) =>
    reward * (if epoch = 0 then halvingInterval - 1 else halvingInterval)).sum

def maxSupplyNoms : Nat := maximumSupplyFromSchedule

/-- An amount in noms, never above the supply ceiling. -/
structure Amount where
  noms : Nat
  noms_le : noms ≤ maxSupplyNoms
  deriving DecidableEq, Repr

/-- Construct an amount, rejecting values above the supply ceiling. -/
def Amount.fromNoms (noms : Nat) : Except DomError Amount :=
  if h : noms ≤ maxSupplyNoms then .ok ⟨noms, h⟩
  else .error (.invalid s!"amount {noms} exceeds MAX_SUPPLY_NOMS")

def halvingEpoch (height : Nat) : Nat := height / halvingInterval

/-- The block subsidy at a height, in noms. -/
def blockReward (height : Nat) : Nat :=
  if halvingEpoch height ≥ halvingEpochs then 0
  else blockRewardTable.getD (halvingEpoch height) 0

theorem maxSupplyNoms_lt : maxSupplyNoms < u64Bound := by decide

/-! ## Limits, timing and policy -/

def coinbaseMaturity : Nat := 1000
def regtestCoinbaseMaturity : Nat := 1
def maxBlockWeight : Nat := 40000
def maxTxWeight : Nat := 4000
def maxInputsPerTx : Nat := 255
def maxOutputsPerTx : Nat := 255
def maxKernelsPerTx : Nat := 16
def maxBlockTxs : Nat := 5000
def recoveryCapsuleSize : Nat := 96
def maxOutputProofEnvelopeSize : Nat := 739 + recoveryCapsuleSize
def weightInput : Nat := 1
def weightOutput : Nat := 21
def weightKernel : Nat := 3
def weightCoinbaseKernel : Nat := 2
def kernelFeatPlain : UInt8 := 0x00
def kernelFeatCoinbase : UInt8 := 0x01
def kernelFeatHeightLocked : UInt8 := 0x02
def maxFutureBlockTime : Nat := 120
def testnetMaxFutureBlockTime : Nat := 30
def medianTimeWindow : Nat := 11
def minRelayFeeRate : Nat := 1000
def maxReorgDepthPolicy : Nat := 1000

/-! ## Network identity -/

def networkMagicMainnet : UInt32 := 0x444F4D31
def networkMagicTestnet : UInt32 := 0x444F4D54
def networkMagicRegtest : UInt32 := 0x444F4D52

def blockVersionLegacy : UInt32 := 2
def blockVersionV3 : UInt32 := 3
def mainnetV3ActivationHeight : Nat := 12500
def testnetV3ActivationHeight : Nat := 1
def regtestV3ActivationHeight : Nat := 1

/-- The block version a network requires at a height. -/
def requiredBlockVersionForNetwork (networkMagic : UInt32) (height : Nat) : UInt32 :=
  let activationHeight :=
    if networkMagic = networkMagicTestnet then testnetV3ActivationHeight
    else if networkMagic = networkMagicRegtest then regtestV3ActivationHeight
    else mainnetV3ActivationHeight
  if height ≥ activationHeight then blockVersionV3 else blockVersionLegacy

def genesisTargetCompact : UInt32 := 0x1e00ffff
def genesisTimestampTestnet : Nat := 1778642633
def genesisTimestampMainnet : Nat := 1784071429
def genesisTimestampRegtest : Nat := genesisTimestampMainnet
def genesisNonceMainnet : Nat := 7150
def genesisNonceRegtest : Nat := 0
def genesisMessage : String := "Not a store of value. A means of exchange."

def genesisPowDigestMainnet : Hash256 :=
  0x000003bda0b141656e3a086fbb2e018321ed2611c9d5a723bf9b85cce9baf3ab#256
def genesisPowDigestRegtest : Hash256 :=
  0x00000000000000000000000000000000965de1ca3cdb8226dd387ea2a875b64d#256
def genesisHashTestnet : Hash256 :=
  0x2ab5e6c73607e8bfbbec2d4ce3ea1419cda29ae6892e7f1c24facc465cd65821#256
def genesisHashMainnet : Hash256 :=
  0x182e10af28e7ec072f462e6044f580dc9dd8c866cb78dfc293bbfaee4e9325ce#256
def genesisHashRegtest : Hash256 :=
  0xfdda027e4a46dd366717c6e0a976bf3e0a7512c5edf08470b0dca99ddee3fe1f#256

/-- The configured genesis hash of a network. -/
def configuredGenesisHashForNetworkMagic (networkMagic : UInt32) : Except DomError Hash256 :=
  if networkMagic = networkMagicMainnet then .ok genesisHashMainnet
  else if networkMagic = networkMagicTestnet then .ok genesisHashTestnet
  else if networkMagic = networkMagicRegtest then .ok genesisHashRegtest
  else
    let other := networkMagic.toBitVec.toHex
    .error (.invalid s!"unknown network magic 0x{other} for genesis hash")

end DomProtocol
