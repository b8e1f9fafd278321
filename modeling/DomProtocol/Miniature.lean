import Mathlib.Algebra.Group.Prod
import Mathlib.Algebra.Ring.Int.Defs
import DomProtocol.Chain.Run

/-!
# `Miniature` — small stand-ins for the linked libraries

An instance of `Externals` on which whole blocks can be built and checked by evaluation.  A point is a pair of
integers, the coefficients of the value generator and of the base generator, so a commitment shows its value and
its blinding factor.  The hash of a header is its nonce plus one: never zero, and chosen by whoever mines it.
-/

namespace DomProtocol

open Lib

namespace Miniature

/-! ## Points -/

/-- The compressed encoding of a pair of coefficients. -/
def encodePoint (p : ℤ × ℤ) : Commitment :=
  BitVec.ofNat 264 (2 * 2 ^ 256 + (p.1 + 2 ^ 120).toNat * 2 ^ 128 + (p.2 + 2 ^ 120).toNat)

/-- The coefficients an encoding stands for. -/
def decodePoint (c : Commitment) : ℤ × ℤ :=
  (((c.toNat / 2 ^ 128 % 2 ^ 128 : Nat) : ℤ) - 2 ^ 120, ((c.toNat % 2 ^ 128 : Nat) : ℤ) - 2 ^ 120)

theorem decodePoint_encodePoint {p : ℤ × ℤ} (h₁ : -2 ^ 120 ≤ p.1 ∧ p.1 < 2 ^ 120)
    (h₂ : -2 ^ 120 ≤ p.2 ∧ p.2 < 2 ^ 120) : decodePoint (encodePoint p) = p := by
  obtain ⟨v, r⟩ := p
  have hv : ((v + 2 ^ 120).toNat : ℤ) = v + 2 ^ 120 := Int.toNat_of_nonneg (by omega)
  have hr : ((r + 2 ^ 120).toNat : ℤ) = r + 2 ^ 120 := Int.toNat_of_nonneg (by omega)
  have hv' : (v + 2 ^ 120).toNat < 2 ^ 121 := by omega
  have hr' : (r + 2 ^ 120).toNat < 2 ^ 121 := by omega
  have hnat : (encodePoint (v, r)).toNat =
      2 * 2 ^ 256 + (v + 2 ^ 120).toNat * 2 ^ 128 + (r + 2 ^ 120).toNat := by
    rw [encodePoint, BitVec.toNat_ofNat, Nat.mod_eq_of_lt]
    omega
  have hhigh : (encodePoint (v, r)).toNat / 2 ^ 128 % 2 ^ 128 = (v + 2 ^ 120).toNat := by
    rw [hnat]
    omega
  have hlow : (encodePoint (v, r)).toNat % 2 ^ 128 = (r + 2 ^ 120).toNat := by
    rw [hnat]
    omega
  rw [decodePoint, hhigh, hlow, hv, hr]
  simp

/-! ## The libraries -/

def libraries : Externals where
  blake2b256 bytes := BitVec.ofNat 256 (ofLeBytes ((bytes.drop 216).take 8) + 1)
  randomxHash _ _ := .ok 0
  hmacSha256 _ _ := 1
  fastMiningRequested := false
  Point := ℤ × ℤ
  generator := (0, 1)
  hPoint := (1, 0)
  encodedPointValid _ := true
  affineFromEncoded c := some (decodePoint c)
  compressPoint := encodePoint
  parsePublicKey c := if (decodePoint c).1 = 0 then .ok () else .error "not a multiple of the generator"
  verifyRaw c _ _ _ := .ok (decide (0 ≤ (decodePoint c).1 ∧ (decodePoint c).1 < 2 ^ 52))
  backendCommit value blinding := .ok (encodePoint (value, blinding.toNat))
  proveRaw _ _ _ := .ok (List.replicate rangeProofSize 0)
  proveRawWithNonces _ _ _ _ _ := .ok (List.replicate rangeProofSize 0)

theorem blake2b256_ne_zero (bytes : List UInt8) : libraries.blake2b256 bytes ≠ Hash256.zero := by
  have hlt : ofLeBytes ((bytes.drop 216).take 8) + 1 < 2 ^ 256 := by
    have hbyt := ofLeBytes_lt ((bytes.drop 216).take 8)
    have hlen : 256 ^ ((bytes.drop 216).take 8).length ≤ 256 ^ 8 :=
      Nat.pow_le_pow_right (by decide) (List.length_take_le 8 _)
    omega
  intro h
  have hnat := congrArg BitVec.toNat h
  simp only [libraries, Hash256.zero, BitVec.toNat_ofNat, Nat.mod_eq_of_lt hlt] at hnat
  omega

/-! ## Blocks -/

/-- A signature for the excess `r * G`: the challenge of the miniature is one. -/
def signatureFor (r : ℤ) : SignatureBytes :=
  SchnorrSignature.toBytes ⟨encodePoint (0, 2 ^ 100 - r), BitVec.ofNat 256 (2 ^ 100)⟩

def output (p : ℤ × ℤ) : TransactionOutput := ⟨encodePoint p, List.replicate rangeProofSize 0⟩

/-- A transaction without a fee that spends and creates the given openings. -/
def transfer (inputs outputs : List (ℤ × ℤ)) : Transaction :=
  let excess := (outputs.map (·.2)).sum - (inputs.map (·.2)).sum
  { inputs := inputs.map encodePoint
    outputs := outputs.map output
    kernels := [{ features := kernelFeatPlain
                  fee := ⟨0, by decide⟩
                  lockHeight := 0
                  excess := encodePoint ((outputs.map (·.1)).sum - (inputs.map (·.1)).sum, excess)
                  excessSignature := signatureFor excess }]
    offset := 0 }

/-- The coinbase of a block at a height, blinded by `r`. -/
def coinbase (height : Nat) (fees : Nat) (r : ℤ) : CoinbaseTransaction where
  output := output (blockReward height + fees, r)
  kernel := { features := kernelFeatCoinbase
              explicitValue := UInt64.ofNat (blockReward height + fees)
              excess := encodePoint (0, r)
              excessSignature := signatureFor r }
  offset := 0

/-- The regtest work of one block on top of an accumulated total. -/
def workOn (total : U256) (height : Nat) : U256 :=
  match (do
    let target ← compactToTarget regtestTargetCompact
    let work ← targetToDifficultyForNetworkHeight networkMagicRegtest height target
    checkedAccumulatedDifficulty total work : Except DomError U256) with
  | .ok total' => total'
  | .error _ => total

/-- A regtest block with a given nonce, timestamp and coinbase blinding on a parent. -/
def mine (seed : Hash256) (parent : Option Block) (nonce timestamp : Nat) (r : ℤ)
    (transactions : List Transaction) : Block :=
  let height := (parent.map (·.header.height.toNat + 1)).getD 0
  let coinbase := coinbase height 0 r
  let roots := match computeBlockPmmrRoots libraries height coinbase transactions with
    | .ok roots => roots
    | .error _ => (0, 0, 0)
  let unproved : BlockHeader :=
    { version := requiredBlockVersionForNetwork networkMagicRegtest height
      height := UInt64.ofNat height
      prevHash := (parent.map fun b => computeBlockHash libraries b.header).getD Hash256.zero
      timestamp := UInt64.ofNat timestamp
      outputRoot := roots.1
      kernelRoot := roots.2.1
      rangeproofRoot := roots.2.2
      totalKernelOffset := 0
      target := regtestTargetCompact
      totalDifficulty := workOn ((parent.map (·.header.totalDifficulty)).getD 0) height
      pow := { nonce := UInt64.ofNat nonce, randomxHash := 0 } }
  { header := { unproved with pow :=
      { nonce := UInt64.ofNat nonce
        randomxHash := fastPowHash libraries seed unproved.powPreimage } }
    coinbase
    transactions }

/-! ## A regtest chain -/

/-- An opened regtest node without blocks. -/
def opened : ChainState where
  store := DomStore.empty
  tipHash := Hash256.zero
  tipHeight := 0
  tipDifficulty := 0
  genesisHash := Hash256.zero
  asertAnchor := ⟨genesisTimestampRegtest, 0, 0xffff7f#256 <<< 216⟩
  networkMagic := networkMagicRegtest
  coinbaseMaturity := regtestCoinbaseMaturity

theorem openStore_empty :
    ChainState.openStore libraries DomStore.empty Hash256.zero networkMagicRegtest = .ok opened := by
  decide +kernel

theorem reachable_opened : Reachable libraries opened := .start (.opened openStore_empty)

def now : UInt64 := UInt64.ofNat (genesisTimestampRegtest + 1000)

/-- The genesis of the miniature, with hash 100. -/
def genesis : Block := mine Hash256.zero none 99 genesisTimestampRegtest 7 []

end Miniature

end DomProtocol
