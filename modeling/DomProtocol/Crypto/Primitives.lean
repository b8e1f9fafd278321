import Mathlib.Algebra.BigOperators.Group.List.Basic
import Mathlib.Algebra.Module.Defs
import DomProtocol.Core.Serialization

/-!
# `Crypto.Primitives` — hashing, Pedersen commitments and Schnorr signatures

`Externals` collects the third-party code the node links against (BLAKE2b, RandomX, the curve library,
the range-proof backend, HMAC) as parameters.  Everything the repository itself computes on top of them
is defined here: domain-separated hashing, the two balance equations and signature verification.
-/

namespace DomProtocol

open Lib

/-- A curve point in its 33-byte compressed encoding: output commitments and kernel excesses. -/
abbrev Commitment := BitVec 264

instance : Std.TransOrd Commitment := BitVec.instTransOrd

instance : Std.LawfulEqOrd Commitment := BitVec.instLawfulEqOrd

instance : LawfulBEq Commitment := instLawfulBEq

/-- The 65 bytes of a serialized Schnorr signature. -/
abbrev SignatureBytes := BitVec 520

def secp256k1N : Nat := 0xFFFFFFFFFFFFFFFFFFFFFFFFFFFFFFFEBAAEDCE6AF48A03BBFD25E8CD0364141

/-- The libraries the node calls, and the one environment variable consensus code reads. -/
structure Externals where
  /-- BLAKE2b with a 32-byte digest. -/
  blake2b256 : List UInt8 → Hash256
  /-- RandomX under a seed. -/
  randomxHash : Hash256 → List UInt8 → Except DomError Hash256
  /-- HMAC-SHA256 of a message under a key. -/
  hmacSha256 : List UInt8 → List UInt8 → Hash256
  /-- Whether `DOM_REGTEST_FAST_MINING` is set to `1` or `true`. -/
  fastMiningRequested : Bool
  /-- The group of curve points. -/
  Point : Type
  [pointGroup : AddCommGroup Point]
  [pointEq : DecidableEq Point]
  generator : Point
  /-- The value generator. -/
  hPoint : Point
  /-- Whether 33 bytes have a recognised SEC1 tag. -/
  encodedPointValid : BitVec 264 → Bool
  /-- The curve point a SEC1 encoding stands for. -/
  affineFromEncoded : BitVec 264 → Option Point
  /-- Compressed SEC1 encoding of a point other than the identity. -/
  compressPoint : Point → BitVec 264
  /-- Public-key parsing of the signature library, with its error text. -/
  parsePublicKey : BitVec 264 → Except String Unit
  /-- The range-proof verifier on a commitment and its complement. -/
  verifyRaw : BitVec 264 → BitVec 264 → List UInt8 → List UInt8 → Except DomError Bool
  /-- The Pedersen commitment of the range-proof backend, in compressed form. -/
  backendCommit : Nat → BitVec 256 → Except DomError (BitVec 264)
  /-- The range-proof prover for a value, a blinding factor and extra bytes. -/
  proveRaw : Nat → BitVec 256 → List UInt8 → Except DomError (List UInt8)
  /-- The same prover with its two nonces given. -/
  proveRawWithNonces : Nat → BitVec 256 → Hash256 → Hash256 → List UInt8 → Except DomError (List UInt8)

attribute [instance] Externals.pointGroup Externals.pointEq

def hashBytes (h : Hash256) : List UInt8 := writeArray (n := 32) h

theorem ofBeBytes_hashBytes (h : Hash256) : ofBeBytes (hashBytes h) = h.toNat := ofBeBytes_beBytes h.isLt

def commitmentBytes (c : Commitment) : List UInt8 := writeArray (n := 33) c

def strBytes (s : String) : List UInt8 := s.toUTF8.toList

variable (X : Externals)

/-- Domain-separated hash: the length of the tag, the tag, the data. -/
def blake2b256Tagged (tag : String) (data : List UInt8) : Hash256 :=
  X.blake2b256 (writeU16 (strBytes tag).length ++ strBytes tag ++ data)

/-! ## Scalars and points -/

/-- A canonical scalar, below the group order. -/
def scalarFromBytes (bytes : BitVec 256) : Option Nat :=
  if bytes.toNat < secp256k1N then some bytes.toNat else none

@[simp] theorem scalarFromBytes_eq_some {bytes : BitVec 256} {s : Nat} :
    scalarFromBytes bytes = some s ↔ bytes.toNat < secp256k1N ∧ bytes.toNat = s := by
  unfold scalarFromBytes
  by_cases h : bytes.toNat < secp256k1N <;> simp [h]

def isScalarValid (s : BitVec 256) : Bool := s ≠ 0 ∧ s.toNat < secp256k1N

def toProjective (c : Commitment) : Except DomError X.Point := do
  rejectIf (X.encodedPointValid c = false) (.invalid "invalid commitment encoding")
  okOr (X.affineFromEncoded c) (.invalid "commitment point not on curve")

def commitmentFromCompressedBytes (c : Commitment) : Except DomError Commitment := do
  rejectIf (X.encodedPointValid c = false) (.invalid "commitment: invalid SEC1 encoding")
  rejectIf ((X.affineFromEncoded c).isNone)
    (.invalid "commitment: point not on secp256k1 curve")
  return c

/-- The sum of a list of commitments as curve points. -/
def sumProjective (commits : List Commitment) : Except DomError X.Point :=
  commits.foldlM (fun acc c => do return acc + (← toProjective X c)) 0

/-- Difference of two commitments; the identity has no encoding. -/
def commitmentSub (a b : Commitment) : Except DomError Commitment := do
  let pa ← toProjective X a
  let pb ← toProjective X b
  rejectIf (pa - pb = 0) (.invalid "commitment subtraction produced the identity point")
  return X.compressPoint (pa - pb)

def commit (value blinding : Nat) : Commitment :=
  X.compressPoint (value • X.hPoint + blinding • X.generator)

/-! ## Balance equations -/

/-- `offset * G`, where the all-zero offset is skipped. -/
def offsetPoint (offset : BitVec 256) (message : String) : Except DomError X.Point :=
  if offset ≠ 0 then do
    let s ← okOr (scalarFromBytes offset) (.invalid message)
    return s • X.generator
  else return 0

/-- Per-transaction balance: `Σ outputs - Σ inputs + fee * H = Σ excesses + offset * G`. -/
def verifyBalanceEquation (outputCommits inputCommits kernelExcesses : List Commitment)
    (offset : BitVec 256) (totalFee : Nat) : Except DomError Bool := do
  let sumOutputs ← sumProjective X outputCommits
  let sumInputs ← sumProjective X inputCommits
  let lhs := sumOutputs - sumInputs + (if totalFee > 0 then totalFee • X.hPoint else 0)
  let sumExcesses ← sumProjective X kernelExcesses
  let offsetG ← offsetPoint X offset "invalid offset scalar"
  return decide (lhs = sumExcesses + offsetG)

/-- Aggregate block balance: `Σ outputs - Σ inputs = Σ excesses + offset * G + reward * H`. -/
def verifyBlockBalanceEquation (allOutputs allInputs allExcesses : List Commitment)
    (kernelOffset : BitVec 256) (reward : Nat) : Except DomError Bool := do
  let sumOutputs ← sumProjective X allOutputs
  let sumInputs ← sumProjective X allInputs
  let sumExcesses ← sumProjective X allExcesses
  let offsetG ← offsetPoint X kernelOffset "invalid block kernel_offset scalar"
  let rhs := sumExcesses + offsetG + (if reward > 0 then reward • X.hPoint else 0)
  return decide (sumOutputs - sumInputs = rhs)

/-! ## Range proofs -/

def maxProvableValue : Nat := 2 ^ 52 - 1

def rangeProofSize : Nat := 739

def deriveComplementCommitment (c : Commitment) : Except DomError Commitment :=
  commitmentSub X (X.compressPoint (maxProvableValue • X.hPoint)) c

/-- Verify a range proof that binds no extra bytes. -/
def bpVerify (c : Commitment) (proof : List UInt8) : Except DomError Bool := do
  rejectIf (proof = []) (.malformed "range proof is empty")
  rejectIf (proof.length ≠ rangeProofSize)
    (DomError.malformed
      s!"invalid range proof length: {proof.length} bytes (expected {rangeProofSize})")
  let c ← commitmentFromCompressedBytes X c
  let complement ← deriveComplementCommitment X c
  X.verifyRaw c complement proof []

/-- Verify a range proof together with the bytes bound into its transcript. -/
def bpVerifyWithExtraCommit (c : Commitment) (proof extraCommit : List UInt8) :
    Except DomError Bool := do
  rejectIf (extraCommit = []) (.malformed "range proof extra commitment must not be empty")
  rejectIf (proof.length ≠ rangeProofSize)
    (.malformed s!"range proof length {proof.length} != {rangeProofSize}")
  let c ← commitmentFromCompressedBytes X c
  let complement ← deriveComplementCommitment X c
  X.verifyRaw c complement proof extraCommit

/-! ## Schnorr signatures -/

def publicKeyFromCompressedBytes (bytes : BitVec 264) : Except DomError Commitment := do
  let tag := bytes.toNat / 2 ^ 256
  let tagHex := (BitVec.ofNat 8 tag).toHex
  rejectIf (tag ≠ 2 ∧ tag ≠ 3)
    (.malformed s!"compressed public key prefix must be 0x02 or 0x03, got 0x{tagHex}")
  match X.parsePublicKey bytes with
  | .ok () => return bytes
  | .error e => throw (.invalid s!"invalid public key point: {e}")

structure SchnorrSignature where
  rCompressed : BitVec 264
  s : BitVec 256
  deriving DecidableEq

/-- Split and validate 65 signature bytes. -/
def SchnorrSignature.fromBytes (bytes : SignatureBytes) : Except DomError SchnorrSignature := do
  let rCompressed := BitVec.ofNat 264 (bytes.toNat / 2 ^ 256)
  let s := BitVec.ofNat 256 bytes.toNat
  let _ ← publicKeyFromCompressedBytes X rCompressed
  rejectIf (isScalarValid s = false) (.invalid "signature scalar s is zero or >= n")
  return ⟨rCompressed, s⟩

def SchnorrSignature.toBytes (sig : SchnorrSignature) : SignatureBytes :=
  BitVec.ofNat 520 (sig.rCompressed.toNat * 2 ^ 256 + sig.s.toNat)

def schnorrChallenge (rCompressed publicKey : BitVec 264) (chainId : Hash256)
    (message : List UInt8) : Hash256 :=
  blake2b256Tagged X "DOM:kernel-sig:v1"
    (commitmentBytes rCompressed ++ commitmentBytes publicKey ++ hashBytes chainId ++ message)

/-- The curve point of a compressed encoding, as signature code resolves it. -/
def compressedToProjective (bytes : BitVec 264) : Except DomError X.Point := do
  rejectIf (X.encodedPointValid bytes = false) (.invalid "invalid compressed point")
  okOr (X.affineFromEncoded bytes) (.invalid "point not on curve")

def schnorrVerify (sig : SchnorrSignature) (publicKey : BitVec 264) (chainId : Hash256)
    (message : List UInt8) : Except DomError Bool := do
  let cBytes := schnorrChallenge X sig.rCompressed publicKey chainId message
  let s ← okOr (scalarFromBytes sig.s) (.invalid "s is not a valid scalar")
  let pPoint ← compressedToProjective X publicKey
  let c ← okOr (scalarFromBytes cBytes) (.invalid "challenge scalar invalid")
  let rPoint ← compressedToProjective X sig.rCompressed
  return decide (s • X.generator = rPoint + c • pPoint)

end DomProtocol
