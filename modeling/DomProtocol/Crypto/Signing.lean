import DomProtocol.Crypto.Primitives

/-!
# `Crypto.Signing` — deterministic nonces, Schnorr signing and range-proof generation

The prover side of `Crypto.Primitives`: what a miner or the genesis builder runs to make a coinbase.
-/

namespace DomProtocol

open Lib

variable (X : Externals)

/-! ## Keys -/

/-- A nonzero canonical scalar as a blinding factor. -/
def blindingFactorFromBytes (bytes : BitVec 256) : Except DomError (BitVec 256) := do
  let s ← okOr (scalarFromBytes bytes) (.invalid "blinding factor out of range")
  rejectIf (s = 0) (.invalid "blinding factor is zero")
  return bytes

/-- A nonzero canonical scalar as a secret key. -/
def secretKeyFromBytes (bytes : BitVec 256) : Except DomError (BitVec 256) := do
  rejectIf (isScalarValid bytes = false)
    (.invalid "invalid secret key: secp: malformed or out-of-range secret key")
  return bytes

/-- The compressed public key of a secret key. -/
def publicKeyOf (sk : BitVec 256) : BitVec 264 := X.compressPoint (sk.toNat • X.generator)

/-! ## Signing -/

/-- Candidate nonces until one is a valid scalar. -/
def rfc6979Candidates : Nat → Hash256 → Hash256 → Except DomError (BitVec 256)
  | 0, _, _ => .error (.internal "RFC6979 failed after 100 attempts")
  | attempts + 1, k, v =>
    let v := X.hmacSha256 (hashBytes k) (hashBytes v)
    if isScalarValid v then .ok v
    else
      let k := X.hmacSha256 (hashBytes k) (hashBytes v ++ [0x00])
      rfc6979Candidates attempts k (X.hmacSha256 (hashBytes k) (hashBytes v))

/-- The deterministic nonce of a key and a message hash. -/
def rfc6979Nonce (sk msg : BitVec 256) : Except DomError (BitVec 256) :=
  let v₀ := List.replicate 32 0x01
  let k₀ := List.replicate 32 0x00
  let k₁ := X.hmacSha256 k₀ (v₀ ++ [0x00] ++ hashBytes sk ++ hashBytes msg)
  let v₁ := X.hmacSha256 (hashBytes k₁) v₀
  let k₂ := X.hmacSha256 (hashBytes k₁) (hashBytes v₁ ++ [0x01] ++ hashBytes sk ++ hashBytes msg)
  let v₂ := X.hmacSha256 (hashBytes k₂) (hashBytes v₁)
  rfc6979Candidates X 100 k₂ v₂

def scalarAddMul (a c b : BitVec 256) : Except DomError (BitVec 256) := do
  let a ← okOr (scalarFromBytes a) (.invalid "a not valid scalar")
  let b ← okOr (scalarFromBytes b) (.invalid "b not valid scalar")
  let c ← okOr (scalarFromBytes c) (.invalid "c not valid scalar")
  return BitVec.ofNat 256 ((a + c * b) % secp256k1N)

/-- Sign a message under a chain identifier. -/
def schnorrSign (sk : BitVec 256) (message : List UInt8) (chainId : Hash256) :
    Except DomError SchnorrSignature := do
  let pk := publicKeyOf X sk
  let msgHash := X.blake2b256 (message ++ hashBytes chainId)
  let kBytes ← rfc6979Nonce X sk msgHash
  let k ← okOr (scalarFromBytes kBytes) (.internal "RFC6979 produced invalid nonce")
  let rCompressed := X.compressPoint (k • X.generator)
  let cBytes := schnorrChallenge X rCompressed pk chainId message
  let s ← scalarAddMul kBytes cBytes sk
  return { rCompressed, s }

/-! ## Range-proof generation -/

/-- The prover refuses values above the provable range. -/
def checkProvable (value : Nat) : Except DomError Unit :=
  rejectIf (value > maxProvableValue)
    (.invalid s!"value {value} > MAX_PROVABLE_VALUE {maxProvableValue}")

/-- A range proof with fresh nonces, and the commitment it is about. -/
def bpProve (value : Nat) (blinding : BitVec 256) : Except DomError (List UInt8 × BitVec 264) := do
  checkProvable value
  let sec1 ← X.backendCommit value blinding
  let proof ← X.proveRaw value blinding []
  return (proof, sec1)

/-- A reproducible range proof: both nonces come from one seed. -/
def bpProveWithNonce (value : Nat) (blinding : BitVec 256) (nonce : Hash256) :
    Except DomError (List UInt8 × BitVec 264) := do
  checkProvable value
  let rewind := blake2b256Tagged X "DOM:bp2-rewind-nonce:v1" (hashBytes nonce)
  let priv := blake2b256Tagged X "DOM:bp2-private-nonce:v1" (hashBytes nonce)
  let sec1 ← X.backendCommit value blinding
  let proof ← X.proveRawWithNonces value blinding rewind priv []
  return (proof, sec1)

end DomProtocol
