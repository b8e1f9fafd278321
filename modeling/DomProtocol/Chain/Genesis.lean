import DomProtocol.Crypto.Signing
import DomProtocol.Store

/-!
# `Chain.Genesis` — block identifiers and the canonical genesis of each network

A block is identified by the hash of its header, except the mainnet genesis, whose identifier also commits to
the inscription and to an empty body.
-/

namespace DomProtocol

open Lib

variable (X : Externals)

/-! ## Identifiers -/

def emptyRoot : Hash256 := blake2b256Tagged X "DOM:pmmr-empty:v1" []

/-- What the mainnet genesis identity requires of its header. -/
def validateMainnetHeader (header : BlockHeader) : Except DomError Unit := do
  rejectIf (header.height.toNat ≠ 0 ∨ header.prevHash ≠ Hash256.zero)
    (.invalid "Mainnet genesis identity requires a height-zero header with zero previous hash")
  rejectIf (header.outputRoot ≠ emptyRoot X ∨ header.kernelRoot ≠ emptyRoot X
      ∨ header.rangeproofRoot ≠ emptyRoot X)
    (.invalid "Mainnet genesis identity requires empty output, kernel, and range-proof roots")

/-- The encoded mainnet inscription: version, length, text. -/
def inscriptionBytes : List UInt8 :=
  [0x01] ++ beBytes 2 (strBytes genesisMessage).length ++ strBytes genesisMessage

/-- The mainnet genesis identity envelope around a serialized header. -/
def identityEnvelopeBytes (headerBytes : List UInt8) : List UInt8 :=
  [0x01] ++ beBytes 2 headerBytes.length ++ headerBytes ++ beBytes 2 16 ++ List.replicate 16 0x00
    ++ [0x01] ++ beBytes 2 inscriptionBytes.length ++ inscriptionBytes
    ++ hashBytes (blake2b256Tagged X "DOM:genesis-inscription:v1" inscriptionBytes)

/-- The identifier of a header given together with its bytes. -/
def headerIdentifier (networkMagic : UInt32) (header : BlockHeader) (headerBytes : List UInt8) :
    Except DomError Hash256 :=
  if networkMagic = networkMagicMainnet ∧ header.height.toNat = 0 then do
    validateMainnetHeader X header
    return blake2b256Tagged X "DOM:mainnet-genesis-identity:v1" (identityEnvelopeBytes X headerBytes)
  else if networkMagic = networkMagicMainnet ∨ networkMagic = networkMagicTestnet
      ∨ networkMagic = networkMagicRegtest then
    .ok (X.blake2b256 headerBytes)
  else
    let hex := networkMagic.toBitVec.toHex
    .error (.invalid s!"unknown network magic for block identifier: 0x{hex}")

/-- The canonical identifier of serialized header bytes. -/
def canonicalHeaderIdentifier (networkMagic : UInt32) (headerBytes : List UInt8) :
    Except DomError Hash256 := do
  let header ← BlockHeader.fromBytes headerBytes
  headerIdentifier X networkMagic header headerBytes

def computeBlockIdentifier (networkMagic : UInt32) (header : BlockHeader) : Except DomError Hash256 :=
  headerIdentifier X networkMagic header header.toBytes

/-- The plain hash of a header, which identifies every block but the mainnet genesis. -/
def computeBlockHash (header : BlockHeader) : Hash256 := X.blake2b256 header.toBytes

theorem computeBlockIdentifier_above_genesis {networkMagic : UInt32} {header : BlockHeader}
    {hash : Hash256} (h : computeBlockIdentifier X networkMagic header = .ok hash)
    (hht : header.height.toNat ≠ 0) : computeBlockHash X header = hash := by
  unfold computeBlockIdentifier headerIdentifier at h
  rw [if_neg (fun hc => hht hc.2)] at h
  by_cases hkn : networkMagic = networkMagicMainnet ∨ networkMagic = networkMagicTestnet
      ∨ networkMagic = networkMagicRegtest
  · rw [if_pos hkn] at h
    exact Except.ok.inj h
  · rw [if_neg hkn] at h
    cases h

/-! ## Canonical genesis -/

/-- The frozen coinbase of a legacy genesis block. -/
def buildGenesisCoinbase (chainId : Hash256) : Except DomError CoinbaseTransaction := do
  let blinding ← (blindingFactorFromBytes (blake2b256Tagged X "DOM:genesis-blinding:v1" [])).mapError
    fun e => DomError.internal s!"genesis blinding: {e}"
  let nonce := blake2b256Tagged X "DOM:genesis-blinding:v1" (strBytes "bulletproof-nonce")
  let explicitValue := blockReward 0
  let commitment := commit X explicitValue blinding.toNat
  let (proof, proofCommitment) ← (bpProveWithNonce X explicitValue blinding nonce).mapError
    fun e => DomError.internal s!"genesis range proof failed: {e}"
  rejectIf (proofCommitment ≠ commitment) (.internal "genesis range proof commitment mismatch")
  let excess := commit X 0 blinding.toNat
  let message := blake2b256Tagged X "DOM:kernel-msg:coinbase:v1"
    ([kernelFeatCoinbase] ++ leBytes 8 explicitValue)
  let key ← (secretKeyFromBytes blinding).mapError
    fun e => DomError.internal s!"genesis blinding as key: {e}"
  let signature ← (schnorrSign X key (hashBytes message) chainId).mapError
    fun e => DomError.internal s!"genesis signing failed: {e}"
  return { output := { commitment, proof }
           kernel := { features := kernelFeatCoinbase
                       explicitValue := UInt64.ofNat explicitValue
                       excess
                       excessSignature := signature.toBytes }
           offset := 0 }

/-- The genesis header of a network over given roots. -/
def canonicalHeader (networkMagic : UInt32) (anchor : AsertAnchor)
    (outputRoot kernelRoot rangeproofRoot : Hash256) : BlockHeader :=
  let (nonce, powDigest) :=
    if networkMagic = networkMagicMainnet then (genesisNonceMainnet, genesisPowDigestMainnet)
    else if networkMagic = networkMagicRegtest then (genesisNonceRegtest, genesisPowDigestRegtest)
    else (0, 0)
  { version := blockVersionLegacy
    height := 0
    prevHash := Hash256.zero
    timestamp := UInt64.ofNat anchor.timestamp
    outputRoot, kernelRoot, rangeproofRoot
    totalKernelOffset := 0
    target := targetToCompact anchor.target
    totalDifficulty := BitVec.ofNat 256 (targetToDifficulty anchor.target)
    pow := { nonce := UInt64.ofNat nonce, randomxHash := powDigest } }

/-- A constructed genesis: its header, its stored body and its identifier. -/
structure CanonicalGenesis where
  header : BlockHeader
  body : BlockBody
  hash : Hash256

/-- The historical signing context of the regtest genesis. -/
def regtestGenesisSigningContext : Hash256 :=
  0x473d3be0c797556bee04a1ddc77f13bbd43e92daeccadc34d4a5a9f2d3e61beb#256

def constructMainnetIdentity : Except DomError CanonicalGenesis := do
  let anchor ← genesisAnchor networkMagicMainnet
  let header := canonicalHeader networkMagicMainnet anchor (emptyRoot X) (emptyRoot X) (emptyRoot X)
  let hash ← computeBlockIdentifier X networkMagicMainnet header
  return { header, body := .identityEnvelope, hash }

def buildLegacyCanonicalGenesis (networkMagic : UInt32) (chainId : Hash256) :
    Except DomError CanonicalGenesis := do
  let anchor ← genesisAnchor networkMagic
  let signingContext := if networkMagic = networkMagicRegtest then regtestGenesisSigningContext else chainId
  let coinbase ← buildGenesisCoinbase X signingContext
  let (outputRoot, kernelRoot, rangeproofRoot) ← computeBlockPmmrRoots X 0 coinbase []
  let header := canonicalHeader networkMagic anchor outputRoot kernelRoot rangeproofRoot
  return { header
           body := .block { header, coinbase, transactions := [] }
           hash := computeBlockHash X header }

/-- The canonical genesis of a recognised network. -/
def buildCanonicalGenesis (networkMagic : UInt32) (chainId : Hash256) : Except DomError CanonicalGenesis :=
  if networkMagic = networkMagicMainnet then constructMainnetIdentity X
  else if networkMagic = networkMagicTestnet ∨ networkMagic = networkMagicRegtest then
    buildLegacyCanonicalGenesis X networkMagic chainId
  else
    let hex := networkMagic.toBitVec.toHex
    .error (.invalid s!"unknown network magic for canonical genesis: 0x{hex}")

end DomProtocol
