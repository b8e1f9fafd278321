import Mathlib.Data.List.Sort
import DomProtocol.Pow

/-!
# `Consensus.Header` — block headers and the checks made on them alone

The header has a fixed 256-byte encoding, which the block identifier hashes; `BlockHeader.fromBytes_toBytes`
says that decoding reads back exactly what was encoded.
-/

namespace DomProtocol

open Lib

structure ProofOfWork where
  nonce : UInt64
  randomxHash : Hash256
  deriving DecidableEq

structure BlockHeader where
  version : UInt32
  height : UInt64
  prevHash : Hash256
  timestamp : UInt64
  outputRoot : Hash256
  kernelRoot : Hash256
  rangeproofRoot : Hash256
  totalKernelOffset : BitVec 256
  target : UInt32
  totalDifficulty : U256
  pow : ProofOfWork
  deriving DecidableEq

namespace BlockHeader

/-- The bytes RandomX hashes: every field but the claimed hash, in its own order. -/
def powPreimage (h : BlockHeader) : List UInt8 :=
  writeU32 h.version ++ hashBytes h.prevHash ++ writeU64 h.height ++ writeU64 h.timestamp
    ++ hashBytes h.outputRoot ++ hashBytes h.kernelRoot ++ hashBytes h.rangeproofRoot
    ++ hashBytes h.totalKernelOffset ++ writeU32 h.target ++ hashBytes h.totalDifficulty
    ++ writeU64 h.pow.nonce

def toBytes (h : BlockHeader) : List UInt8 :=
  writeU32 h.version ++ (writeU64 h.height ++ (hashBytes h.prevHash ++ (writeU64 h.timestamp
    ++ (hashBytes h.outputRoot ++ (hashBytes h.kernelRoot ++ (hashBytes h.rangeproofRoot
    ++ (hashBytes h.totalKernelOffset ++ (writeU32 h.target ++ (hashBytes h.totalDifficulty
    ++ (writeU64 h.pow.nonce ++ (hashBytes h.pow.randomxHash ++ [])))))))))))

def deserialize : ReadM BlockHeader := do
  let version ← Reader.readU32
  let height ← Reader.readU64
  let prevHash ← Reader.readArray 32
  let timestamp ← Reader.readU64
  let outputRoot ← Reader.readArray 32
  let kernelRoot ← Reader.readArray 32
  let rangeproofRoot ← Reader.readArray 32
  let totalKernelOffset ← Reader.readArray 32
  let target ← Reader.readU32
  let totalDifficulty ← Reader.readArray 32
  let nonce ← Reader.readU64
  let randomxHash ← Reader.readArray 32
  return { version, height, prevHash, timestamp, outputRoot, kernelRoot, rangeproofRoot,
           totalKernelOffset, target, totalDifficulty, pow := { nonce, randomxHash } }

def fromBytes (data : List UInt8) : Except DomError BlockHeader := Reader.fromBytes deserialize data

theorem length_toBytes (h : BlockHeader) : h.toBytes.length = 256 := by
  simp [toBytes, writeU32, writeU64, hashBytes, writeArray]

theorem deserialize_readsAs (h : BlockHeader) : ReadsAs deserialize h.toBytes h := by
  have harr (v : BitVec 256) : ReadsAs (Reader.readArray 32) (hashBytes v) v := ReadsAs.readArray (n := 32) v
  exact (ReadsAs.readU32 _).bind <| (ReadsAs.readU64 _).bind <| (harr _).bind <|
    (ReadsAs.readU64 _).bind <| (harr _).bind <| (harr _).bind <| (harr _).bind <| (harr _).bind <|
    (ReadsAs.readU32 _).bind <| (harr _).bind <| (ReadsAs.readU64 _).bind <| (harr _).bind <|
    ReadsAs.pure _

theorem deserialize_took {r r' : Reader} {h : BlockHeader} (hread : deserialize r = .ok (h, r')) :
    Took r h.toBytes r' := by
  have harr {v : BitVec 256} {r r' : Reader} (h : Reader.readArray 32 r = .ok (v, r')) :
      Took r (hashBytes v) r' := Took.of_readArray (n := 32) h
  simp only [deserialize, readM_bind_eq_ok, readM_pure_eq_ok] at hread
  obtain ⟨_, _, h₁, _, _, h₂, _, _, h₃, _, _, h₄, _, _, h₅, _, _, h₆, _, _, h₇, _, _, h₈, _, _, h₉,
    _, _, h₁₀, _, _, h₁₁, _, _, h₁₂, rfl, rfl⟩ := hread
  rw [toBytes, List.append_nil]
  exact (Took.of_readU32 h₁).trans <| (Took.of_readU64 h₂).trans <| (harr h₃).trans <|
    (Took.of_readU64 h₄).trans <| (harr h₅).trans <| (harr h₆).trans <| (harr h₇).trans <|
    (harr h₈).trans <| (Took.of_readU32 h₉).trans <| (harr h₁₀).trans <|
    (Took.of_readU64 h₁₁).trans (harr h₁₂)

/-- **Headers have one wire form**: a byte string is read as a header exactly when it is the encoding of that header, so
    hashing the bytes a peer sent is hashing the header. -/
theorem wire_canonical {data : List UInt8} {h : BlockHeader} : fromBytes data = .ok h ↔ h.toBytes = data := by
  constructor
  · exact Took.of_fromBytes (W := fun h bs => h.toBytes = bs) fun _ _ _ hread => ⟨_, rfl, deserialize_took hread⟩
  · rintro rfl
    exact (deserialize_readsAs h).fromBytes (by rw [length_toBytes]; decide)

end BlockHeader

/-! ## Header checks -/

/-- The total kernel offset must be a canonical scalar. -/
def validateKernelOffsetCanonical (offset : BitVec 256) : Except DomError Unit := do
  rejectIf (offset.toNat > secp256k1N)
    (.malformed "total_kernel_offset >= secp256k1 order n — non-canonical scalar")
  rejectIf (offset.toNat = secp256k1N)
    (.malformed "total_kernel_offset == secp256k1 order n — non-canonical scalar")

def validateHeaderSyntax (header : BlockHeader) (networkMagic : UInt32) : Except DomError Unit := do
  let requiredVersion := requiredBlockVersionForNetwork networkMagic header.height.toNat
  rejectIf (header.version ≠ requiredVersion)
    (DomError.invalid
      s!"invalid block version {header.version} at height {header.height} (required {requiredVersion})")
  rejectIf (header.height.toNat = 0 ∧ header.prevHash ≠ Hash256.zero)
    (.invalid "genesis block must have zero prev_hash")
  rejectIf (header.height.toNat ≠ 0 ∧ header.prevHash = Hash256.zero)
    (.invalid "non-genesis block must have non-zero prev_hash")
  validateKernelOffsetCanonical header.totalKernelOffset

/-- The timestamp may not lie beyond `now` plus the limit. -/
def validateFutureTimestampWithLimit (header : BlockHeader) (now maxFuture : Nat) :
    Except DomError Unit := do
  let limit ← okOr (checkedAdd64 now maxFuture) (.internal "timestamp limit overflow")
  rejectIf (header.timestamp.toNat > limit)
    (DomError.temporarilyInvalid
      s!"block timestamp {header.timestamp} too far in future (limit {limit})")

/-- Timestamps increase strictly along a branch. -/
def validateParentTimestampProgression (header parent : BlockHeader) : Except DomError Unit :=
  rejectIf (header.timestamp.toNat ≤ parent.timestamp.toNat)
    (DomError.invalid
      s!"block timestamp {header.timestamp} not greater than parent timestamp {parent.timestamp}")

/-- The timestamp must exceed the median of the last eleven ancestors, once there are eleven. -/
def validateMedianTimePast (header : BlockHeader) (ancestorTimestamps : List Nat) :
    Except DomError Unit :=
  if ancestorTimestamps.length < medianTimeWindow then .ok ()
  else
    let sorted := (ancestorTimestamps.take medianTimeWindow).insertionSort (· ≤ ·)
    let median := sorted.getD (medianTimeWindow / 2) 0
    rejectIf (header.timestamp.toNat ≤ median)
      (DomError.invalid
        s!"block timestamp {header.timestamp} not greater than median-time-past {median}")

variable (X : Externals)

/-- Proof of work under a seed, in the mode of the network. -/
def validatePowForNetwork (networkMagic : UInt32) (header : BlockHeader) (seed : Hash256) :
    Except DomError Unit := do
  let target ← (compactToTarget header.target).mapError fun e =>
    DomError.invalid s!"invalid compact target: {e}"
  let ok ← validatePowHash X networkMagic header.powPreimage header.pow.randomxHash seed target
  rejectIf (ok = false)
    (.peerMisbehavior .InvalidPow "proof-of-work invalid: hash mismatch or does not meet target")

/-- The parent's accumulated work plus the work of one block. -/
def checkedAccumulatedDifficulty (parentTotal : U256) (blockDifficulty : Nat) :
    Except DomError U256 :=
  if parentTotal.toNat + blockDifficulty < 2 ^ 256 then
    .ok (BitVec.ofNat 256 (parentTotal.toNat + blockDifficulty))
  else .error (.invalid "total_difficulty overflow")

end DomProtocol
