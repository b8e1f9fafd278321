import DomProtocol.Crypto.Primitives
import DomProtocol.Lib.Decode
import DomProtocol.Settlement.State

/-!
# `Escrow.Wire` — the wire format of the Solana escrow

The state of an escrow as its state account keeps it, and the instructions of the program.  Both are read from bytes
that anybody may have written, so the decoders check lengths, magic, version, tags and the fields themselves.  A state
that passes its own checks is read back as it was written (`EscrowStateV1.decode_encode`).
-/

namespace DomProtocol.Escrow

open Lib

/-! ## Data -/

abbrev Pubkey := Digest32

def stateMagic : List UInt8 := strBytes "DOMSOLV1"
def instructionMagic : List UInt8 := strBytes "DOMSLIX1"
def wireVersion : Nat := 1

def stateLen : Nat := 464

def stateSeed : List UInt8 := strBytes "dom-solana-state-v1"
def nativeVaultSeed : List UInt8 := strBytes "dom-solana-native-v1"
def tokenVaultSeed : List UInt8 := strBytes "dom-solana-token-v1"
def vaultAuthoritySeed : List UInt8 := strBytes "dom-solana-authority-v1"

inductive AssetKind where
  | NativeSol
  | LegacySpl
  deriving DecidableEq, Repr

inductive EscrowStatus where
  | Initialized
  | Funded
  | Claimed
  | Refunded
  | Closed
  deriving DecidableEq, Repr

inductive WireError where
  | InvalidLength
  | InvalidMagic
  | InvalidVersion
  | UnknownTag
  | TrailingBytes
  | InvalidField
  | NonCanonical
  deriving DecidableEq, Repr

/-- Canonical state stored in the state account. -/
structure EscrowStateV1 where
  status : EscrowStatus
  assetKind : AssetKind
  stateBump : UInt8
  vaultBump : UInt8
  authorityBump : UInt8
  tokenDecimals : UInt8
  settlementId : Digest32
  termsHash : Digest32
  setupId : Digest32
  funder : Pubkey
  recipient : Pubkey
  refundRecipient : Pubkey
  tokenProgram : Pubkey
  mint : Pubkey
  vault : Pubkey
  domAdaptorPoint : BitVec 264
  claimPointEd25519 : Digest32
  amount : UInt64
  fundedAmount : UInt64
  refundAfterUnix : Int64
  terminalSlot : UInt64
  revealedSecretBe : Digest32
  deriving DecidableEq, Repr

/-- Parameters shared by native and SPL initialization. -/
structure InitializeParamsV1 where
  settlementId : Digest32
  termsHash : Digest32
  setupId : Digest32
  recipient : Pubkey
  refundRecipient : Pubkey
  domAdaptorPoint : BitVec 264
  claimPointEd25519 : Digest32
  amount : UInt64
  refundAfterUnix : Int64
  deriving DecidableEq, Repr

inductive EscrowInstructionV1 where
  | InitializeNative (params : InitializeParamsV1)
  | InitializeSpl (params : InitializeParamsV1)
  | Fund
  | Claim (revealedSecretBe : Digest32)
  | Refund
  | Close
  deriving DecidableEq, Repr

/-! ## Checks -/

/-- A compressed point starts with `02` or `03`. -/
def isCompressed (point : BitVec 264) : Bool := (commitmentBytes point).head? = some 2 ∨ (commitmentBytes point).head? = some 3

/-- Invariants independent of account ownership. -/
def EscrowStateV1.validate (state : EscrowStateV1) : Except WireError Unit := do
  rejectIf (state.settlementId = 0 ∨ state.termsHash = 0 ∨ state.setupId = 0 ∨ state.funder = 0 ∨ state.recipient = 0 ∨
    state.refundRecipient = 0 ∨ state.vault = 0 ∨ state.claimPointEd25519 = 0 ∨ state.amount = 0 ∨
    isCompressed state.domAdaptorPoint = false) .InvalidField
  match state.assetKind with
  | .NativeSol => rejectIf (state.tokenProgram ≠ 0 ∨ state.mint ≠ 0 ∨ state.tokenDecimals ≠ 0) .InvalidField
  | .LegacySpl => rejectIf (state.tokenProgram = 0 ∨ state.mint = 0) .InvalidField
  match state.status with
  | .Initialized => rejectIf (state.fundedAmount ≠ 0) .InvalidField
  | .Funded => rejectIf (state.fundedAmount ≠ state.amount) .InvalidField
  | .Claimed =>
    rejectIf (state.fundedAmount ≠ 0 ∨ state.terminalSlot = 0 ∨ state.revealedSecretBe = 0) .InvalidField
  | .Refunded =>
    rejectIf (state.fundedAmount ≠ 0 ∨ state.terminalSlot = 0 ∨ state.revealedSecretBe ≠ 0) .InvalidField
  | .Closed => pure ()

def InitializeParamsV1.validate (params : InitializeParamsV1) : Except WireError Unit :=
  rejectIf (params.settlementId = 0 ∨ params.termsHash = 0 ∨ params.setupId = 0 ∨ params.recipient = 0 ∨
    params.refundRecipient = 0 ∨ params.claimPointEd25519 = 0 ∨ params.amount = 0 ∨ params.refundAfterUnix ≤ 0 ∨
    isCompressed params.domAdaptorPoint = false) .InvalidField

/-! ## Encoders -/

def AssetKind.tag : AssetKind → UInt8
  | NativeSol => 1
  | LegacySpl => 2

def EscrowStatus.tag : EscrowStatus → UInt8
  | Initialized => 1
  | Funded => 2
  | Claimed => 3
  | Refunded => 4
  | Closed => 5

def putU64 (value : UInt64) : List UInt8 := beBytes 8 value.toNat

/-- The fields of a state, in their order. -/
def encodeStateFields (state : EscrowStateV1) : List UInt8 :=
  [state.status.tag] ++ [state.assetKind.tag] ++ [state.stateBump] ++ [state.vaultBump] ++ [state.authorityBump] ++
    [state.tokenDecimals] ++ hashBytes state.settlementId ++ hashBytes state.termsHash ++ hashBytes state.setupId ++
    hashBytes state.funder ++ hashBytes state.recipient ++ hashBytes state.refundRecipient ++
    hashBytes state.tokenProgram ++ hashBytes state.mint ++ hashBytes state.vault ++
    commitmentBytes state.domAdaptorPoint ++ hashBytes state.claimPointEd25519 ++ putU64 state.amount ++
    putU64 state.fundedAmount ++ putU64 state.refundAfterUnix.toUInt64 ++ putU64 state.terminalSlot ++
    hashBytes state.revealedSecretBe

/-- The exact fixed-size account representation. -/
def EscrowStateV1.encode (state : EscrowStateV1) : List UInt8 :=
  stateMagic ++ beBytes 2 wireVersion ++ encodeStateFields state ++ List.replicate 31 0

def putInitialize (params : InitializeParamsV1) : List UInt8 :=
  hashBytes params.settlementId ++ hashBytes params.termsHash ++ hashBytes params.setupId ++ hashBytes params.recipient ++
    hashBytes params.refundRecipient ++ commitmentBytes params.domAdaptorPoint ++ hashBytes params.claimPointEd25519 ++
    putU64 params.amount ++ putU64 params.refundAfterUnix.toUInt64

/-- The tag of an instruction and its parameters. -/
def EscrowInstructionV1.body : EscrowInstructionV1 → List UInt8
  | InitializeNative params => 1 :: putInitialize params
  | InitializeSpl params => 2 :: putInitialize params
  | Fund => [3]
  | Claim revealedSecretBe => 4 :: hashBytes revealedSecretBe
  | Refund => [5]
  | Close => [6]

def EscrowInstructionV1.encode (instruction : EscrowInstructionV1) : List UInt8 :=
  instructionMagic ++ beBytes 2 wireVersion ++ instruction.body

/-! ## Decoders -/

namespace Wire

abbrev Decode := Decoder WireError

def takeU8 : Decode UInt8 := Decoder.byte .InvalidLength
def takeU16 : Decode Nat := Decoder.nat 2 .InvalidLength
def takeU64 : Decode UInt64 := do return UInt64.ofNat (← Decoder.nat 8 .InvalidLength)
def takeI64 : Decode Int64 := do return (← takeU64).toInt64
def take32 : Decode Digest32 := do return BitVec.ofNat 256 (← Decoder.nat 32 .InvalidLength)
def take33 : Decode (BitVec 264) := do return BitVec.ofNat 264 (← Decoder.nat 33 .InvalidLength)

def assetKind : Decode AssetKind := do
  match ← takeU8 with
  | 1 => return .NativeSol
  | 2 => return .LegacySpl
  | _ => Decoder.refuse .UnknownTag

def status : Decode EscrowStatus := do
  match ← takeU8 with
  | 1 => return .Initialized
  | 2 => return .Funded
  | 3 => return .Claimed
  | 4 => return .Refunded
  | 5 => return .Closed
  | _ => Decoder.refuse .UnknownTag

/-- The magic and the version in front of both formats. -/
def header {α : Type} (magic : List UInt8) (value : Decode α) : Decode α := do
  let found ← Decoder.take 8 .InvalidLength
  Decoder.check (rejectIf (found ≠ magic) .InvalidMagic)
  let version ← takeU16
  Decoder.check (rejectIf (version ≠ wireVersion) .InvalidVersion)
  value

def stateFields : Decode EscrowStateV1 := do
  return ⟨← status, ← assetKind, ← takeU8, ← takeU8, ← takeU8, ← takeU8, ← take32, ← take32, ← take32, ← take32, ← take32,
    ← take32, ← take32, ← take32, ← take32, ← take33, ← take32, ← takeU64, ← takeU64, ← takeI64, ← takeU64, ← take32⟩

def takeInitialize : Decode InitializeParamsV1 := do
  let params : InitializeParamsV1 := ⟨← take32, ← take32, ← take32, ← take32, ← take32, ← take33, ← take32, ← takeU64,
    ← takeI64⟩
  Decoder.check params.validate
  return params

def instruction : Decode EscrowInstructionV1 := do
  match ← takeU8 with
  | 1 => return .InitializeNative (← takeInitialize)
  | 2 => return .InitializeSpl (← takeInitialize)
  | 3 => return .Fund
  | 4 => return .Claim (← take32)
  | 5 => return .Refund
  | 6 => return .Close
  | _ => Decoder.refuse .UnknownTag

end Wire

/-- Strictly decode the fixed-size representation. -/
def EscrowStateV1.decode (bytes : List UInt8) : Except WireError EscrowStateV1 := do
  rejectIf (bytes.length ≠ stateLen) .InvalidLength
  let (value, _) ← Wire.header stateMagic Wire.stateFields bytes
  rejectIf ((bytes.drop 433).any (· ≠ 0)) .NonCanonical
  value.validate
  return value

/-- The last checks of a decoded instruction. -/
def EscrowInstructionV1.validate : EscrowInstructionV1 → Except WireError Unit
  | InitializeNative params | InitializeSpl params => params.validate
  | Claim revealedSecretBe => rejectIf (revealedSecretBe = 0) .InvalidField
  | Fund | Refund | Close => pure ()

/-- Decode with version, bounds, field and trailing-byte checks. -/
def EscrowInstructionV1.decode (bytes : List UInt8) : Except WireError EscrowInstructionV1 := do
  rejectIf (bytes.length < 11 ∨ 252 < bytes.length) .InvalidLength
  let (instruction, rest) ← Wire.header instructionMagic Wire.instruction bytes
  rejectIf (rest ≠ []) .TrailingBytes
  instruction.validate
  return instruction

/-! ## Round trips -/

namespace Wire

theorem reads_u8 (value : UInt8) : Reads takeU8 [value] value := Reads.byte value

theorem reads_u64 (value : UInt64) : Reads takeU64 (putU64 value) value := by
  have hread : Reads takeU64 (putU64 value) (UInt64.ofNat value.toNat) := (Reads.nat value.toNat_lt).map
  rwa [UInt64.ofNat_toNat] at hread

theorem reads_i64 (value : Int64) : Reads takeI64 (putU64 value.toUInt64) value :=
  (reads_u64 value.toUInt64).map (g := UInt64.toInt64)

theorem toNat_lt_bytes {n : Nat} (value : BitVec (8 * n)) : value.toNat < 256 ^ n :=
  lt_of_lt_of_eq value.isLt (Nat.pow_mul 2 8 n)

theorem reads_32 (value : Digest32) : Reads take32 (hashBytes value) value := by
  have hread : Reads take32 (hashBytes value) (BitVec.ofNat 256 value.toNat) :=
    (Reads.nat (toNat_lt_bytes (n := 32) value)).map
  rwa [BitVec.ofNat_toNat, BitVec.setWidth_eq] at hread

theorem reads_33 (value : BitVec 264) : Reads take33 (commitmentBytes value) value := by
  have hread : Reads take33 (commitmentBytes value) (BitVec.ofNat 264 value.toNat) :=
    (Reads.nat (toNat_lt_bytes (n := 33) value)).map
  rwa [BitVec.ofNat_toNat, BitVec.setWidth_eq] at hread

theorem reads_assetKind (value : AssetKind) : Reads assetKind [value.tag] value := by
  cases value <;> exact Reads.tag _ (Reads.pure _)

theorem reads_status (value : EscrowStatus) : Reads status [value.tag] value := by
  cases value <;> exact Reads.tag _ (Reads.pure _)

theorem reads_header {α : Type} {magic : List UInt8} {p : Decode α} {bs : List UInt8} {a : α} (hmag : magic.length = 8)
    (h : Reads p bs a) : Reads (header magic p) (magic ++ (beBytes 2 wireVersion ++ bs)) a := by
  refine (Reads.take magic hmag).bind (Reads.check (rejectIf_eq_ok.mpr (not_not.mpr rfl)) ?_)
  have hver : Reads takeU16 (beBytes 2 wireVersion) wireVersion := Reads.nat (by decide)
  exact hver.bind (Reads.check (rejectIf_eq_ok.mpr (not_not.mpr rfl)) h)

theorem reads_stateFields (state : EscrowStateV1) : Reads stateFields (encodeStateFields state) state := by
  unfold encodeStateFields
  simp only [List.append_assoc]
  refine (reads_status _).bind ?_
  refine (reads_assetKind _).bind ?_
  refine (reads_u8 _).bind ?_
  refine (reads_u8 _).bind ?_
  refine (reads_u8 _).bind ?_
  refine (reads_u8 _).bind ?_
  refine (reads_32 _).bind ?_
  refine (reads_32 _).bind ?_
  refine (reads_32 _).bind ?_
  refine (reads_32 _).bind ?_
  refine (reads_32 _).bind ?_
  refine (reads_32 _).bind ?_
  refine (reads_32 _).bind ?_
  refine (reads_32 _).bind ?_
  refine (reads_32 _).bind ?_
  refine (reads_33 _).bind ?_
  refine (reads_32 _).bind ?_
  refine (reads_u64 _).bind ?_
  refine (reads_u64 _).bind ?_
  refine (reads_i64 _).bind ?_
  exact (reads_u64 _).bind (Reads.map (reads_32 _))

end Wire

theorem length_stateMagic : stateMagic.length = 8 := by decide +kernel

theorem length_encodeStateFields (state : EscrowStateV1) : (encodeStateFields state).length = 423 := by
  unfold encodeStateFields
  simp only [List.length_append, List.length_singleton, hashBytes, commitmentBytes, writeArray, putU64, length_beBytes]

theorem length_stateFront (state : EscrowStateV1) :
    (stateMagic ++ beBytes 2 wireVersion ++ encodeStateFields state).length = 433 := by
  simp only [List.length_append, length_stateMagic, length_beBytes, length_encodeStateFields]

theorem EscrowStateV1.length_encode (state : EscrowStateV1) : state.encode.length = stateLen := by
  rw [EscrowStateV1.encode, List.length_append, length_stateFront, List.length_replicate]
  rfl

/-- **A valid state is read back from its account.** -/
theorem EscrowStateV1.decode_encode {state : EscrowStateV1} (h : state.validate = .ok ()) :
    EscrowStateV1.decode state.encode = .ok state := by
  have hpadding : (state.encode.drop 433).any (· ≠ 0) = false := by
    rw [EscrowStateV1.encode, ← length_stateFront state, List.drop_left]
    decide
  have hread := Wire.reads_header length_stateMagic (Wire.reads_stateFields state) (List.replicate 31 0)
  rw [← List.append_assoc] at hread
  simp only [EscrowStateV1.decode, inversion, hpadding]
  exact ⟨not_not.mpr state.length_encode, (state, _), hread, Bool.false_ne_true, h, rfl⟩

end DomProtocol.Escrow
