import DomProtocol.Lib.Decode
import DomProtocol.Route.Step

/-!
# `Route.Codec` — canonical bytes of snapshots, effects and timers, and their decoders

What the store keeps is bytes.  The encoders of snapshots, effects and timers join those of the events, and every
object has its decoder: magic, tags, bounded lengths, no trailing bytes, and the checks of the value once it is read.
The main results say that each decoder returns what was encoded.
-/

namespace DomProtocol.Route

open Lib Decoder

variable {value : EffectDispatchV1} {contains : Bool}

def maxCanonicalBytes : Nat := 1048576

/-! ## Encoders -/

def encodeCoordination : CoordinationPhaseV1 → List UInt8
  | .Negotiating => [0]
  | .TermsFrozen => [1]
  | .RefundsArmed => [2]
  | .Funding => [3]
  | .Settling => [4]
  | .Recovery => [5]
  | .Terminal => [6]

def encodePriority : EffectPriorityV1 → List UInt8
  | .Normal => [0]
  | .Recovery => [1]
  | .SecretPublicUrgent => [2]

def encodeReference (value : EffectReferenceV1) : List UInt8 :=
  hashBytes value.effectId ++ encodeU64 value.fencingEpoch ++ hashBytes value.semanticDigest ++
    encodeBool value.containsRouteSecret ++ encodeOptional hashBytes value.expectedTransactionId

def encodeActionState : ActionStateV1 → List UInt8
  | .NotPrepared => [0]
  | .Committed effect => 1 :: encodeReference effect
  | .Externalized effect transactionId => 2 :: (encodeReference effect ++ hashBytes transactionId)
  | .Final effect transactionId evidenceDigest =>
    3 :: (encodeReference effect ++ hashBytes transactionId ++ hashBytes evidenceDigest)
  | .FinalityInvalidated effect transactionId priorEvidenceDigest reorgEvidenceDigest =>
    4 :: (encodeReference effect ++ hashBytes transactionId ++ hashBytes priorEvidenceDigest ++
      hashBytes reorgEvidenceDigest)

def encodeLeg (value : LegSnapshotV1) : List UInt8 :=
  encodeActionState value.funding ++ encodeActionState value.claim ++ encodeActionState value.refund

def encodeSecret : SecretVisibilityV1 → List UInt8
  | .Private => [0]
  | .Public firstExposure => 1 :: encodeExposure firstExposure

/-- The bytes of a snapshot after the magic. -/
def encodeSnapshotBody (value : RouteSnapshotV1) : List UInt8 :=
  hashBytes value.routeId ++ encodeU64 value.revision ++ encodeCoordination value.coordination ++
    encodeLeg value.upstream ++ encodeLeg value.downstream ++ encodeSecret value.secretVisibility ++
    encodeHealth value.health ++ encodeOptional encodeBindings value.bindings ++
    encodeOptional encodeRefunds value.refunds ++ encodeBool value.abortedUnfunded ++
    encodeU64 value.lastEventSequence ++ hashBytes value.lastEventDigest

def RouteSnapshotV1.encodeCanonical (value : RouteSnapshotV1) : Except CodecErrorV1 (List UInt8) := do
  value.validate
  return strBytes "DRS1" ++ encodeSnapshotBody value

def validateTimer (timer : RouteTimerV1) : Except CodecErrorV1 Unit := do
  rejectIf (timer.fencingEpoch = 0 ∨ timer.deadlineUnixMs = 0) .InvalidValue
  validateNonzeroMany [timer.routeId, timer.timerId, timer.contextDigest]

def encodeTimerBody (value : RouteTimerV1) : List UInt8 :=
  hashBytes value.routeId ++ hashBytes value.timerId ++ encodeU64 value.fencingEpoch ++ encodeTimerKind value.kind ++
    encodeU64 value.deadlineUnixMs ++ hashBytes value.contextDigest

def RouteTimerV1.encodeCanonical (value : RouteTimerV1) : Except CodecErrorV1 (List UInt8) := do
  validateTimer value
  return strBytes "DRT1" ++ encodeTimerBody value

def encodeEffectBody (value : RouteEffectV1) : List UInt8 :=
  hashBytes value.routeId ++ hashBytes value.effectId ++ encodeU64 value.fencingEpoch ++ encodeLegId value.leg ++
    encodeActionKind value.kind ++ encodePriority value.priority ++ hashBytes value.semanticDigest ++
    encodeBool value.containsRouteSecret ++ encodeDispatch value.dispatch

section Effects

variable (H : List UInt8 → Digest32)

def validateEffect (effect : RouteEffectV1) : Except CodecErrorV1 Unit := do
  rejectIf (effect.fencingEpoch = 0) .InvalidValue
  validateNonzeroMany [effect.routeId, effect.effectId, effect.semanticDigest]
  validateEffectDispatch H effect.dispatch effect.containsRouteSecret

def RouteEffectV1.encodeCanonical (value : RouteEffectV1) : Except CodecErrorV1 (List UInt8) := do
  validateEffect H value
  return strBytes "DRX1" ++ encodeEffectBody value

end Effects

/-! ## Decoders -/

namespace Codec

abbrev Decode := Decoder CodecErrorV1

def u8 : Decode UInt8 := byte .Truncated
def u32 : Decode Nat := do return ofBeBytes (← take 4 .Truncated)
def u64 : Decode UInt64 := do return UInt64.ofNat (ofBeBytes (← take 8 .Truncated))
def digest : Decode Digest32 := do return BitVec.ofNat 256 (ofBeBytes (← take 32 .Truncated))

def bool : Decode Bool := do
  match ← u8 with
  | 0 => return false
  | 1 => return true
  | _ => refuse .InvalidTag

def optional {α : Type} (decode : Decode α) : Decode (Option α) := do
  match ← u8 with
  | 0 => return none
  | 1 => return some (← decode)
  | _ => refuse .InvalidTag

def boundedBytes (max : Nat) : Decode (List UInt8) := do
  let len ← u32
  check (rejectIf (max < len ∨ maxCanonicalBytes < len) .TooLarge)
  take len .Truncated

def coordination : Decode CoordinationPhaseV1 := do
  match ← u8 with
  | 0 => return .Negotiating
  | 1 => return .TermsFrozen
  | 2 => return .RefundsArmed
  | 3 => return .Funding
  | 4 => return .Settling
  | 5 => return .Recovery
  | 6 => return .Terminal
  | _ => refuse .InvalidTag

def health : Decode HealthStateV1 := do
  match ← u8 with
  | 0 => return .Running
  | 1 => return .Degraded
  | 2 => return .RecoveryOnly
  | 3 => return .ManualIntervention
  | _ => refuse .InvalidTag

def legId : Decode LegIdV1 := do
  match ← u8 with
  | 0 => return .Upstream
  | 1 => return .Downstream
  | _ => refuse .InvalidTag

def actionKind : Decode ActionKindV1 := do
  match ← u8 with
  | 0 => return .Funding
  | 1 => return .Claim
  | 2 => return .Refund
  | _ => refuse .InvalidTag

def priority : Decode EffectPriorityV1 := do
  match ← u8 with
  | 0 => return .Normal
  | 1 => return .Recovery
  | 2 => return .SecretPublicUrgent
  | _ => refuse .InvalidTag

def timerKind : Decode TimerKindV1 := do
  match ← u8 with
  | 0 => return .Deadline
  | 1 => return .Retry
  | 2 => return .Reconcile
  | _ => refuse .InvalidTag

def exposureSource : Decode ExposureSourceV1 := do
  match ← u8 with
  | 0 => return .Mempool
  | 1 => return .Externalized
  | 2 => return .Block
  | 3 => return .PeerEvidence
  | _ => refuse .InvalidTag

def exposure : Decode PublicExposureV1 := do
  let value := ⟨← exposureSource, ← digest, ← digest, ← digest, ← u64⟩
  check (validateExposure value)
  return value

def reference : Decode EffectReferenceV1 := do
  let value := ⟨← digest, ← u64, ← digest, ← bool, ← optional digest⟩
  check (validateEffectReference value)
  return value

def actionState : Decode ActionStateV1 := do
  match ← u8 with
  | 0 => return .NotPrepared
  | 1 => return .Committed (← reference)
  | 2 => return .Externalized (← reference) (← digest)
  | 3 => return .Final (← reference) (← digest) (← digest)
  | 4 => return .FinalityInvalidated (← reference) (← digest) (← digest) (← digest)
  | _ => refuse .InvalidTag

def legSnapshot : Decode LegSnapshotV1 := do return ⟨← actionState, ← actionState, ← actionState⟩

def secret : Decode SecretVisibilityV1 := do
  match ← u8 with
  | 0 => return .Private
  | 1 => return .Public (← exposure)
  | _ => refuse .InvalidTag

def bindings : Decode FrozenBindingsV1 := do return ⟨← digest, ← digest, ← digest⟩

def refunds : Decode RefundBindingsV1 := do return ⟨← digest, ← digest⟩

def timeFacts : Decode FrozenRouteTimeFactsV2 := do
  return ⟨← digest, ← digest, ← digest, ← digest, ← u64, ← u64, ← u64, ← u64⟩

def checkpointFields : Decode FrozenRouteAdmissionCheckpointV2 := do
  return ⟨← digest, ← digest, ← bindings, ← digest, ← u64, ← digest, ← digest, ← digest, ← digest, ← digest, ← digest,
    ← digest, ← digest, ← digest, ← digest, ← timeFacts⟩

def frozenAdmissionCheckpointV2 : Decode FrozenRouteAdmissionCheckpointV2 := do
  let value ← checkpointFields
  check (validateFrozenAdmissionCheckpointV2 value)
  return value

def dispatch : Decode EffectDispatchV1 := do
  match ← u8 with
  | 0 => return .RunnerPayload (← boundedBytes maxEffectPayloadBytes) (← digest)
  | 1 => return .ExternalCustody (← digest) (← digest)
  | _ => refuse .InvalidTag

section Objects

variable (H : List UInt8 → Digest32)

def intent : Decode ActionIntentV1 := do
  let value := ⟨← legId, ← actionKind, ← digest, ← bool, ← dispatch⟩
  check (validateEffectDispatch H value.dispatch value.containsRouteSecret)
  return value

def event : Decode RouteEventV1 := do
  match ← u8 with
  | 0 => return .FreezeTerms (← bindings)
  | 1 => return .ArmRefunds (← refunds)
  | 2 => return .CommitAction (← intent H)
  | 3 => return .ActionExternalized (← legId) (← actionKind) (← digest) (← digest) (← optional exposure)
  | 4 => return .ActionFinalized (← legId) (← actionKind) (← digest) (← digest)
  | 5 => return .ObservationInvalidated (← legId) (← actionKind) (← digest) (← digest)
  | 6 => return .SecretObserved (← exposure)
  | 7 => return .SetHealth (← health) (← digest)
  | 8 => return .ScheduleTimer (← timerKind) (← u64) (← digest)
  | 9 => return .CancelTimer (← digest)
  | 10 => return .AbortUnfunded (← digest)
  | 11 => return .ReauthorizeCommittedAction (← digest) (← digest) (← intent H)
  | 12 => return .ReauthorizePartiallyExternalizedCustody (← digest) (← digest) (← intent H)
  | 13 => return .CustodyProgressRecorded (← legId) (← actionKind) (← digest) (← digest) (← optional exposure)
  | 14 => return .FreezeTermsV2 (← frozenAdmissionCheckpointV2)
  | _ => refuse .InvalidTag

end Objects

def snapshot : Decode RouteSnapshotV1 := do
  return ⟨← digest, ← u64, ← coordination, ← legSnapshot, ← legSnapshot, ← secret, ← health, ← optional bindings,
    ← optional refunds, ← bool, ← u64, ← digest⟩

def effect : Decode RouteEffectV1 := do
  return ⟨← digest, ← digest, ← u64, ← legId, ← actionKind, ← priority, ← digest, ← bool, ← dispatch⟩

def timer : Decode RouteTimerV1 := do return ⟨← digest, ← digest, ← u64, ← timerKind, ← u64, ← digest⟩

/-- One complete object: the magic, the value, nothing after it, and the checks of the value. -/
def object {α : Type} (magic : String) (value : Decode α) (validate : α → Except CodecErrorV1 Unit)
    (bytes : List UInt8) : Except CodecErrorV1 α := do
  rejectIf (maxCanonicalBytes < bytes.length) .TooLarge
  rejectIf (bytes.length < 4) .Truncated
  rejectIf (bytes.take 4 ≠ strBytes magic) .InvalidTag
  let (found, rest) ← value (bytes.drop 4)
  rejectIf (rest ≠ []) .TrailingBytes
  validate found
  return found

end Codec

def RouteSnapshotV1.decodeCanonical : List UInt8 → Except CodecErrorV1 RouteSnapshotV1 :=
  Codec.object "DRS1" Codec.snapshot RouteSnapshotV1.validate

def RouteTimerV1.decodeCanonical : List UInt8 → Except CodecErrorV1 RouteTimerV1 :=
  Codec.object "DRT1" Codec.timer validateTimer

section Decoding

variable (H : List UInt8 → Digest32)

def RouteEventV1.decodeCanonical : List UInt8 → Except CodecErrorV1 RouteEventV1 :=
  Codec.object "DRE1" (Codec.event H) (validateEvent H)

def RouteEffectV1.decodeCanonical : List UInt8 → Except CodecErrorV1 RouteEffectV1 :=
  Codec.object "DRX1" Codec.effect (validateEffect H)

end Decoding

/-! ## What the decoders read back -/

namespace Codec

theorem reads_u8 (value : UInt8) : Reads u8 [value] value := Reads.byte value

theorem reads_u32 {value : Nat} (h : value < 256 ^ 4) : Reads u32 (beBytes 4 value) value := by
  have hread : Reads u32 (beBytes 4 value) (ofBeBytes (beBytes 4 value)) :=
    (Reads.take (beBytes 4 value) (length_beBytes 4 value)).map
  rwa [ofBeBytes_beBytes h] at hread

theorem reads_u64 (value : UInt64) : Reads u64 (encodeU64 value) value := by
  have hread : Reads u64 (encodeU64 value) (UInt64.ofNat (ofBeBytes (encodeU64 value))) :=
    (Reads.take (encodeU64 value) (length_beBytes 8 value.toNat)).map
  have hvalue : ofBeBytes (encodeU64 value) = value.toNat := ofBeBytes_beBytes (by simpa using value.toNat_lt)
  rw [hvalue] at hread
  simpa using hread

@[simp] theorem length_hashBytes (value : Digest32) : (hashBytes value).length = 32 := length_beBytes 32 value.toNat

theorem reads_digest (value : Digest32) : Reads digest (hashBytes value) value := by
  have hread : Reads digest (hashBytes value) (BitVec.ofNat 256 (ofBeBytes (hashBytes value))) :=
    (Reads.take (hashBytes value) (length_hashBytes value)).map
  rw [ofBeBytes_hashBytes] at hread
  simpa using hread

theorem reads_bool (value : Bool) : Reads bool (encodeBool value) value := by
  cases value with
  | false => exact Reads.tag 0 (Reads.pure false)
  | true => exact Reads.tag 1 (Reads.pure true)

variable {α : Type}

theorem reads_optional {decode : Decode α} {encode : α → List UInt8} {value : Option α}
    (h : ∀ a, value = some a → Reads decode (encode a) a) :
    Reads (optional decode) (encodeOptional encode value) value := by
  cases value with
  | none => exact Reads.tag 0 (Reads.pure none)
  | some a => exact Reads.tag 1 (Reads.map (h a rfl))

theorem reads_boundedBytes {bytes : List UInt8} {max : Nat} (h : bytes.length ≤ max) (hmax : max ≤ maxCanonicalBytes) :
    Reads (boundedBytes max) (beBytes 4 bytes.length ++ bytes) bytes := by
  have hbd : bytes.length < 256 ^ 4 := by
    rw [maxCanonicalBytes] at hmax
    omega
  refine (reads_u32 hbd).bind (Reads.check ?_ (Reads.take bytes rfl))
  rw [rejectIf_eq_ok]
  omega

theorem reads_coordination (value : CoordinationPhaseV1) : Reads coordination (encodeCoordination value) value := by
  cases value <;> exact Reads.tag _ (Reads.pure _)

theorem reads_health (value : HealthStateV1) : Reads health (encodeHealth value) value := by
  cases value <;> exact Reads.tag _ (Reads.pure _)

theorem reads_legId (value : LegIdV1) : Reads legId (encodeLegId value) value := by
  cases value <;> exact Reads.tag _ (Reads.pure _)

theorem reads_actionKind (value : ActionKindV1) : Reads actionKind (encodeActionKind value) value := by
  cases value <;> exact Reads.tag _ (Reads.pure _)

theorem reads_priority (value : EffectPriorityV1) : Reads priority (encodePriority value) value := by
  cases value <;> exact Reads.tag _ (Reads.pure _)

theorem reads_timerKind (value : TimerKindV1) : Reads timerKind (encodeTimerKind value) value := by
  cases value <;> exact Reads.tag _ (Reads.pure _)

theorem reads_exposureSource (value : ExposureSourceV1) : Reads exposureSource (encodeExposureSource value) value := by
  cases value <;> exact Reads.tag _ (Reads.pure _)

theorem reads_exposure {value : PublicExposureV1} (h : validateExposure value = .ok ()) :
    Reads exposure (encodeExposure value) value := by
  simp only [encodeExposure, List.append_assoc]
  exact (reads_exposureSource _).bind <| (reads_digest _).bind <| (reads_digest _).bind <| (reads_digest _).bind <|
    (reads_u64 _).last <| Reads.check h <| Reads.pure value

theorem reads_reference {value : EffectReferenceV1} (h : validateEffectReference value = .ok ()) :
    Reads reference (encodeReference value) value := by
  simp only [encodeReference, List.append_assoc]
  exact (reads_digest _).bind <| (reads_u64 _).bind <| (reads_digest _).bind <| (reads_bool _).bind <|
    (reads_optional fun a _ => reads_digest a).last <| Reads.check h <| Reads.pure value

theorem reads_actionState {value : ActionStateV1} (h : validateActionState value = .ok ()) :
    Reads actionState (encodeActionState value) value := by
  cases value with
  | NotPrepared => exact Reads.tag 0 (Reads.pure _)
  | Committed effect => exact Reads.tag 1 (Reads.map (reads_reference h))
  | Externalized effect transactionId =>
    simp only [validateActionState, validateOut, inversion] at h
    exact Reads.tag 2 <| (reads_reference h.1).bind <| Reads.map (reads_digest transactionId)
  | Final effect transactionId evidence =>
    simp only [validateActionState, validateOut, inversion] at h
    rw [encodeActionState, List.append_assoc]
    exact Reads.tag 3 <| (reads_reference h.1).bind <| (reads_digest transactionId).bind <|
      Reads.map (reads_digest evidence)
  | FinalityInvalidated effect transactionId prior reorg =>
    simp only [validateActionState, validateOut, inversion] at h
    rw [encodeActionState, List.append_assoc, List.append_assoc]
    exact Reads.tag 4 <| (reads_reference h.1).bind <| (reads_digest transactionId).bind <|
      (reads_digest prior).bind <| Reads.map (reads_digest reorg)

theorem reads_legSnapshot {value : LegSnapshotV1} (h : ∀ kind, validateActionState (value.action kind) = .ok ()) :
    Reads legSnapshot (encodeLeg value) value := by
  rw [encodeLeg, List.append_assoc]
  exact (reads_actionState (h .Funding)).bind <| (reads_actionState (h .Claim)).bind <|
    Reads.map (reads_actionState (h .Refund))

theorem reads_secret {value : SecretVisibilityV1} (h : validateSecret value = .ok ()) :
    Reads secret (encodeSecret value) value := by
  cases value with
  | Private => exact Reads.tag 0 (Reads.pure _)
  | Public exposure => exact Reads.tag 1 (Reads.map (reads_exposure h))

theorem reads_bindings (value : FrozenBindingsV1) : Reads bindings (encodeBindings value) value := by
  rw [encodeBindings, List.append_assoc]
  exact (reads_digest _).bind <| (reads_digest _).bind <|
    Reads.map (reads_digest _)

theorem reads_refunds (value : RefundBindingsV1) : Reads refunds (encodeRefunds value) value :=
  (reads_digest _).bind <| Reads.map (reads_digest _)

/-- The time facts at the end of a checkpoint. -/
def encodeTimeFacts (value : FrozenRouteTimeFactsV2) : List UInt8 :=
  hashBytes value.routeScopeDigest ++ (hashBytes value.policyDigest ++ (hashBytes value.evidenceDigest ++
    (hashBytes value.proofDigest ++ (encodeU64 value.evidenceSequence ++ (encodeU64 value.issuedAtSeconds ++
      (encodeU64 value.validUntilSeconds ++ encodeU64 value.validatedAtSeconds))))))

theorem reads_timeFacts (value : FrozenRouteTimeFactsV2) : Reads timeFacts (encodeTimeFacts value) value :=
  (reads_digest _).bind <| (reads_digest _).bind <|
    (reads_digest _).bind <| (reads_digest _).bind <|
    (reads_u64 _).bind <| (reads_u64 _).bind <|
    (reads_u64 _).bind <| Reads.map (reads_u64 _)

theorem reads_checkpointFields (value : FrozenRouteAdmissionCheckpointV2) :
    Reads checkpointFields (encodeFrozenAdmissionCheckpointV2 value) value := by
  unfold encodeFrozenAdmissionCheckpointV2
  simp only [List.append_assoc]
  refine (reads_digest _).bind ?_
  refine (reads_digest _).bind ?_
  refine (reads_bindings _).bind ?_
  refine (reads_digest _).bind ?_
  refine (reads_u64 _).bind ?_
  refine (reads_digest _).bind ?_
  refine (reads_digest _).bind ?_
  refine (reads_digest _).bind ?_
  refine (reads_digest _).bind ?_
  refine (reads_digest _).bind ?_
  refine (reads_digest _).bind ?_
  refine (reads_digest _).bind ?_
  refine (reads_digest _).bind ?_
  refine (reads_digest _).bind ?_
  refine (reads_digest _).bind ?_
  exact Reads.map (reads_timeFacts value.time)

theorem reads_frozenAdmissionCheckpointV2 {value : FrozenRouteAdmissionCheckpointV2}
    (h : validateFrozenAdmissionCheckpointV2 value = .ok ()) :
    Reads frozenAdmissionCheckpointV2 (encodeFrozenAdmissionCheckpointV2 value) value := by
  exact (reads_checkpointFields value).last <| Reads.check h <| Reads.pure value

variable {H : List UInt8 → Digest32}

theorem reads_dispatch
    (h : validateEffectDispatch H value contains = .ok ()) : Reads dispatch (encodeDispatch value) value := by
  cases value with
  | RunnerPayload payload payloadDigest =>
    simp only [validateEffectDispatch, rejectIf_eq_ok, not_or, Nat.not_lt] at h
    exact Reads.tag 0 <| (reads_boundedBytes h.2.2.1 (by decide)).bind <| Reads.map (reads_digest payloadDigest)
  | ExternalCustody custodyDigest transactionId =>
    exact Reads.tag 1 <| (reads_digest custodyDigest).bind <| Reads.map (reads_digest transactionId)

theorem reads_intent {value : ActionIntentV1}
    (h : validateEffectDispatch H value.dispatch value.containsRouteSecret = .ok ()) :
    Reads (intent H) (encodeIntent value) value := by
  simp only [encodeIntent, List.append_assoc]
  exact (reads_legId _).bind <| (reads_actionKind _).bind <| (reads_digest _).bind <| (reads_bool _).bind <|
    (reads_dispatch h).last <| Reads.check h <| Reads.pure value

theorem reads_event {value : RouteEventV1} (h : validateEvent H value = .ok ()) :
    Reads (event H) (encodeEventBody value) value := by
  cases value with
  | FreezeTerms value => exact Reads.tag 0 (Reads.map (reads_bindings value))
  | FreezeTermsV2 value => exact Reads.tag 14 (Reads.map (reads_frozenAdmissionCheckpointV2 h))
  | ArmRefunds value => exact Reads.tag 1 (Reads.map (reads_refunds value))
  | CommitAction value =>
    simp only [validateEvent, inversion] at h
    exact Reads.tag 2 (Reads.map (reads_intent h.2))
  | ReauthorizeCommittedAction priorEffectId evidence value =>
    simp only [validateEvent, inversion] at h
    rw [encodeEventBody, List.append_assoc]
    exact Reads.tag 11 <| (reads_digest priorEffectId).bind <| (reads_digest evidence).bind <|
      Reads.map (reads_intent h.2)
  | ReauthorizePartiallyExternalizedCustody priorEffectId evidence value =>
    simp only [validateEvent, inversion] at h
    rw [encodeEventBody, List.append_assoc]
    exact Reads.tag 12 <| (reads_digest priorEffectId).bind <| (reads_digest evidence).bind <|
      Reads.map (reads_intent h.2.2)
  | CustodyProgressRecorded leg kind effectId digest | ActionExternalized leg kind effectId digest =>
    simp only [validateEvent, inversion, validateSome_eq_ok] at h
    rw [encodeEventBody, List.append_assoc, List.append_assoc, List.append_assoc]
    exact Reads.tag _ <| (reads_legId leg).bind <| (reads_actionKind kind).bind <| (reads_digest effectId).bind <|
      (reads_digest digest).bind <| Reads.map (reads_optional fun a ha => reads_exposure (h.2.1 a ha))
  | ActionFinalized leg kind transactionId digest | ObservationInvalidated leg kind transactionId digest =>
    rw [encodeEventBody, List.append_assoc, List.append_assoc]
    exact Reads.tag _ <| (reads_legId leg).bind <| (reads_actionKind kind).bind <| (reads_digest transactionId).bind <|
      Reads.map (reads_digest digest)
  | SecretObserved value => exact Reads.tag 6 (Reads.map (reads_exposure h))
  | SetHealth target reason => exact Reads.tag 7 <| (reads_health target).bind <| Reads.map (reads_digest reason)
  | ScheduleTimer kind deadline context =>
    rw [encodeEventBody, List.append_assoc]
    exact Reads.tag 8 <| (reads_timerKind kind).bind <| (reads_u64 deadline).bind <| Reads.map (reads_digest context)
  | CancelTimer timerId => exact Reads.tag 9 (Reads.map (reads_digest timerId))
  | AbortUnfunded reason => exact Reads.tag 10 (Reads.map (reads_digest reason))

theorem reads_snapshot {value : RouteSnapshotV1} (h : Valid value) :
    Reads snapshot (encodeSnapshotBody value) value := by
  simp only [encodeSnapshotBody, List.append_assoc]
  refine (reads_digest _).bind ?_
  refine (reads_u64 _).bind ?_
  refine (reads_coordination _).bind ?_
  refine (reads_legSnapshot (h.action .Upstream)).bind ?_
  refine (reads_legSnapshot (h.action .Downstream)).bind ?_
  refine (reads_secret h.secret).bind ?_
  refine (reads_health _).bind ?_
  refine (reads_optional fun a _ => reads_bindings a).bind ?_
  refine (reads_optional fun a _ => reads_refunds a).bind ?_
  refine (reads_bool _).bind ?_
  exact (reads_u64 _).bind (Reads.map (reads_digest _))

theorem reads_effect {value : RouteEffectV1}
    (h : validateEffectDispatch H value.dispatch value.containsRouteSecret = .ok ()) :
    Reads effect (encodeEffectBody value) value := by
  simp only [encodeEffectBody, List.append_assoc]
  refine (reads_digest _).bind ?_
  refine (reads_digest _).bind ?_
  refine (reads_u64 _).bind ?_
  refine (reads_legId _).bind ?_
  refine (reads_actionKind _).bind ?_
  refine (reads_priority _).bind ?_
  refine (reads_digest _).bind ?_
  exact (reads_bool _).bind (Reads.map (reads_dispatch h))

theorem reads_timer (value : RouteTimerV1) : Reads timer (encodeTimerBody value) value := by
  simp only [encodeTimerBody, List.append_assoc]
  exact (reads_digest _).bind <| (reads_digest _).bind <| (reads_u64 _).bind <| (reads_timerKind _).bind <|
    (reads_u64 _).bind <| Reads.map (reads_digest _)

/-! ## Lengths -/

@[simp] theorem length_encodeU64 (value : UInt64) : (encodeU64 value).length = 8 := length_beBytes 8 value.toNat

@[simp] theorem length_encodeBool (value : Bool) : (encodeBool value).length = 1 := rfl

@[simp] theorem length_encodeLegId (value : LegIdV1) : (encodeLegId value).length = 1 := by cases value <;> rfl

@[simp] theorem length_encodeActionKind (value : ActionKindV1) : (encodeActionKind value).length = 1 := by
  cases value <;> rfl

@[simp] theorem length_encodeHealth (value : HealthStateV1) : (encodeHealth value).length = 1 := by cases value <;> rfl

@[simp] theorem length_encodeCoordination (value : CoordinationPhaseV1) : (encodeCoordination value).length = 1 := by
  cases value <;> rfl

@[simp] theorem length_encodePriority (value : EffectPriorityV1) : (encodePriority value).length = 1 := by
  cases value <;> rfl

@[simp] theorem length_encodeTimerKind (value : TimerKindV1) : (encodeTimerKind value).length = 1 := by cases value <;> rfl

@[simp] theorem length_encodeExposure (value : PublicExposureV1) : (encodeExposure value).length = 105 := by
  have hsou : (encodeExposureSource value.source).length = 1 := by cases value.source <;> rfl
  simp [encodeExposure, hsou]

@[simp] theorem length_encodeBindings (value : FrozenBindingsV1) : (encodeBindings value).length = 96 := by
  simp [encodeBindings]

@[simp] theorem length_encodeRefunds (value : RefundBindingsV1) : (encodeRefunds value).length = 64 := by
  simp [encodeRefunds]

theorem length_encodeOptional_le {encode : α → List UInt8} {n : Nat} (h : ∀ a, (encode a).length ≤ n)
    (value : Option α) : (encodeOptional encode value).length ≤ n + 1 := by
  cases value with
  | none => exact Nat.succ_le_succ (Nat.zero_le n)
  | some a => exact Nat.succ_le_succ (h a)

theorem length_encodeActionState_le (value : ActionStateV1) : (encodeActionState value).length ≤ 203 := by
  have hrefc (effect : EffectReferenceV1) : (encodeReference effect).length ≤ 106 := by
    have htx := length_encodeOptional_le (fun a => (length_hashBytes a).le) effect.expectedTransactionId
    simp only [encodeReference, List.length_append, length_hashBytes, length_encodeU64, length_encodeBool]
    omega
  cases value with
  | NotPrepared => exact Nat.le_of_ble_eq_true rfl
  | Committed effect | Externalized effect _ | Final effect _ _ | FinalityInvalidated effect _ _ _ =>
    have := hrefc effect
    simp only [encodeActionState, List.length_cons, List.length_append, length_hashBytes]
    omega

theorem length_encodeDispatch_le
    (h : validateEffectDispatch H value contains = .ok ()) : (encodeDispatch value).length ≤ 65573 := by
  cases value with
  | RunnerPayload payload payloadDigest =>
    simp only [validateEffectDispatch, rejectIf_eq_ok, not_or, Nat.not_lt] at h
    have hmax : payload.length ≤ 65536 := h.2.2.1
    simp only [encodeDispatch, List.length_cons, List.length_append, length_hashBytes, length_beBytes]
    omega
  | ExternalCustody custodyDigest transactionId => simp [encodeDispatch]

theorem length_encodeIntent_le {value : ActionIntentV1}
    (h : validateEffectDispatch H value.dispatch value.containsRouteSecret = .ok ()) :
    (encodeIntent value).length ≤ 65608 := by
  have hdsp := length_encodeDispatch_le h
  simp only [encodeIntent, List.length_append, length_hashBytes, length_encodeLegId, length_encodeActionKind,
    length_encodeBool]
  omega

theorem length_encodeEventBody_le {value : RouteEventV1}
    (h : validateEvent H value = .ok ()) : (encodeEventBody value).length ≤ 65673 := by
  have hexposure := length_encodeOptional_le fun a => (length_encodeExposure a).le
  cases value with
  | CommitAction intent =>
    simp only [validateEvent, inversion] at h
    have hintent := length_encodeIntent_le h.2
    simp only [encodeEventBody, List.length_cons]
    omega
  | ReauthorizeCommittedAction priorEffectId evidence intent =>
    simp only [validateEvent, inversion] at h
    have hintent := length_encodeIntent_le h.2
    simp only [encodeEventBody, List.length_cons, List.length_append, length_hashBytes]
    omega
  | ReauthorizePartiallyExternalizedCustody priorEffectId evidence intent =>
    simp only [validateEvent, inversion] at h
    have hintent := length_encodeIntent_le h.2.2
    simp only [encodeEventBody, List.length_cons, List.length_append, length_hashBytes]
    omega
  | CustodyProgressRecorded leg kind effectId evidence exposure
  | ActionExternalized leg kind effectId transactionId exposure =>
    have := hexposure exposure
    simp only [encodeEventBody, List.length_cons, List.length_append, length_hashBytes, length_encodeLegId,
      length_encodeActionKind]
    omega
  | FreezeTermsV2 value =>
    rw [encodeEventBody, List.length_cons]
    unfold encodeFrozenAdmissionCheckpointV2
    simp only [List.length_append, length_hashBytes, length_encodeU64, length_encodeBindings]
    omega
  | _ => simp [encodeEventBody]

theorem length_encodeSnapshotBody_le (value : RouteSnapshotV1) : (encodeSnapshotBody value).length ≤ 1600 := by
  have hleg (leg : LegSnapshotV1) : (encodeLeg leg).length ≤ 609 := by
    have := length_encodeActionState_le leg.funding
    have := length_encodeActionState_le leg.claim
    have := length_encodeActionState_le leg.refund
    simp only [encodeLeg, List.length_append]
    omega
  have hsec : (encodeSecret value.secretVisibility).length ≤ 106 := by
    cases value.secretVisibility with
    | Private => exact Nat.le_of_ble_eq_true rfl
    | Public exposure => simp [encodeSecret]
  have := hleg value.upstream
  have := hleg value.downstream
  have := length_encodeOptional_le (fun a => (length_encodeBindings a).le) value.bindings
  have := length_encodeOptional_le (fun a => (length_encodeRefunds a).le) value.refunds
  simp only [encodeSnapshotBody, List.length_append, length_hashBytes, length_encodeU64, length_encodeCoordination,
    length_encodeHealth, length_encodeBool]
  omega

/-! ## Round trips -/

theorem object_eq_ok {magic : String} {p : Decode α} {validate : α → Except CodecErrorV1 Unit} {body : List UInt8}
    {value : α} (hmag : (strBytes magic).length = 4) (hread : Reads p body value)
    (hvalidate : validate value = .ok ()) (hbd : body.length + 4 ≤ maxCanonicalBytes) :
    object magic p validate (strBytes magic ++ body) = .ok value := by
  have hlen : (strBytes magic ++ body).length = body.length + 4 := by
    rw [List.length_append, hmag]
    omega
  have hfront : (strBytes magic ++ body).take 4 = strBytes magic := by rw [← hmag, List.take_left]
  have hrest : (strBytes magic ++ body).drop 4 = body := by rw [← hmag, List.drop_left]
  have hvalue : p body = .ok (value, []) := by simpa using hread []
  simp only [object, hfront, hrest, hvalue, inversion, ok_bind, hvalidate]
  exact ⟨by omega, by omega, not_not.mpr rfl, not_not.mpr rfl, trivial⟩

end Codec

variable {bytes : List UInt8}

/-- **A snapshot is decoded from its bytes.** -/
theorem RouteSnapshotV1.decode_encode {value : RouteSnapshotV1} (h : value.encodeCanonical = .ok bytes) :
    RouteSnapshotV1.decodeCanonical bytes = .ok value := by
  simp only [RouteSnapshotV1.encodeCanonical, inversion] at h
  obtain ⟨hval, rfl⟩ := h
  have hbd := Codec.length_encodeSnapshotBody_le value
  exact Codec.object_eq_ok (by decide +kernel) (Codec.reads_snapshot (validate_eq_ok.mp hval)) hval
    (by rw [maxCanonicalBytes]; omega)

/-- **A timer is decoded from its bytes.** -/
theorem RouteTimerV1.decode_encode {value : RouteTimerV1} (h : value.encodeCanonical = .ok bytes) :
    RouteTimerV1.decodeCanonical bytes = .ok value := by
  simp only [RouteTimerV1.encodeCanonical, inversion] at h
  obtain ⟨hval, rfl⟩ := h
  refine Codec.object_eq_ok (by decide +kernel) (Codec.reads_timer value) hval ?_
  simp [encodeTimerBody, maxCanonicalBytes]

variable {H : List UInt8 → Digest32}

/-- **An event is decoded from its bytes.** -/
theorem RouteEventV1.decode_encode {value : RouteEventV1} (h : value.encodeCanonical H = .ok bytes) :
    RouteEventV1.decodeCanonical H bytes = .ok value := by
  simp only [RouteEventV1.encodeCanonical, inversion] at h
  obtain ⟨hval, rfl⟩ := h
  have hbd := Codec.length_encodeEventBody_le hval
  exact Codec.object_eq_ok (by decide +kernel) (Codec.reads_event hval) hval (by rw [maxCanonicalBytes]; omega)

/-- **An effect is decoded from its bytes.** -/
theorem RouteEffectV1.decode_encode {value : RouteEffectV1} (h : value.encodeCanonical H = .ok bytes) :
    RouteEffectV1.decodeCanonical H bytes = .ok value := by
  simp only [RouteEffectV1.encodeCanonical, inversion] at h
  obtain ⟨hval, rfl⟩ := h
  have hdsp := hval
  simp only [validateEffect, inversion] at hdsp
  have hbd := Codec.length_encodeDispatch_le hdsp.2.2
  refine Codec.object_eq_ok (by decide +kernel) (Codec.reads_effect hdsp.2.2) hval ?_
  simp only [encodeEffectBody, List.length_append, Codec.length_hashBytes, Codec.length_encodeU64,
    Codec.length_encodeLegId, Codec.length_encodeActionKind, Codec.length_encodePriority, Codec.length_encodeBool,
    maxCanonicalBytes]
  omega

/-- **Route objects survive storage**: whatever the store writes, it reads back. -/
theorem stored_objects_decode (H : List UInt8 → Digest32) (bytes : List UInt8) :
    (∀ value : RouteSnapshotV1, value.encodeCanonical = .ok bytes → RouteSnapshotV1.decodeCanonical bytes = .ok value) ∧
    (∀ value : RouteEventV1, value.encodeCanonical H = .ok bytes → RouteEventV1.decodeCanonical H bytes = .ok value) ∧
    (∀ value : RouteEffectV1, value.encodeCanonical H = .ok bytes → RouteEffectV1.decodeCanonical H bytes = .ok value) ∧
    ∀ value : RouteTimerV1, value.encodeCanonical = .ok bytes → RouteTimerV1.decodeCanonical bytes = .ok value :=
  ⟨fun _ => RouteSnapshotV1.decode_encode, fun _ => RouteEventV1.decode_encode, fun _ => RouteEffectV1.decode_encode,
    fun _ => RouteTimerV1.decode_encode⟩

end DomProtocol.Route
