import DomProtocol.Route.Model

/-!
# `Route.Event` — route events, their checks and their canonical bytes

The inputs of the reducer with the checks each has to pass, and their canonical encoding, from which the digest of an
event is taken.  The digest itself (BLAKE2b-256) is outside the repository and is the parameter `H`.
-/

namespace DomProtocol.Route

open Lib

/-! ## Intents and events -/

/-- Exact dispatch material or an external-custody commitment. -/
inductive EffectDispatchV1 where
  | RunnerPayload (payload : List UInt8) (payloadDigest : Digest32)
  | ExternalCustody (custodyDigest transactionId : Digest32)
  deriving DecidableEq, Repr

/-- `matches!(dispatch, ExternalCustody { .. })`. -/
def EffectDispatchV1.isCustody : EffectDispatchV1 → Bool
  | RunnerPayload _ _ => false
  | ExternalCustody _ _ => true

/-- The transaction id known before dispatch. -/
def EffectDispatchV1.expectedTransactionId : EffectDispatchV1 → Option Digest32
  | RunnerPayload _ _ => none
  | ExternalCustody _ transactionId => some transactionId

structure ActionIntentV1 where
  leg : LegIdV1
  kind : ActionKindV1
  semanticDigest : Digest32
  containsRouteSecret : Bool
  dispatch : EffectDispatchV1
  deriving DecidableEq, Repr

inductive TimerKindV1 where
  | Deadline
  | Retry
  | Reconcile
  deriving DecidableEq, Repr

inductive RouteEventV1 where
  | FreezeTerms (bindings : FrozenBindingsV1)
  | FreezeTermsV2 (checkpoint : FrozenRouteAdmissionCheckpointV2)
  | ArmRefunds (refunds : RefundBindingsV1)
  | CommitAction (intent : ActionIntentV1)
  | ReauthorizeCommittedAction (priorEffectId nonExternalizationEvidenceDigest : Digest32) (intent : ActionIntentV1)
  | ReauthorizePartiallyExternalizedCustody (priorEffectId partialExternalizationEvidenceDigest : Digest32)
      (intent : ActionIntentV1)
  | CustodyProgressRecorded (leg : LegIdV1) (kind : ActionKindV1) (effectId progressEvidenceDigest : Digest32)
      (exposure : Option PublicExposureV1)
  | ActionExternalized (leg : LegIdV1) (kind : ActionKindV1) (effectId transactionId : Digest32)
      (exposure : Option PublicExposureV1)
  | ActionFinalized (leg : LegIdV1) (kind : ActionKindV1) (transactionId evidenceDigest : Digest32)
  | ObservationInvalidated (leg : LegIdV1) (kind : ActionKindV1) (transactionId reorgEvidenceDigest : Digest32)
  | SecretObserved (exposure : PublicExposureV1)
  | SetHealth (target : HealthStateV1) (reasonDigest : Digest32)
  | ScheduleTimer (kind : TimerKindV1) (deadlineUnixMs : UInt64) (contextDigest : Digest32)
  | CancelTimer (timerId : Digest32)
  | AbortUnfunded (reasonDigest : Digest32)
  deriving DecidableEq, Repr

/-! ## What an event produces -/

inductive EffectPriorityV1 where
  | Normal
  | Recovery
  | SecretPublicUrgent
  deriving DecidableEq, Repr

/-- Declarative effect produced by a committed event. -/
structure RouteEffectV1 where
  routeId : Digest32
  effectId : Digest32
  fencingEpoch : UInt64
  leg : LegIdV1
  kind : ActionKindV1
  priority : EffectPriorityV1
  semanticDigest : Digest32
  containsRouteSecret : Bool
  dispatch : EffectDispatchV1
  deriving DecidableEq, Repr

/-- One durable timer generated by an event. -/
structure RouteTimerV1 where
  routeId : Digest32
  timerId : Digest32
  fencingEpoch : UInt64
  kind : TimerKindV1
  deadlineUnixMs : UInt64
  contextDigest : Digest32
  deriving DecidableEq, Repr

inductive RouteTimerMutationV1 where
  | Schedule (timer : RouteTimerV1)
  | Cancel (timerId : Digest32)
  deriving DecidableEq, Repr

/-- Reducer output, persisted as one unit by the durable store. -/
structure RouteDecisionV1 where
  snapshot : RouteSnapshotV1
  effects : List RouteEffectV1
  supersededEffects : List Digest32
  timers : List RouteTimerMutationV1
  deriving DecidableEq, Repr

/-! ## Checks -/

def maxEffectPayloadBytes : Nat := 65536

section Checks

variable (H : List UInt8 → Digest32)

def validateEffectDispatch (dispatch : EffectDispatchV1) (containsRouteSecret : Bool) : Except CodecErrorV1 Unit :=
  match dispatch with
  | .RunnerPayload payload payloadDigest =>
    rejectIf (containsRouteSecret ∨ payload = [] ∨ maxEffectPayloadBytes < payload.length ∨
      H payload ≠ payloadDigest) .InvalidValue
  | .ExternalCustody custodyDigest transactionId => validateNonzeroMany [custodyDigest, transactionId]

def validateFrozenAdmissionCheckpointV2 (value : FrozenRouteAdmissionCheckpointV2) : Except CodecErrorV1 Unit := do
  validateNonzeroMany [value.networkId, value.routeId, value.bindings.termsDigest, value.bindings.profileBundleDigest,
    value.bindings.deploymentBundleDigest, value.compositionV2Digest, value.registryManifestDigest,
    value.upstreamTermsDigest, value.downstreamTermsDigest, value.upstreamRosterSnapshot,
    value.downstreamRosterSnapshot, value.participantBindingsDigest, value.relayBindingDigest,
    value.registryAuthoritySetDigest, value.timePolicyAuthoritySetDigest, value.timeEvidenceAuthoritySetDigest,
    value.time.routeScopeDigest, value.time.policyDigest, value.time.evidenceDigest, value.time.proofDigest]
  rejectIf (value.registryEpoch = 0 ∨ value.time.evidenceSequence = 0 ∨ value.time.issuedAtSeconds = 0 ∨
    value.time.validatedAtSeconds < value.time.issuedAtSeconds ∨
    value.time.validUntilSeconds ≤ value.time.validatedAtSeconds ∨
    value.bindings.deploymentBundleDigest ≠ value.registryManifestDigest ∨
    value.upstreamTermsDigest = value.downstreamTermsDigest ∨
    value.upstreamRosterSnapshot = value.downstreamRosterSnapshot ∨
    value.registryAuthoritySetDigest = value.timePolicyAuthoritySetDigest ∨
    value.registryAuthoritySetDigest = value.timeEvidenceAuthoritySetDigest ∨
    value.timePolicyAuthoritySetDigest = value.timeEvidenceAuthoritySetDigest) .InvalidValue

def validateEvent : RouteEventV1 → Except CodecErrorV1 Unit
  | .FreezeTerms value => validateBindings value
  | .FreezeTermsV2 value => validateFrozenAdmissionCheckpointV2 value
  | .ArmRefunds value => validateRefunds value
  | .CommitAction intent => do
      validateDigest intent.semanticDigest
      validateEffectDispatch H intent.dispatch intent.containsRouteSecret
  | .ReauthorizeCommittedAction priorEffectId nonExternalizationEvidenceDigest intent => do
      validateNonzeroMany [priorEffectId, nonExternalizationEvidenceDigest, intent.semanticDigest]
      validateEffectDispatch H intent.dispatch intent.containsRouteSecret
  | .ReauthorizePartiallyExternalizedCustody priorEffectId partialExternalizationEvidenceDigest intent => do
      validateNonzeroMany [priorEffectId, partialExternalizationEvidenceDigest, intent.semanticDigest]
      rejectIf (intent.dispatch.isCustody = false) .InvalidValue
      validateEffectDispatch H intent.dispatch intent.containsRouteSecret
  | .CustodyProgressRecorded _ _ effectId progressEvidenceDigest exposure => do
      validateNonzeroMany [effectId, progressEvidenceDigest]
      validateSome validateExposure exposure
      rejectIf (exposure.any (·.source ≠ .Externalized)) .InvalidValue
  | .ActionExternalized _ _ effectId transactionId exposure => do
      validateNonzeroMany [effectId, transactionId]
      validateSome validateExposure exposure
      rejectIf (exposure.any (·.transactionId ≠ transactionId)) .InvalidValue
  | .ActionFinalized _ _ transactionId evidenceDigest => validateNonzeroMany [transactionId, evidenceDigest]
  | .ObservationInvalidated _ _ transactionId reorgEvidenceDigest =>
    validateNonzeroMany [transactionId, reorgEvidenceDigest]
  | .SecretObserved exposure => validateExposure exposure
  | .SetHealth _ reasonDigest | .AbortUnfunded reasonDigest => validateDigest reasonDigest
  | .ScheduleTimer _ deadlineUnixMs contextDigest => do
      rejectIf (deadlineUnixMs = 0) .InvalidValue
      validateDigest contextDigest
  | .CancelTimer timerId => validateDigest timerId

end Checks

/-! ## Canonical bytes -/

def encodeBool (value : Bool) : List UInt8 := [if value then 1 else 0]

def encodeU64 (value : UInt64) : List UInt8 := beBytes 8 value.toNat

def encodeOptional {α : Type} (encode : α → List UInt8) : Option α → List UInt8
  | none => [0]
  | some value => 1 :: encode value

def encodeLegId : LegIdV1 → List UInt8
  | .Upstream => [0]
  | .Downstream => [1]

def encodeActionKind : ActionKindV1 → List UInt8
  | .Funding => [0]
  | .Claim => [1]
  | .Refund => [2]

def encodeHealth : HealthStateV1 → List UInt8
  | .Running => [0]
  | .Degraded => [1]
  | .RecoveryOnly => [2]
  | .ManualIntervention => [3]

def encodeTimerKind : TimerKindV1 → List UInt8
  | .Deadline => [0]
  | .Retry => [1]
  | .Reconcile => [2]

def encodeExposureSource : ExposureSourceV1 → List UInt8
  | .Mempool => [0]
  | .Externalized => [1]
  | .Block => [2]
  | .PeerEvidence => [3]

def encodeExposure (value : PublicExposureV1) : List UInt8 :=
  encodeExposureSource value.source ++ hashBytes value.chainId ++ hashBytes value.transactionId ++
    hashBytes value.evidenceDigest ++ encodeU64 value.observedAtUnixMs

def encodeBindings (value : FrozenBindingsV1) : List UInt8 :=
  hashBytes value.termsDigest ++ hashBytes value.profileBundleDigest ++ hashBytes value.deploymentBundleDigest

def encodeRefunds (value : RefundBindingsV1) : List UInt8 :=
  hashBytes value.upstreamRefundDigest ++ hashBytes value.downstreamRefundDigest

def encodeFrozenAdmissionCheckpointV2 (value : FrozenRouteAdmissionCheckpointV2) : List UInt8 :=
  hashBytes value.networkId ++ hashBytes value.routeId ++ encodeBindings value.bindings ++
    hashBytes value.compositionV2Digest ++ encodeU64 value.registryEpoch ++ hashBytes value.registryManifestDigest ++
    hashBytes value.upstreamTermsDigest ++ hashBytes value.downstreamTermsDigest ++
    hashBytes value.upstreamRosterSnapshot ++ hashBytes value.downstreamRosterSnapshot ++
    hashBytes value.participantBindingsDigest ++ hashBytes value.relayBindingDigest ++
    hashBytes value.registryAuthoritySetDigest ++ hashBytes value.timePolicyAuthoritySetDigest ++
    hashBytes value.timeEvidenceAuthoritySetDigest ++ hashBytes value.time.routeScopeDigest ++
    hashBytes value.time.policyDigest ++ hashBytes value.time.evidenceDigest ++ hashBytes value.time.proofDigest ++
    encodeU64 value.time.evidenceSequence ++ encodeU64 value.time.issuedAtSeconds ++
    encodeU64 value.time.validUntilSeconds ++ encodeU64 value.time.validatedAtSeconds

def encodeDispatch : EffectDispatchV1 → List UInt8
  | .RunnerPayload payload payloadDigest =>
    0 :: (beBytes 4 payload.length ++ payload ++ hashBytes payloadDigest)
  | .ExternalCustody custodyDigest transactionId => 1 :: (hashBytes custodyDigest ++ hashBytes transactionId)

def encodeIntent (value : ActionIntentV1) : List UInt8 :=
  encodeLegId value.leg ++ encodeActionKind value.kind ++ hashBytes value.semanticDigest ++
    encodeBool value.containsRouteSecret ++ encodeDispatch value.dispatch

/-- The bytes of an event after the magic: its tag and its fields. -/
def encodeEventBody : RouteEventV1 → List UInt8
  | .FreezeTerms value => 0 :: encodeBindings value
  | .FreezeTermsV2 value => 14 :: encodeFrozenAdmissionCheckpointV2 value
  | .ArmRefunds value => 1 :: encodeRefunds value
  | .CommitAction intent => 2 :: encodeIntent intent
  | .ReauthorizeCommittedAction priorEffectId nonExternalizationEvidenceDigest intent =>
    11 :: (hashBytes priorEffectId ++ hashBytes nonExternalizationEvidenceDigest ++ encodeIntent intent)
  | .ReauthorizePartiallyExternalizedCustody priorEffectId partialExternalizationEvidenceDigest intent =>
    12 :: (hashBytes priorEffectId ++ hashBytes partialExternalizationEvidenceDigest ++ encodeIntent intent)
  | .CustodyProgressRecorded leg kind effectId progressEvidenceDigest exposure =>
    13 :: (encodeLegId leg ++ encodeActionKind kind ++ hashBytes effectId ++ hashBytes progressEvidenceDigest ++
      encodeOptional encodeExposure exposure)
  | .ActionExternalized leg kind effectId transactionId exposure =>
    3 :: (encodeLegId leg ++ encodeActionKind kind ++ hashBytes effectId ++ hashBytes transactionId ++
      encodeOptional encodeExposure exposure)
  | .ActionFinalized leg kind transactionId evidenceDigest =>
    4 :: (encodeLegId leg ++ encodeActionKind kind ++ hashBytes transactionId ++ hashBytes evidenceDigest)
  | .ObservationInvalidated leg kind transactionId reorgEvidenceDigest =>
    5 :: (encodeLegId leg ++ encodeActionKind kind ++ hashBytes transactionId ++ hashBytes reorgEvidenceDigest)
  | .SecretObserved exposure => 6 :: encodeExposure exposure
  | .SetHealth target reasonDigest => 7 :: (encodeHealth target ++ hashBytes reasonDigest)
  | .ScheduleTimer kind deadlineUnixMs contextDigest =>
    8 :: (encodeTimerKind kind ++ encodeU64 deadlineUnixMs ++ hashBytes contextDigest)
  | .CancelTimer timerId => 9 :: hashBytes timerId
  | .AbortUnfunded reasonDigest => 10 :: hashBytes reasonDigest

section Digests

variable (H : List UInt8 → Digest32)

/-- Canonical bytes of an event that passes its checks.  The payload bound keeps it far below the size cap of the
    writer. -/
def RouteEventV1.encodeCanonical (event : RouteEventV1) : Except CodecErrorV1 (List UInt8) := do
  validateEvent H event
  return strBytes "DRE1" ++ encodeEventBody event

def lengthPrefixed (bytes : List UInt8) : List UInt8 := beBytes 8 bytes.length ++ bytes

def domainDigest (domain : String) (parts : List (List UInt8)) : Digest32 :=
  H (lengthPrefixed (strBytes domain) ++ (parts.map lengthPrefixed).flatten)

/-- The outbox identity of an action authorization. -/
def deriveEffectId (routeId eventId : Digest32) (fencingEpoch : UInt64) (leg : LegIdV1) (kind : ActionKindV1)
    (semanticDigest : Digest32) : Digest32 :=
  domainDigest H "DOM-ROUTE-EFFECT-ID-V1"
    [hashBytes routeId, hashBytes eventId, encodeU64 fencingEpoch, encodeLegId leg, encodeActionKind kind,
      hashBytes semanticDigest]

def deriveTimerId (routeId eventId : Digest32) (fencingEpoch : UInt64) : Digest32 :=
  domainDigest H "DOM-ROUTE-TIMER-ID-V1" [hashBytes routeId, hashBytes eventId, encodeU64 fencingEpoch]

end Digests

end DomProtocol.Route
