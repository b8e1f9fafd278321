import DomProtocol.Crypto.Primitives
import DomProtocol.Settlement.State

/-!
# `Route.Model` — the snapshot of a composed route and its validation

A route has two legs, each with a funding, a claim and a refund.  The snapshot keeps the progress of the six actions,
whether the route secret is public, and the health of the route; the coordination phase is computed from the rest.
A snapshot is only ever stored after `validate` has passed it.
-/

namespace DomProtocol.Route

open Lib

/-! ## Phases, legs and actions -/

inductive CoordinationPhaseV1 where
  | Negotiating
  | TermsFrozen
  | RefundsArmed
  | Funding
  | Settling
  | Recovery
  | Terminal
  deriving DecidableEq, Repr

/-- Route health, independent of economic progress. -/
inductive HealthStateV1 where
  | Running
  | Degraded
  | RecoveryOnly
  | ManualIntervention
  deriving DecidableEq, Repr

/-- Whether this state disables unsafe or new economic progress. -/
def HealthStateV1.restrictsToRecovery (health : HealthStateV1) : Bool := health ≠ .Running

inductive LegIdV1 where
  | Upstream
  | Downstream
  deriving DecidableEq, Repr

inductive ActionKindV1 where
  | Funding
  | Claim
  | Refund
  deriving DecidableEq, Repr

inductive ActionProgressV1 where
  | NotPrepared
  | Committed
  | Externalized
  | Final
  deriving DecidableEq, Repr

/-- Commitment retained in a snapshot for an action. -/
structure EffectReferenceV1 where
  effectId : Digest32
  fencingEpoch : UInt64
  semanticDigest : Digest32
  containsRouteSecret : Bool
  expectedTransactionId : Option Digest32
  deriving DecidableEq, Repr

/-- Durable progress for one funding, claim or refund action. -/
inductive ActionStateV1 where
  | NotPrepared
  | Committed (effect : EffectReferenceV1)
  | Externalized (effect : EffectReferenceV1) (transactionId : Digest32)
  | Final (effect : EffectReferenceV1) (transactionId evidenceDigest : Digest32)
  | FinalityInvalidated (effect : EffectReferenceV1)
      (transactionId priorEvidenceDigest reorgEvidenceDigest : Digest32)
  deriving DecidableEq, Repr

namespace ActionStateV1

def progress : ActionStateV1 → ActionProgressV1
  | NotPrepared => .NotPrepared
  | Committed _ => .Committed
  | Externalized _ _ | FinalityInvalidated _ _ _ _ => .Externalized
  | Final _ _ _ => .Final

/-- The effect reference once an action exists. -/
def effect : ActionStateV1 → Option EffectReferenceV1
  | NotPrepared => none
  | Committed effect | Externalized effect _ | Final effect _ _ | FinalityInvalidated effect _ _ _ => some effect

/-- `matches!(state, Final { .. } | FinalityInvalidated { .. })`. -/
def wasFinal : ActionStateV1 → Bool
  | Final _ _ _ | FinalityInvalidated _ _ _ _ => true
  | _ => false

/-- `matches!(state, FinalityInvalidated { .. })`. -/
def isInvalidated : ActionStateV1 → Bool
  | FinalityInvalidated _ _ _ _ => true
  | _ => false

end ActionStateV1

/-- `matches!(progress, Externalized | Final)`. -/
def ActionProgressV1.isOut : ActionProgressV1 → Bool
  | Externalized | Final => true
  | _ => false

structure LegSnapshotV1 where
  funding : ActionStateV1
  claim : ActionStateV1
  refund : ActionStateV1
  deriving DecidableEq, Repr

namespace LegSnapshotV1

def idle : LegSnapshotV1 := ⟨.NotPrepared, .NotPrepared, .NotPrepared⟩

/-- Whether the leg has a reconciled final outcome. -/
def isTerminal (leg : LegSnapshotV1) : Bool := leg.claim.progress = .Final ∨ leg.refund.progress = .Final

/-- Whether committed or broadcast funding still requires claim or refund. -/
def hasOpenFunds (leg : LegSnapshotV1) : Bool := leg.funding.progress ≠ .NotPrepared ∧ leg.isTerminal = false

def action (leg : LegSnapshotV1) : ActionKindV1 → ActionStateV1
  | .Funding => leg.funding
  | .Claim => leg.claim
  | .Refund => leg.refund

def setAction (leg : LegSnapshotV1) (kind : ActionKindV1) (state : ActionStateV1) : LegSnapshotV1 :=
  match kind with
  | .Funding => { leg with funding := state }
  | .Claim => { leg with claim := state }
  | .Refund => { leg with refund := state }

end LegSnapshotV1

/-! ## The route secret, terms and refunds -/

/-- Source of the first irreversible public exposure. -/
inductive ExposureSourceV1 where
  | Mempool
  | Externalized
  | Block
  | PeerEvidence
  deriving DecidableEq, Repr

/-- Public-only description of an exposure. -/
structure PublicExposureV1 where
  source : ExposureSourceV1
  chainId : Digest32
  transactionId : Digest32
  evidenceDigest : Digest32
  observedAtUnixMs : UInt64
  deriving DecidableEq, Repr

inductive SecretVisibilityV1 where
  | Private
  | Public (firstExposure : PublicExposureV1)
  deriving DecidableEq, Repr

/-- `matches!(secret_visibility, Public { .. })`. -/
def SecretVisibilityV1.isPublic : SecretVisibilityV1 → Bool
  | Private => false
  | Public _ => true

/-- Digests frozen before refund construction. -/
structure FrozenBindingsV1 where
  termsDigest : Digest32
  profileBundleDigest : Digest32
  deploymentBundleDigest : Digest32
  deriving DecidableEq, Repr

/-- Public time facts consumed by the original V2 route admission. -/
structure FrozenRouteTimeFactsV2 where
  routeScopeDigest : Digest32
  policyDigest : Digest32
  evidenceDigest : Digest32
  proofDigest : Digest32
  evidenceSequence : UInt64
  issuedAtSeconds : UInt64
  validUntilSeconds : UInt64
  validatedAtSeconds : UInt64
  deriving DecidableEq, Repr

/-- Checkpoint journaled with a production V2 freeze. -/
structure FrozenRouteAdmissionCheckpointV2 where
  networkId : Digest32
  routeId : Digest32
  bindings : FrozenBindingsV1
  compositionV2Digest : Digest32
  registryEpoch : UInt64
  registryManifestDigest : Digest32
  upstreamTermsDigest : Digest32
  downstreamTermsDigest : Digest32
  upstreamRosterSnapshot : Digest32
  downstreamRosterSnapshot : Digest32
  participantBindingsDigest : Digest32
  relayBindingDigest : Digest32
  registryAuthoritySetDigest : Digest32
  timePolicyAuthoritySetDigest : Digest32
  timeEvidenceAuthoritySetDigest : Digest32
  time : FrozenRouteTimeFactsV2
  deriving DecidableEq, Repr

/-- Commitments proving that both exits were armed before funding. -/
structure RefundBindingsV1 where
  upstreamRefundDigest : Digest32
  downstreamRefundDigest : Digest32
  deriving DecidableEq, Repr

/-! ## Snapshots -/

structure RouteSnapshotV1 where
  routeId : Digest32
  revision : UInt64
  coordination : CoordinationPhaseV1
  upstream : LegSnapshotV1
  downstream : LegSnapshotV1
  secretVisibility : SecretVisibilityV1
  health : HealthStateV1
  bindings : Option FrozenBindingsV1
  refunds : Option RefundBindingsV1
  abortedUnfunded : Bool
  lastEventSequence : UInt64
  lastEventDigest : Digest32
  deriving DecidableEq, Repr

inductive CodecErrorV1 where
  | TooLarge
  | Truncated
  | InvalidTag
  | TrailingBytes
  | InvalidValue
  deriving DecidableEq, Repr

namespace RouteSnapshotV1

/-- The only permitted initial route snapshot. -/
def new (routeId : Digest32) : Except CodecErrorV1 RouteSnapshotV1 :=
  if routeId = 0 then .error .InvalidValue
  else .ok {
    routeId
    revision := 0
    coordination := .Negotiating
    upstream := .idle
    downstream := .idle
    secretVisibility := .Private
    health := .Running
    bindings := none
    refunds := none
    abortedUnfunded := false
    lastEventSequence := 0
    lastEventDigest := 0 }

/-- Whether either leg still carries committed economic authority or funds. -/
def hasOpenFunds (s : RouteSnapshotV1) : Bool := s.upstream.hasOpenFunds || s.downstream.hasOpenFunds

def leg (s : RouteSnapshotV1) : LegIdV1 → LegSnapshotV1
  | .Upstream => s.upstream
  | .Downstream => s.downstream

def setLeg (s : RouteSnapshotV1) (leg : LegIdV1) (value : LegSnapshotV1) : RouteSnapshotV1 :=
  match leg with
  | .Upstream => { s with upstream := value }
  | .Downstream => { s with downstream := value }

/-- `*snapshot.leg_mut(leg).action_mut(kind) = state`. -/
def setAction (s : RouteSnapshotV1) (leg : LegIdV1) (kind : ActionKindV1) (state : ActionStateV1) : RouteSnapshotV1 :=
  s.setLeg leg ((s.leg leg).setAction kind state)

def actions (s : RouteSnapshotV1) : List ActionStateV1 :=
  [s.upstream.funding, s.upstream.claim, s.upstream.refund, s.downstream.funding, s.downstream.claim,
    s.downstream.refund]

/-- The phase that the rest of a snapshot determines. -/
def phase (s : RouteSnapshotV1) : CoordinationPhaseV1 :=
  if s.abortedUnfunded ∨ (s.upstream.isTerminal ∧ s.downstream.isTerminal) then .Terminal
  else if s.health.restrictsToRecovery ∧ s.hasOpenFunds then .Recovery
  else if s.upstream.claim.progress ≠ .NotPrepared ∨ s.downstream.claim.progress ≠ .NotPrepared ∨
      s.upstream.refund.progress ≠ .NotPrepared ∨ s.downstream.refund.progress ≠ .NotPrepared ∨
      s.secretVisibility.isPublic then .Settling
  else if s.upstream.funding.progress ≠ .NotPrepared ∨ s.downstream.funding.progress ≠ .NotPrepared then .Funding
  else if s.refunds.isSome then .RefundsArmed
  else if s.bindings.isSome then .TermsFrozen
  else .Negotiating

def recomputeCoordination (s : RouteSnapshotV1) : RouteSnapshotV1 := { s with coordination := s.phase }

end RouteSnapshotV1

/-! ## Validation -/

def validateNonzeroMany (values : List Digest32) : Except CodecErrorV1 Unit :=
  rejectIf (values.any (· = 0)) .InvalidValue

def validateDigest (value : Digest32) : Except CodecErrorV1 Unit := rejectIf (value = 0) .InvalidValue

/-- A check of a value that need not be there. -/
def validateSome {α : Type} (check : α → Except CodecErrorV1 Unit) : Option α → Except CodecErrorV1 Unit
  | some value => check value
  | none => pure ()

def validateEffectReference (reference : EffectReferenceV1) : Except CodecErrorV1 Unit := do
  rejectIf (reference.fencingEpoch = 0) .InvalidValue
  validateNonzeroMany [reference.effectId, reference.semanticDigest]
  validateSome validateDigest reference.expectedTransactionId

def validateExposure (exposure : PublicExposureV1) : Except CodecErrorV1 Unit :=
  validateNonzeroMany [exposure.chainId, exposure.transactionId, exposure.evidenceDigest]

/-- The checks an externalized action shares in every state it can be in: its reference, the digests of its evidence,
    and the transaction it was expected to be. -/
def validateOut (effect : EffectReferenceV1) (transactionId : Digest32) (evidence : List Digest32) :
    Except CodecErrorV1 Unit := do
  validateEffectReference effect
  validateNonzeroMany (transactionId :: evidence)
  rejectIf (effect.expectedTransactionId.any (· ≠ transactionId)) .InvalidValue

def validateActionState : ActionStateV1 → Except CodecErrorV1 Unit
  | .NotPrepared => pure ()
  | .Committed reference => validateEffectReference reference
  | .Externalized effect transactionId => validateOut effect transactionId []
  | .Final effect transactionId evidenceDigest => validateOut effect transactionId [evidenceDigest]
  | .FinalityInvalidated effect transactionId priorEvidenceDigest reorgEvidenceDigest =>
    validateOut effect transactionId [priorEvidenceDigest, reorgEvidenceDigest]

def validateLeg (leg : LegSnapshotV1) : Except CodecErrorV1 Unit := do
  validateActionState leg.funding
  validateActionState leg.claim
  validateActionState leg.refund
  rejectIf (leg.claim.progress ≠ .NotPrepared ∧ leg.refund.progress ≠ .NotPrepared) .InvalidValue
  rejectIf ((leg.claim.progress ≠ .NotPrepared ∨ leg.refund.progress ≠ .NotPrepared) ∧
    leg.funding.progress = .NotPrepared) .InvalidValue

/-- Claims carry the route secret, fundings and refunds do not. -/
def validateActionPurpose (state : ActionStateV1) (kind : ActionKindV1) : Except CodecErrorV1 Unit :=
  match state.effect with
  | none => pure ()
  | some effect =>
    match kind with
    | .Claim => rejectIf (effect.containsRouteSecret = false) .InvalidValue
    | .Funding | .Refund => rejectIf effect.containsRouteSecret .InvalidValue

def validateSecret : SecretVisibilityV1 → Except CodecErrorV1 Unit
  | .Private => pure ()
  | .Public firstExposure => validateExposure firstExposure

/-- The order of a leg's actions: a refund needs funding that is out, a claim funding that was final. -/
def validateExits (leg : LegSnapshotV1) : Except CodecErrorV1 Unit := do
  rejectIf (leg.refund.progress ≠ .NotPrepared ∧ leg.funding.progress.isOut = false) .InvalidValue
  rejectIf (leg.claim.progress ≠ .NotPrepared ∧ leg.funding.wasFinal = false) .InvalidValue

def validateBindings (bindings : FrozenBindingsV1) : Except CodecErrorV1 Unit :=
  validateNonzeroMany [bindings.termsDigest, bindings.profileBundleDigest, bindings.deploymentBundleDigest]

def validateRefunds (refunds : RefundBindingsV1) : Except CodecErrorV1 Unit :=
  validateNonzeroMany [refunds.upstreamRefundDigest, refunds.downstreamRefundDigest]

def RouteSnapshotV1.validate (s : RouteSnapshotV1) : Except CodecErrorV1 Unit := do
  rejectIf (s.routeId = 0) .InvalidValue
  rejectIf (s.revision ≠ s.lastEventSequence) .InvalidValue
  rejectIf (s.revision = 0 ∧ s.lastEventDigest ≠ 0) .InvalidValue
  rejectIf (s.refunds.isSome ∧ s.bindings.isNone) .InvalidValue
  rejectIf (s.actions.any (·.progress ≠ .NotPrepared) ∧ s.refunds.isNone) .InvalidValue
  rejectIf (s.abortedUnfunded ∧ (s.hasOpenFunds ∨ s.secretVisibility.isPublic)) .InvalidValue
  validateLeg s.upstream
  validateLeg s.downstream
  validateActionPurpose s.upstream.funding .Funding
  validateActionPurpose s.upstream.claim .Claim
  validateActionPurpose s.upstream.refund .Refund
  validateActionPurpose s.downstream.funding .Funding
  validateActionPurpose s.downstream.claim .Claim
  validateActionPurpose s.downstream.refund .Refund
  rejectIf (s.downstream.funding.progress ≠ .NotPrepared ∧ s.upstream.funding.wasFinal = false) .InvalidValue
  rejectIf (s.actions.any (·.isInvalidated) ∧ s.health.restrictsToRecovery = false) .InvalidValue
  validateExits s.upstream
  validateExits s.downstream
  rejectIf (s.upstream.claim.progress ≠ .NotPrepared ∧ s.secretVisibility.isPublic = false) .InvalidValue
  rejectIf ((s.upstream.claim.progress.isOut ∨ s.downstream.claim.progress.isOut) ∧
    s.secretVisibility.isPublic = false) .InvalidValue
  validateSecret s.secretVisibility
  validateSome validateBindings s.bindings
  validateSome validateRefunds s.refunds
  rejectIf (s.recomputeCoordination.coordination ≠ s.coordination) .InvalidValue

end DomProtocol.Route
