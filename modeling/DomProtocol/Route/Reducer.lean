import DomProtocol.Route.Event

/-!
# `Route.Reducer` — the pure route transition function

One event is applied to a snapshot: the event's own rule changes the snapshot and says which effects and timers go
with it (`reduceEvent`), then the counters and the phase are brought up to date and the result is validated
(`reduceRoute`).  The rule that decides whether a committed effect may be dispatched stands at the end.
-/

namespace DomProtocol.Route

open Lib

inductive ReduceErrorV1 where
  | InvalidMaterial
  | InvalidTransition
  | RefundsNotArmed
  | UpstreamNotFinal
  | ClaimPrecondition
  | RecoveryOnly
  | RecoveryLocked
  | SecretCustodyRequired
  | ExposureRequired
  | CounterOverflow
  deriving DecidableEq, Repr

def material {α : Type} (x : Except CodecErrorV1 α) : Except ReduceErrorV1 α := x.mapError fun _ => .InvalidMaterial

/-- A decision that changes the snapshot only. -/
def onlySnapshot (next : RouteSnapshotV1) : RouteDecisionV1 := ⟨next, [], [], []⟩

/-! ## Rules shared by several events -/

variable (s : RouteSnapshotV1) (leg : LegIdV1) (kind : ActionKindV1)

def requireNewWorkAllowed : Except ReduceErrorV1 Unit := do
  rejectIf s.health.restrictsToRecovery .RecoveryOnly
  rejectIf s.abortedUnfunded .InvalidTransition

/-- Of the actions only funding is new work. -/
def requireAllowedFor : Except ReduceErrorV1 Unit :=
  if kind = .Funding then requireNewWorkAllowed s else pure ()

def freezeTerms (current : RouteSnapshotV1) (bindings : FrozenBindingsV1) : Except ReduceErrorV1 RouteDecisionV1 := do
  requireNewWorkAllowed current
  rejectIf (current.bindings.isSome ∨ current.refunds.isSome ∨ current.coordination ≠ .Negotiating) .InvalidTransition
  return onlySnapshot { current with bindings := some bindings }

def validateFundingPreconditions : Except ReduceErrorV1 Unit := do
  rejectIf (s.upstream.isTerminal ∨ s.downstream.isTerminal) .InvalidTransition
  rejectIf ((s.leg leg).claim.progress ≠ .NotPrepared ∨ (s.leg leg).refund.progress ≠ .NotPrepared) .InvalidTransition
  rejectIf (leg = .Downstream ∧ (s.upstream.funding.progress ≠ .Final ∨
    s.upstream.claim.progress ≠ .NotPrepared ∨ s.upstream.refund.progress ≠ .NotPrepared)) .UpstreamNotFinal

def validateClaimPreconditions : Except ReduceErrorV1 Unit := do
  rejectIf ((s.leg leg).refund.progress ≠ .NotPrepared) .ClaimPrecondition
  match leg with
  | .Downstream =>
    rejectIf (s.health.restrictsToRecovery ∨ s.downstream.funding.progress ≠ .Final ∨
      s.upstream.funding.progress ≠ .Final ∨ s.upstream.claim.progress ≠ .NotPrepared ∨
      s.upstream.refund.progress ≠ .NotPrepared) .ClaimPrecondition
  | .Upstream =>
    rejectIf (s.upstream.funding.wasFinal = false ∨ s.secretVisibility.isPublic = false) .ClaimPrecondition

def validateRefundPreconditions : Except ReduceErrorV1 Unit :=
  rejectIf ((s.leg leg).funding.progress.isOut = false ∨ (s.leg leg).claim.progress ≠ .NotPrepared) .InvalidTransition

def validateActionPreconditions : Except ReduceErrorV1 Unit := do
  rejectIf s.refunds.isNone .RefundsNotArmed
  rejectIf (((s.leg leg).action kind).progress ≠ .NotPrepared) .InvalidTransition
  match kind with
  | .Funding => validateFundingPreconditions s leg
  | .Claim => validateClaimPreconditions s leg
  | .Refund => validateRefundPreconditions s leg

def effectPriority : EffectPriorityV1 :=
  if leg = .Upstream ∧ kind = .Claim ∧ s.secretVisibility.isPublic then .SecretPublicUrgent
  else if kind = .Refund ∨ s.health.restrictsToRecovery then .Recovery
  else .Normal

/-- Later evidence never overwrites the first exposure. -/
def exposeSecretOnce (exposure : PublicExposureV1) : RouteSnapshotV1 :=
  match s.secretVisibility with
  | .Private => { s with secretVisibility := .Public exposure }
  | .Public _ => s

/-- The reference of an action that has to be committed. -/
def committedReference : Except ReduceErrorV1 EffectReferenceV1 :=
  match (s.leg leg).action kind with
  | .Committed reference => .ok reference
  | _ => .error .InvalidTransition

variable (H : List UInt8 → Digest32) (current : RouteSnapshotV1) (eventId : Digest32) (intent : ActionIntentV1)
  (fencingEpoch : UInt64)

/-- The reference an authorization leaves in the snapshot. -/
def effectReference : EffectReferenceV1 where
  effectId := deriveEffectId H current.routeId eventId fencingEpoch intent.leg intent.kind intent.semanticDigest
  fencingEpoch := fencingEpoch
  semanticDigest := intent.semanticDigest
  containsRouteSecret := intent.containsRouteSecret
  expectedTransactionId := intent.dispatch.expectedTransactionId

/-- The effect an authorization puts in the outbox. -/
def routeEffect : RouteEffectV1 where
  routeId := current.routeId
  effectId := deriveEffectId H current.routeId eventId fencingEpoch intent.leg intent.kind intent.semanticDigest
  fencingEpoch := fencingEpoch
  leg := intent.leg
  kind := intent.kind
  priority := effectPriority current intent.leg intent.kind
  semanticDigest := intent.semanticDigest
  containsRouteSecret := intent.containsRouteSecret
  dispatch := intent.dispatch

/-- The action of an intent becomes committed, with its effect, in place of the effects `superseded`. -/
def authorize (superseded : List Digest32) : RouteDecisionV1 where
  snapshot := current.setAction intent.leg intent.kind (.Committed (effectReference H current eventId intent fencingEpoch))
  effects := [routeEffect H current eventId intent fencingEpoch]
  supersededEffects := superseded
  timers := []

def commitAction : Except ReduceErrorV1 RouteDecisionV1 := do
  rejectIf current.abortedUnfunded .InvalidTransition
  validateActionPreconditions current intent.leg intent.kind
  requireAllowedFor current intent.kind
  rejectIf (intent.kind = .Claim ∧ intent.containsRouteSecret = false) .SecretCustodyRequired
  rejectIf (intent.containsRouteSecret ∧ intent.dispatch.isCustody = false) .SecretCustodyRequired
  return authorize H current eventId intent fencingEpoch []

/-- What a reauthorization checks against the committed reference it replaces. -/
def checkPrior (priorEffectId : Digest32) (intent : ActionIntentV1) (fencingEpoch : UInt64) :
    Except ReduceErrorV1 Unit := do
  let prior ← committedReference current intent.leg intent.kind
  rejectIf (prior.effectId ≠ priorEffectId ∨ fencingEpoch ≤ prior.fencingEpoch ∨
    prior.semanticDigest ≠ intent.semanticDigest ∨ prior.containsRouteSecret ≠ intent.containsRouteSecret ∨
    prior.expectedTransactionId ≠ intent.dispatch.expectedTransactionId) .InvalidTransition

def reauthorizeCommittedAction (priorEffectId : Digest32) (intent : ActionIntentV1)
    (fencingEpoch : UInt64) : Except ReduceErrorV1 RouteDecisionV1 := do
  rejectIf current.abortedUnfunded .InvalidTransition
  checkPrior current priorEffectId intent fencingEpoch
  rejectIf (intent.containsRouteSecret ∧ intent.dispatch.isCustody = false) .SecretCustodyRequired
  return authorize H current eventId intent fencingEpoch [priorEffectId]

def reauthorizePartiallyExternalizedCustody (priorEffectId : Digest32)
    (intent : ActionIntentV1) (fencingEpoch : UInt64) : Except ReduceErrorV1 RouteDecisionV1 := do
  rejectIf (current.abortedUnfunded ∨ intent.dispatch.isCustody = false) .InvalidTransition
  checkPrior current priorEffectId intent fencingEpoch
  return authorize H current eventId intent fencingEpoch [priorEffectId]

def custodyProgressRecorded (current : RouteSnapshotV1) (leg : LegIdV1) (kind : ActionKindV1) (effectId : Digest32)
    (exposure : Option PublicExposureV1) : Except ReduceErrorV1 RouteDecisionV1 := do
  let committed ← committedReference current leg kind
  rejectIf (committed.effectId ≠ effectId) .InvalidTransition
  match exposure with
  | some exposure => do
      rejectIf (committed.containsRouteSecret = false ∨ exposure.source ≠ .Externalized) .InvalidTransition
      return onlySnapshot (exposeSecretOnce current exposure)
  | none => return onlySnapshot current

/-- What an externalization says about the secret: the first secret-bearing one has to come with its exposure. -/
def exposeExternalized (current : RouteSnapshotV1) (containsRouteSecret : Bool) (transactionId : Digest32)
    (exposure : Option PublicExposureV1) : Except ReduceErrorV1 RouteSnapshotV1 :=
  if containsRouteSecret then do
    rejectIf (current.secretVisibility.isPublic = false ∧ exposure.isNone) .ExposureRequired
    match exposure with
    | some exposure => do
        rejectIf (exposure.transactionId ≠ transactionId) .InvalidMaterial
        return exposeSecretOnce current exposure
    | none => return current
  else do
    rejectIf exposure.isSome .InvalidTransition
    return current

def actionExternalized (current : RouteSnapshotV1) (leg : LegIdV1) (kind : ActionKindV1)
    (effectId transactionId : Digest32) (exposure : Option PublicExposureV1) : Except ReduceErrorV1 RouteDecisionV1 := do
  let committed ← committedReference current leg kind
  rejectIf (committed.effectId ≠ effectId ∨ committed.expectedTransactionId.any (· ≠ transactionId)) .InvalidTransition
  let exposed ← exposeExternalized current committed.containsRouteSecret transactionId exposure
  return onlySnapshot (exposed.setAction leg kind (.Externalized committed transactionId))

/-- An action out with this transaction and not final can become final. -/
def finalizable (state : ActionStateV1) (transactionId : Digest32) : Except ReduceErrorV1 EffectReferenceV1 :=
  match state with
  | .Externalized effect existing | .FinalityInvalidated effect existing _ _ =>
    if existing = transactionId then .ok effect else .error .InvalidTransition
  | _ => .error .InvalidTransition

def actionFinalized (current : RouteSnapshotV1) (leg : LegIdV1) (kind : ActionKindV1)
    (transactionId evidenceDigest : Digest32) : Except ReduceErrorV1 RouteDecisionV1 := do
  let effect ← finalizable ((current.leg leg).action kind) transactionId
  return onlySnapshot (current.setAction leg kind (.Final effect transactionId evidenceDigest))

/-- The state after a reorg of the final observation with this transaction. -/
def invalidated (state : ActionStateV1) (transactionId reorgEvidenceDigest : Digest32) :
    Except ReduceErrorV1 ActionStateV1 :=
  match state with
  | .Final effect existing evidenceDigest =>
    if existing = transactionId then
      .ok (.FinalityInvalidated effect transactionId evidenceDigest reorgEvidenceDigest)
    else .error .InvalidTransition
  | _ => .error .InvalidTransition

def observationInvalidated (current : RouteSnapshotV1) (leg : LegIdV1) (kind : ActionKindV1)
    (transactionId reorgEvidenceDigest : Digest32) : Except ReduceErrorV1 RouteDecisionV1 := do
  let state ← invalidated ((current.leg leg).action kind) transactionId reorgEvidenceDigest
  return onlySnapshot { current.setAction leg kind state with health := .RecoveryOnly }

/-! ## The reducer -/

def reduceEvent (current : RouteSnapshotV1) (eventId : Digest32) (event : RouteEventV1) (fencingEpoch : UInt64) :
    Except ReduceErrorV1 RouteDecisionV1 :=
  match event with
  | .FreezeTerms bindings => freezeTerms current bindings
  | .FreezeTermsV2 checkpoint => do
      rejectIf (checkpoint.routeId ≠ current.routeId) .InvalidTransition
      freezeTerms current checkpoint.bindings
  | .ArmRefunds refunds => do
      requireNewWorkAllowed current
      rejectIf (current.bindings.isNone ∨ current.refunds.isSome ∨ current.coordination ≠ .TermsFrozen)
        .InvalidTransition
      return onlySnapshot { current with refunds := some refunds }
  | .CommitAction intent => commitAction H current eventId intent fencingEpoch
  | .ReauthorizeCommittedAction priorEffectId _ intent =>
    reauthorizeCommittedAction H current eventId priorEffectId intent fencingEpoch
  | .ReauthorizePartiallyExternalizedCustody priorEffectId _ intent =>
    reauthorizePartiallyExternalizedCustody H current eventId priorEffectId intent fencingEpoch
  | .CustodyProgressRecorded leg kind effectId _ exposure => custodyProgressRecorded current leg kind effectId exposure
  | .ActionExternalized leg kind effectId transactionId exposure =>
    actionExternalized current leg kind effectId transactionId exposure
  | .ActionFinalized leg kind transactionId evidenceDigest =>
    actionFinalized current leg kind transactionId evidenceDigest
  | .ObservationInvalidated leg kind transactionId reorgEvidenceDigest =>
    observationInvalidated current leg kind transactionId reorgEvidenceDigest
  | .SecretObserved exposure => return onlySnapshot (exposeSecretOnce current exposure)
  | .SetHealth target _ => do
      rejectIf (target = .Running ∧ current.health.restrictsToRecovery ∧ current.hasOpenFunds) .RecoveryLocked
      return onlySnapshot { current with health := target }
  | .ScheduleTimer kind deadlineUnixMs contextDigest => do
      rejectIf (current.abortedUnfunded ∨ (current.coordination = .Terminal ∧ current.hasOpenFunds = false))
        .InvalidTransition
      return ⟨current, [], [], [.Schedule ⟨current.routeId, deriveTimerId H current.routeId eventId fencingEpoch,
        fencingEpoch, kind, deadlineUnixMs, contextDigest⟩]⟩
  | .CancelTimer timerId => return ⟨current, [], [], [.Cancel timerId]⟩
  | .AbortUnfunded _ => do
      requireNewWorkAllowed current
      rejectIf (current.hasOpenFunds ∨ current.upstream.funding.progress ≠ .NotPrepared ∨
        current.downstream.funding.progress ≠ .NotPrepared ∨ current.secretVisibility.isPublic) .InvalidTransition
      return onlySnapshot { current with abortedUnfunded := true }

/-- The digest of the event bytes, as the snapshot keeps it. -/
def eventDigest (eventBytes : List UInt8) : Digest32 := domainDigest H "DOM-ROUTE-EVENT-DIGEST-V1" [eventBytes]

/-- The snapshot of a decision with its counters, event digest and phase brought up to date. -/
def advance (draft : RouteSnapshotV1) (revision lastEventSequence : UInt64) (digest : Digest32) : RouteSnapshotV1 :=
  { draft with revision, lastEventSequence, lastEventDigest := digest }.recomputeCoordination

/-- Apply one canonical event to a snapshot. -/
def reduceRoute (current : RouteSnapshotV1) (eventId : Digest32) (event : RouteEventV1) (fencingEpoch : UInt64) :
    Except ReduceErrorV1 RouteDecisionV1 := do
  material current.validate
  material (validateDigest eventId)
  material (validateEvent H event)
  rejectIf (fencingEpoch = 0) .InvalidMaterial
  let eventBytes ← material (event.encodeCanonical H)
  let draft ← reduceEvent H current eventId event fencingEpoch
  let revision ← okOr (checkedSucc64 current.revision) .CounterOverflow
  let lastEventSequence ← okOr (checkedSucc64 current.lastEventSequence) .CounterOverflow
  let next := advance draft.snapshot revision lastEventSequence (eventDigest H eventBytes)
  rejectIf (current.secretVisibility.isPublic ∧ next.secretVisibility.isPublic = false) .InvalidTransition
  rejectIf (current.health.restrictsToRecovery ∧ current.hasOpenFunds ∧ next.health.restrictsToRecovery = false)
    .RecoveryLocked
  material next.validate
  return { draft with snapshot := next }

/-! ## Dispatch -/

/-- Whether the snapshot lets an effect of the outbox be dispatched now. -/
def effectIsDispatchable (s : RouteSnapshotV1) (effect : RouteEffectV1) : Bool :=
  if s.abortedUnfunded then false
  else
    match (s.leg effect.leg).action effect.kind with
    | .Committed active =>
      if active.effectId ≠ effect.effectId ∨ active.fencingEpoch ≠ effect.fencingEpoch ∨
          active.semanticDigest ≠ effect.semanticDigest ∨
          active.containsRouteSecret ≠ effect.containsRouteSecret then false
      else
        match effect.kind, effect.leg with
        | .Funding, leg =>
          if s.health.restrictsToRecovery ∨ s.refunds.isNone ∨ s.upstream.isTerminal ∨ s.downstream.isTerminal then
            false
          else
            leg ≠ .Downstream ∨ (s.upstream.funding.progress = .Final ∧
              s.upstream.claim.progress = .NotPrepared ∧ s.upstream.refund.progress = .NotPrepared)
        | .Claim, .Downstream =>
          s.health.restrictsToRecovery = false ∧ s.upstream.funding.progress = .Final ∧
            s.downstream.funding.progress = .Final ∧
            (s.upstream.claim.progress = .NotPrepared ∨
              (s.secretVisibility.isPublic ∧ s.upstream.claim.progress = .Final)) ∧
            s.upstream.refund.progress = .NotPrepared ∧ effect.containsRouteSecret
        | .Claim, .Upstream =>
          s.secretVisibility.isPublic ∧ s.upstream.funding.wasFinal ∧ effect.containsRouteSecret
        | .Refund, leg => (s.leg leg).funding.progress.isOut
    | _ => false

end DomProtocol.Route
