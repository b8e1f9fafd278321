import DomProtocol.Crypto.Primitives
import DomProtocol.Settlement.State

/-!
# `Settlement.Encoding` — envelopes, tags and the identifiers derived from them

Events travel in envelopes with a canonical big-endian encoding; the identifiers of events, effects and
refreshes are digests of such bytes.  The digest itself is outside the repository and is the parameter `H`.
-/

namespace DomProtocol

open Lib

/-! ## Envelopes -/

/-- The frozen protocol version of the envelopes. -/
def protocolVersion : UInt16 := 1

/-- Neutral event envelope delivered to the engine. -/
structure EventEnvelopeV1 where
  protocolVersion : UInt16
  settlementId : Digest32
  sessionId : Digest32
  termsHash : Digest32
  sourceChain : Digest32
  eventId : Digest32
  sourceSequence : UInt64
  event : SettlementEvent
  deriving DecidableEq, Repr

/-- Cursor update committed together with an accepted event. -/
structure CursorUpdateV1 where
  chainId : Digest32
  cursorBytes : List UInt8
  anchorHeight : Option UInt64
  anchorHash : Option Digest32
  deriving DecidableEq, Repr

/-! ## Tags -/

def stateTag : SettlementState → Nat
  | .Preparing => 1
  | .ReadyToFund => 2
  | .Confirming => 3
  | .Settling => 4
  | .Settled => 5
  | .Refunded => 6

def eventKind : SettlementEvent → Nat
  | .RefundArmed => 1
  | .FundingObserved _ => 2
  | .FundingConfirmed _ => 3
  | .FundingAbsent _ => 4
  | .ClaimEvidenceVerified _ => 5
  | .ClaimConfirmed _ => 6
  | .TimelockExpired => 7
  | .RefundConfirmed _ => 8
  | .ReorgInvalidated _ _ => 9

def effectKind : Effect → Nat
  | .AuthorizeFunding => 1
  | .RequestClaimConsumption _ => 2
  | .ArmRefundPath => 3
  | .RevalidateFrom _ => 4
  | .RecordTerminalOutcome _ => 5

/-- The evidence an event carries, if it carries any. -/
def acceptedEvidence : SettlementEvent → Option EvidenceRefV1
  | .FundingObserved evidence | .FundingConfirmed evidence | .ClaimEvidenceVerified evidence
  | .ClaimConfirmed evidence | .RefundConfirmed evidence => some evidence
  | _ => none

/-! ## Canonical encodings -/

def putEvidence (ev : EvidenceRefV1) : List UInt8 :=
  hashBytes ev.chainId ++ (hashBytes ev.txId ++ (beBytes 4 ev.eventIndex.toNat ++
    (beBytes 8 ev.blockHeight.toNat ++ hashBytes ev.blockAnchor)))

def eventBody : SettlementEvent → List UInt8
  | .RefundArmed | .TimelockExpired => []
  | .FundingObserved evidence | .FundingConfirmed evidence | .ClaimEvidenceVerified evidence
  | .ClaimConfirmed evidence | .RefundConfirmed evidence => putEvidence evidence
  | .FundingAbsent revalidationFrom => beBytes 8 revalidationFrom.toNat
  | .ReorgInvalidated fromHeight oldAnchor => beBytes 8 fromHeight.toNat ++ hashBytes oldAnchor

def encodeEvent (event : SettlementEvent) : List UInt8 := beBytes 2 (eventKind event) ++ eventBody event

def EventEnvelopeV1.canonicalBytes (env : EventEnvelopeV1) : List UInt8 :=
  beBytes 2 env.protocolVersion.toNat ++ hashBytes env.settlementId ++ hashBytes env.sessionId ++
    hashBytes env.termsHash ++ hashBytes env.sourceChain ++ hashBytes env.eventId ++
    beBytes 8 env.sourceSequence.toNat ++ encodeEvent env.event

def encodeContext (ctx : SettlementContext) : List UInt8 :=
  beBytes 2 (stateTag ctx.state) ++ beBytes 8 ctx.revision.toNat ++
    (match ctx.lastObservedHeight with
      | none => [0x00]
      | some h => 0x01 :: beBytes 8 h.toNat) ++
    [if ctx.claimEvidenceVerified then 1 else 0, if ctx.refundPathArmed then 1 else 0]

def encodeEffectPayload (effect : Effect) : List UInt8 :=
  beBytes 2 (effectKind effect) ++
    match effect with
    | .AuthorizeFunding | .ArmRefundPath => []
    | .RequestClaimConsumption evidence => putEvidence evidence
    | .RevalidateFrom height => beBytes 8 height.toNat
    | .RecordTerminalOutcome state => beBytes 2 (stateTag state)

/-! ## Derived identifiers -/

variable (H : List UInt8 → Digest32)

def eventIdDomain : String := "DOM-INTEROP/EVENT-ID/V1\x00"
def effectDomain : String := "DOM-INTEROP/EFFECT/V1\x00"
def effectPayloadDomain : String := "DOM-INTEROP/EFFECT-PAYLOAD/V1\x00"
def contextDomain : String := "DOM-INTEROP/CONTEXT/V1\x00"
def refreshDomain : String := "DOM-INTEROP/F2-REFRESH/V1\x00"

/-- The identifier of an event is a function of the settlement and the event alone. -/
def deriveEventId (settlementId : Digest32) (event : SettlementEvent) : Digest32 :=
  H (strBytes eventIdDomain ++ (hashBytes settlementId ++ encodeEvent event))

def contextHash (ctx : SettlementContext) : Digest32 := H (strBytes contextDomain ++ encodeContext ctx)

/-- Journal identity of a refresh: the event re-applied at a later revision. -/
def refreshEventId (eventId : Digest32) (resultingRevision : UInt64) : Digest32 :=
  H (strBytes refreshDomain ++ hashBytes eventId ++ beBytes 8 resultingRevision.toNat)

/-- One outbox effect derived from an accepted transition. -/
structure OutboxEffectV1 where
  effectId : Digest32
  kind : Effect
  payloadHash : Digest32
  payload : List UInt8
  deriving DecidableEq

def OutboxEffectV1.derive (settlementId sourceEventId : Digest32) (effect : Effect) : OutboxEffectV1 :=
  let payload := encodeEffectPayload effect
  let payloadHash := H (strBytes effectPayloadDomain ++ payload)
  { effectId := H (strBytes effectDomain ++ (hashBytes settlementId ++ hashBytes sourceEventId ++
      beBytes 2 (effectKind effect) ++ hashBytes payloadHash))
    kind := effect
    payloadHash := payloadHash
    payload := payload }

def effectsToOutbox (env : EventEnvelopeV1) (effects : List Effect) : List OutboxEffectV1 :=
  effects.map (OutboxEffectV1.derive H env.settlementId env.eventId)

end DomProtocol
