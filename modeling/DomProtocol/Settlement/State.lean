import DomProtocol.Core.Types

/-!
# `Settlement.State` — the settlement state machine

The pure transition function of a settlement.  It holds no evidence: an observation is kept as the height it
was made at and a verified claim as a flag, so what the context says about the chain has to be read against
the history of accepted events.  `Accepts` lists the transitions of the machine one rule each, and
`transition_eq_ok` is the only place where the function itself is taken apart.
-/

namespace DomProtocol

/-! ## Data -/

abbrev Digest32 := BitVec 256

inductive SettlementState where
  | Preparing
  | ReadyToFund
  | Confirming
  | Settling
  | Settled
  | Refunded
  deriving DecidableEq, Repr

def SettlementState.isTerminal : SettlementState → Bool
  | .Settled | .Refunded => true
  | _ => false

/-- Reference to one piece of public on-chain evidence. -/
@[ext]
structure EvidenceRefV1 where
  chainId : Digest32
  txId : Digest32
  eventIndex : UInt32
  blockHeight : UInt64
  blockAnchor : Digest32
  deriving DecidableEq, Repr

inductive SettlementEvent where
  | RefundArmed
  | FundingObserved (evidence : EvidenceRefV1)
  | FundingConfirmed (evidence : EvidenceRefV1)
  | FundingAbsent (revalidationFrom : UInt64)
  | ClaimEvidenceVerified (evidence : EvidenceRefV1)
  | ClaimConfirmed (evidence : EvidenceRefV1)
  | TimelockExpired
  | RefundConfirmed (evidence : EvidenceRefV1)
  | ReorgInvalidated (fromHeight : UInt64) (oldAnchor : Digest32)
  deriving DecidableEq, Repr

/-- The persisted context of a settlement; `revision` is the compare-and-swap key of the snapshot. -/
structure SettlementContext where
  state : SettlementState
  revision : UInt64
  lastObservedHeight : Option UInt64
  claimEvidenceVerified : Bool
  refundPathArmed : Bool
  deriving DecidableEq, Repr

/-- The initial context: nothing armed, nothing observed. -/
def SettlementContext.new : SettlementContext where
  state := .Preparing
  revision := 0
  lastObservedHeight := none
  claimEvidenceVerified := false
  refundPathArmed := false

/-- What the engine has to do once a transition is durable. -/
inductive Effect where
  | AuthorizeFunding
  | RequestClaimConsumption (evidence : EvidenceRefV1)
  | ArmRefundPath
  | RevalidateFrom (height : UInt64)
  | RecordTerminalOutcome (state : SettlementState)
  deriving DecidableEq, Repr

structure Transition where
  next : SettlementContext
  effects : List Effect
  deriving DecidableEq, Repr

inductive TransitionError where
  | IllegalEvent
  | TerminalState
  | PreconditionUnsatisfied
  | EvidenceMismatch
  | RevisionOverflow
  deriving DecidableEq, Repr

/-! ## The transition function -/

def checkedSucc64 (n : UInt64) : Option UInt64 :=
  if n.toNat + 1 < u64Bound then some (n + 1) else none

/-- The observation at `last` lies at or above the first invalidated height. -/
def observedFrom (last : Option UInt64) (fromHeight : UInt64) : Bool :=
  last.any fun h => fromHeight ≤ h

def transition (ctx : SettlementContext) (event : SettlementEvent) : Except TransitionError Transition :=
  if ctx.state.isTerminal then .error .TerminalState
  else
    match checkedSucc64 ctx.revision with
    | none => .error .RevisionOverflow
    | some revision =>
      let next := { ctx with revision := revision }
      match ctx.state, event with
      | .Preparing, .RefundArmed =>
        .ok ⟨{ next with state := .ReadyToFund, refundPathArmed := true }, [.AuthorizeFunding]⟩
      | .ReadyToFund, .FundingObserved evidence =>
        .ok ⟨{ next with state := .Confirming, lastObservedHeight := some evidence.blockHeight }, []⟩
      | .Confirming, .FundingObserved evidence =>
        .ok ⟨{ next with lastObservedHeight := some evidence.blockHeight }, []⟩
      | .Confirming, .FundingAbsent _ =>
        .ok ⟨{ next with state := .ReadyToFund, lastObservedHeight := none }, []⟩
      | .Confirming, .FundingConfirmed evidence =>
        if ctx.lastObservedHeight ≠ some evidence.blockHeight then .error .EvidenceMismatch
        else .ok ⟨{ next with state := .Settling }, []⟩
      | .Settling, .ClaimEvidenceVerified evidence =>
        .ok ⟨{ next with claimEvidenceVerified := true }, [.RequestClaimConsumption evidence]⟩
      | .Settling, .ClaimConfirmed _ =>
        if ctx.claimEvidenceVerified = false then .error .PreconditionUnsatisfied
        else .ok ⟨{ next with state := .Settled }, [.RecordTerminalOutcome .Settled]⟩
      | .Confirming, .TimelockExpired | .Settling, .TimelockExpired =>
        .ok ⟨{ next with refundPathArmed := true }, [.ArmRefundPath]⟩
      | .Confirming, .RefundConfirmed _ | .Settling, .RefundConfirmed _ =>
        .ok ⟨{ next with state := .Refunded }, [.RecordTerminalOutcome .Refunded]⟩
      | .Confirming, .ReorgInvalidated fromHeight _ | .Settling, .ReorgInvalidated fromHeight _ =>
        if observedFrom ctx.lastObservedHeight fromHeight then
          .ok ⟨{ next with
                  state := if ctx.state = .Settling then .Confirming else .ReadyToFund
                  lastObservedHeight := none
                  claimEvidenceVerified := false }, [.RevalidateFrom fromHeight]⟩
        else .ok ⟨next, []⟩
      | .Preparing, .ReorgInvalidated _ _ | .ReadyToFund, .ReorgInvalidated _ _ => .ok ⟨next, []⟩
      | _, _ => .error .IllegalEvent

/-! ## The transitions one by one -/

variable (ctx : SettlementContext) (revision : UInt64) in
/-- The transitions accepted from `ctx` at the revision after its own, one rule for each arm of the function. -/
inductive Accepts : SettlementEvent → Transition → Prop where
  | arm (h : ctx.state = .Preparing) :
      Accepts .RefundArmed
        ⟨{ ctx with revision := revision, state := .ReadyToFund, refundPathArmed := true }, [.AuthorizeFunding]⟩
  | observe (h : ctx.state = .ReadyToFund ∨ ctx.state = .Confirming) (evidence : EvidenceRefV1) :
      Accepts (.FundingObserved evidence)
        ⟨{ ctx with revision := revision, state := .Confirming,
                    lastObservedHeight := some evidence.blockHeight }, []⟩
  | absent (h : ctx.state = .Confirming) (revalidationFrom : UInt64) :
      Accepts (.FundingAbsent revalidationFrom)
        ⟨{ ctx with revision := revision, state := .ReadyToFund, lastObservedHeight := none }, []⟩
  | confirm (h : ctx.state = .Confirming) (evidence : EvidenceRefV1)
      (hlast : ctx.lastObservedHeight = some evidence.blockHeight) :
      Accepts (.FundingConfirmed evidence) ⟨{ ctx with revision := revision, state := .Settling }, []⟩
  | verify (h : ctx.state = .Settling) (evidence : EvidenceRefV1) :
      Accepts (.ClaimEvidenceVerified evidence)
        ⟨{ ctx with revision := revision, claimEvidenceVerified := true }, [.RequestClaimConsumption evidence]⟩
  | settle (h : ctx.state = .Settling) (hclaim : ctx.claimEvidenceVerified = true) (evidence : EvidenceRefV1) :
      Accepts (.ClaimConfirmed evidence)
        ⟨{ ctx with revision := revision, state := .Settled }, [.RecordTerminalOutcome .Settled]⟩
  | expire (h : ctx.state = .Confirming ∨ ctx.state = .Settling) :
      Accepts .TimelockExpired
        ⟨{ ctx with revision := revision, refundPathArmed := true }, [.ArmRefundPath]⟩
  | refund (h : ctx.state = .Confirming ∨ ctx.state = .Settling) (evidence : EvidenceRefV1) :
      Accepts (.RefundConfirmed evidence)
        ⟨{ ctx with revision := revision, state := .Refunded }, [.RecordTerminalOutcome .Refunded]⟩
  | regress (h : ctx.state = .Confirming ∨ ctx.state = .Settling) (fromHeight : UInt64) (oldAnchor : Digest32)
      (hlast : observedFrom ctx.lastObservedHeight fromHeight = true) :
      Accepts (.ReorgInvalidated fromHeight oldAnchor)
        ⟨{ ctx with revision := revision
                    state := if ctx.state = .Settling then .Confirming else .ReadyToFund
                    lastObservedHeight := none
                    claimEvidenceVerified := false }, [.RevalidateFrom fromHeight]⟩
  | keep (fromHeight : UInt64) (oldAnchor : Digest32)
      (h : (ctx.state = .Confirming ∨ ctx.state = .Settling) ∧
          observedFrom ctx.lastObservedHeight fromHeight = false ∨
        (ctx.state = .Preparing ∨ ctx.state = .ReadyToFund)) :
      Accepts (.ReorgInvalidated fromHeight oldAnchor) ⟨{ ctx with revision := revision }, []⟩

/-- **The transition function in full**: it accepts exactly the listed transitions, as long as the revision
    counter has room. -/
theorem transition_eq_ok {ctx : SettlementContext} {event : SettlementEvent} {t : Transition} :
    transition ctx event = .ok t ↔
      ∃ revision, checkedSucc64 ctx.revision = some revision ∧ Accepts ctx revision event t := by
  constructor
  · intro h
    unfold transition at h
    split at h
    · cases h
    split at h
    · cases h
    rename_i revision hrev
    refine ⟨revision, hrev, ?_⟩
    obtain ⟨state, counter, last, claim, armed⟩ := ctx
    -- only the states from which the event is legal leave a goal
    cases event with
    | RefundArmed =>
      cases state <;> dsimp only at h <;> try cases h
      exact .arm rfl
    | FundingObserved evidence =>
      cases state <;> dsimp only at h <;> try cases h
      · exact .observe (.inl rfl) evidence
      · exact .observe (.inr rfl) evidence
    | FundingAbsent height =>
      cases state <;> dsimp only at h <;> try cases h
      exact .absent rfl height
    | FundingConfirmed evidence =>
      cases state <;> dsimp only at h <;> try cases h
      split at h
      · cases h
      · rename_i hlast
        cases h
        exact .confirm rfl evidence (not_not.mp hlast)
    | ClaimEvidenceVerified evidence =>
      cases state <;> dsimp only at h <;> try cases h
      exact .verify rfl evidence
    | ClaimConfirmed evidence =>
      cases state <;> dsimp only at h <;> try cases h
      split at h
      · cases h
      · rename_i hcl
        cases h
        exact .settle rfl (eq_true_of_ne_false hcl) evidence
    | TimelockExpired =>
      cases state <;> dsimp only at h <;> try cases h
      · exact .expire (.inl rfl)
      · exact .expire (.inr rfl)
    | RefundConfirmed evidence =>
      cases state <;> dsimp only at h <;> try cases h
      · exact .refund (.inl rfl) evidence
      · exact .refund (.inr rfl) evidence
    | ReorgInvalidated fromHeight oldAnchor =>
      cases state <;> dsimp only at h <;> try cases h
      · exact .keep fromHeight oldAnchor (.inr (.inl rfl))
      · exact .keep fromHeight oldAnchor (.inr (.inr rfl))
      · split at h
        · cases h
          exact .regress (.inl rfl) fromHeight oldAnchor ‹_›
        · cases h
          exact .keep fromHeight oldAnchor (.inl ⟨.inl rfl, eq_false_of_ne_true ‹_›⟩)
      · split at h
        · cases h
          exact .regress (.inr rfl) fromHeight oldAnchor ‹_›
        · cases h
          exact .keep fromHeight oldAnchor (.inl ⟨.inr rfl, eq_false_of_ne_true ‹_›⟩)
  · rintro ⟨revision, hrev, h⟩
    cases h with
    | arm hs | absent hs | verify hs => simp [transition, hs, hrev, SettlementState.isTerminal]
    | confirm hs _ hcond | settle hs hcond => simp [transition, hs, hrev, hcond, SettlementState.isTerminal]
    | observe hs | expire hs | refund hs =>
      rcases hs with hs | hs <;> simp [transition, hs, hrev, SettlementState.isTerminal]
    | regress hs fromHeight oldAnchor hlast =>
      rcases hs with hs | hs <;> simp [transition, hs, hrev, hlast, SettlementState.isTerminal]
    | keep fromHeight oldAnchor hs =>
      obtain ⟨hs | hs, hlast⟩ | hs | hs := hs <;> simp_all [transition, SettlementState.isTerminal]

end DomProtocol
