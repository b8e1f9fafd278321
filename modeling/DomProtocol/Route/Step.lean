import DomProtocol.Lib.Reach
import DomProtocol.Route.Reducer

/-!
# `Route.Step` — what one accepted event can do

The checks of a snapshot as facts about it (`Valid`), the successful reduction taken apart once (`reduceRoute_eq_ok`),
and from it what an accepted event does to the six actions, the secret, the health and the terms.  Everything later
about runs of the reducer is derived from these.
-/

namespace DomProtocol.Route

open Lib

variable {α : Type} {s' : RouteSnapshotV1} {clear : RouteSnapshotV1 → RouteInput → Prop}

/-! ## Legs and kinds -/

theorem forall_leg {P : LegIdV1 → Prop} : (∀ leg, P leg) ↔ P .Upstream ∧ P .Downstream := by
  refine ⟨fun h => ⟨h _, h _⟩, fun h leg => ?_⟩
  cases leg with
  | Upstream => exact h.1
  | Downstream => exact h.2

theorem forall_kind {P : ActionKindV1 → Prop} : (∀ kind, P kind) ↔ P .Funding ∧ P .Claim ∧ P .Refund := by
  refine ⟨fun h => ⟨h _, h _, h _⟩, fun h kind => ?_⟩
  cases kind with
  | Funding => exact h.1
  | Claim => exact h.2.1
  | Refund => exact h.2.2

/-- Something for each of the six actions. -/
abbrev Slots (α : Type) := LegIdV1 → ActionKindV1 → α

def Slots.set {α : Type} (slots : Slots α) (leg : LegIdV1) (kind : ActionKindV1) (a : α) : Slots α :=
  fun leg' kind' => if leg' = leg ∧ kind' = kind then a else slots leg' kind'

theorem Slots.set_set (slots : Slots α) (leg : LegIdV1) (kind : ActionKindV1) (a b : α) :
    (slots.set leg kind a).set leg kind b = slots.set leg kind b := by
  funext leg' kind'
  unfold Slots.set
  split <;> rfl

/-! ## Action states -/

variable {a : ActionStateV1}

theorem ActionStateV1.progress_eq_notPrepared : a.progress = .NotPrepared ↔ a = .NotPrepared := by
  cases a <;> simp [progress]

theorem ActionStateV1.isOut_of_wasFinal (h : a.wasFinal = true) : a.progress.isOut = true := by
  cases a <;> first | rfl | cases h

theorem ActionStateV1.prepared_of_isOut (h : a.progress.isOut = true) : a.progress ≠ .NotPrepared := by
  intro hnone
  rw [hnone] at h
  cases h

theorem mem_actions {s : RouteSnapshotV1} {P : ActionStateV1 → Prop} :
    (∀ a ∈ s.actions, P a) ↔ ∀ leg kind, P ((s.leg leg).action kind) := by
  simp only [RouteSnapshotV1.actions, List.mem_cons, List.not_mem_nil, or_false, forall_eq_or_imp, forall_eq,
    forall_leg, forall_kind, RouteSnapshotV1.leg, LegSnapshotV1.action, and_assoc]

/-- The effect of an authorization, as far as its reference pins it. -/
structure IsEffectOf (reference : EffectReferenceV1) (leg : LegIdV1) (kind : ActionKindV1) (effect : RouteEffectV1) :
    Prop where
  leg : effect.leg = leg
  kind : effect.kind = kind
  effectId : effect.effectId = reference.effectId
  fencingEpoch : effect.fencingEpoch = reference.fencingEpoch
  semanticDigest : effect.semanticDigest = reference.semanticDigest
  containsRouteSecret : effect.containsRouteSecret = reference.containsRouteSecret

/-! ## Valid snapshots -/

structure Valid (s : RouteSnapshotV1) : Prop where
  routeId : s.routeId ≠ 0
  sequence : s.revision = s.lastEventSequence
  untouched : s.revision = 0 → s.lastEventDigest = 0
  frozen : s.refunds.isSome → s.bindings.isSome
  armed : ∀ leg kind, ((s.leg leg).action kind).progress ≠ .NotPrepared → s.refunds.isSome
  aborted : s.abortedUnfunded → s.hasOpenFunds = false ∧ s.secretVisibility.isPublic = false
  action : ∀ leg kind, validateActionState ((s.leg leg).action kind) = .ok ()
  exclusive : ∀ leg, (s.leg leg).claim.progress = .NotPrepared ∨ (s.leg leg).refund.progress = .NotPrepared
  purpose : ∀ leg kind, validateActionPurpose ((s.leg leg).action kind) kind = .ok ()
  upstreamFirst : s.downstream.funding.progress ≠ .NotPrepared → s.upstream.funding.wasFinal
  recovering : ∀ leg kind, ((s.leg leg).action kind).isInvalidated → s.health.restrictsToRecovery
  refundOut : ∀ leg, (s.leg leg).refund.progress ≠ .NotPrepared → (s.leg leg).funding.progress.isOut
  claimFinal : ∀ leg, (s.leg leg).claim.progress ≠ .NotPrepared → (s.leg leg).funding.wasFinal
  upstreamClaim : s.upstream.claim.progress ≠ .NotPrepared → s.secretVisibility.isPublic
  claimOut : ∀ leg, (s.leg leg).claim.progress.isOut → s.secretVisibility.isPublic
  secret : validateSecret s.secretVisibility = .ok ()
  bindings : ∀ bindings, s.bindings = some bindings → validateBindings bindings = .ok ()
  refunds : ∀ refunds, s.refunds = some refunds → validateRefunds refunds = .ok ()
  phase : s.coordination = s.phase

theorem validateLeg_eq_ok {leg : LegSnapshotV1} : validateLeg leg = .ok () ↔
    (∀ kind, validateActionState (leg.action kind) = .ok ()) ∧
      (leg.claim.progress = .NotPrepared ∨ leg.refund.progress = .NotPrepared) ∧
      (leg.claim.progress ≠ .NotPrepared ∨ leg.refund.progress ≠ .NotPrepared → leg.funding.progress ≠ .NotPrepared) := by
  simp only [validateLeg, inversion, forall_kind, LegSnapshotV1.action]
  tauto

theorem validateExits_eq_ok {leg : LegSnapshotV1} : validateExits leg = .ok () ↔
    (leg.refund.progress ≠ .NotPrepared → leg.funding.progress.isOut) ∧
      (leg.claim.progress ≠ .NotPrepared → leg.funding.wasFinal) := by
  simp only [validateExits, inversion, not_and, Bool.not_eq_false]

@[simp] theorem validateSome_eq_ok {check : α → Except CodecErrorV1 Unit} {o : Option α} :
    validateSome check o = .ok () ↔ ∀ a, o = some a → check a = .ok () := by
  cases o <;> simp [validateSome]

theorem any_actions {s : RouteSnapshotV1} {p : ActionStateV1 → Bool} :
    s.actions.any p = true ↔ ∃ leg kind, p ((s.leg leg).action kind) = true := by
  rw [List.any_eq_true, ← not_iff_not]
  push Not
  exact mem_actions (P := fun a => p a ≠ true)

theorem funding_of_exit {s : RouteSnapshotV1} (h : Valid s) (leg : LegIdV1)
    (hexit : (s.leg leg).claim.progress ≠ .NotPrepared ∨ (s.leg leg).refund.progress ≠ .NotPrepared) :
    (s.leg leg).funding.progress ≠ .NotPrepared := by
  rcases hexit with hcl | hrf
  · exact ActionStateV1.prepared_of_isOut (ActionStateV1.isOut_of_wasFinal (h.claimFinal leg hcl))
  · exact ActionStateV1.prepared_of_isOut (h.refundOut leg hrf)

/-- **A snapshot passes its checks exactly when it is valid.** -/
theorem validate_eq_ok {s : RouteSnapshotV1} : s.validate = .ok () ↔ Valid s := by
  simp only [RouteSnapshotV1.validate, inversion, validateLeg_eq_ok, validateExits_eq_ok, any_actions,
    validateSome_eq_ok, decide_eq_true_eq, not_and, forall_exists_index, Bool.not_eq_false, Option.isNone_iff_eq_none,
    ← Option.isSome_iff_ne_none, not_or, Bool.not_eq_true, Decidable.not_not]
  constructor
  · rintro ⟨hid, hseq, hnew, hfroz, harmed, habt, hup, hdown, p₁, p₂, p₃, p₄, p₅, p₆, hfst, hrcv, hupExit,
      hdownExit, hucl, hout, hsec, hbdgs, hrfs, hph⟩
    exact {
      routeId := hid
      sequence := hseq
      untouched := hnew
      frozen := hfroz
      armed := fun leg kind h => harmed leg kind h
      aborted := habt
      action := forall_leg.mpr ⟨hup.1, hdown.1⟩
      exclusive := forall_leg.mpr ⟨hup.2.1, hdown.2.1⟩
      purpose := forall_leg.mpr ⟨forall_kind.mpr ⟨p₁, p₂, p₃⟩, forall_kind.mpr ⟨p₄, p₅, p₆⟩⟩
      upstreamFirst := hfst
      recovering := fun leg kind h => hrcv leg kind h
      refundOut := forall_leg.mpr ⟨hupExit.1, hdownExit.1⟩
      claimFinal := forall_leg.mpr ⟨hupExit.2, hdownExit.2⟩
      upstreamClaim := hucl
      claimOut := forall_leg.mpr ⟨fun h => hout (.inl h), fun h => hout (.inr h)⟩
      secret := hsec
      bindings := hbdgs
      refunds := hrfs
      phase := hph.symm }
  · intro h
    exact ⟨h.routeId, h.sequence, h.untouched, h.frozen, h.armed, h.aborted,
      ⟨h.action .Upstream, h.exclusive .Upstream, funding_of_exit h .Upstream⟩,
      ⟨h.action .Downstream, h.exclusive .Downstream, funding_of_exit h .Downstream⟩,
      h.purpose .Upstream .Funding, h.purpose .Upstream .Claim, h.purpose .Upstream .Refund,
      h.purpose .Downstream .Funding, h.purpose .Downstream .Claim, h.purpose .Downstream .Refund,
      h.upstreamFirst, h.recovering, ⟨h.refundOut .Upstream, h.claimFinal .Upstream⟩,
      ⟨h.refundOut .Downstream, h.claimFinal .Downstream⟩, h.upstreamClaim,
      fun hout => hout.elim (h.claimOut .Upstream) (h.claimOut .Downstream), h.secret, h.bindings, h.refunds,
      h.phase.symm⟩

/-! ## What the updates leave alone -/

section Frames

variable {s : RouteSnapshotV1}

theorem action_setAction (leg leg' : LegIdV1) (kind kind' : ActionKindV1) (state : ActionStateV1) :
    ((s.setAction leg kind state).leg leg').action kind' =
      if leg' = leg ∧ kind' = kind then state else (s.leg leg').action kind' := by
  cases leg <;> cases leg' <;> cases kind <;> cases kind' <;> rfl

variable (leg : LegIdV1) (kind : ActionKindV1) (state : ActionStateV1)

@[simp] theorem secretVisibility_setAction :
    (s.setAction leg kind state).secretVisibility = s.secretVisibility := by cases leg <;> rfl

@[simp] theorem health_setAction : (s.setAction leg kind state).health = s.health := by cases leg <;> rfl

@[simp] theorem bindings_setAction : (s.setAction leg kind state).bindings = s.bindings := by cases leg <;> rfl

@[simp] theorem refunds_setAction : (s.setAction leg kind state).refunds = s.refunds := by cases leg <;> rfl

@[simp] theorem abortedUnfunded_setAction :
    (s.setAction leg kind state).abortedUnfunded = s.abortedUnfunded := by cases leg <;> rfl

@[simp] theorem routeId_setAction : (s.setAction leg kind state).routeId = s.routeId := by cases leg <;> rfl

/-- The snapshot after an exposure that an event may carry. -/
def exposed (s : RouteSnapshotV1) : Option PublicExposureV1 → RouteSnapshotV1
  | some exposure => exposeSecretOnce s exposure
  | none => s

variable (exposure : Option PublicExposureV1)

theorem exposed_eq : exposed s exposure = { s with secretVisibility := (exposed s exposure).secretVisibility } := by
  cases exposure with
  | none => rfl
  | some exposure =>
    unfold exposed exposeSecretOnce
    cases hsec : s.secretVisibility with
    | Private | Public => rfl

@[simp] theorem leg_exposed (leg : LegIdV1) : (exposed s exposure).leg leg = s.leg leg := by
  rw [exposed_eq]
  cases leg <;> rfl

@[simp] theorem health_exposed : (exposed s exposure).health = s.health := by
  rw [exposed_eq]

@[simp] theorem refunds_exposed : (exposed s exposure).refunds = s.refunds := by
  rw [exposed_eq]

@[simp] theorem abortedUnfunded_exposed : (exposed s exposure).abortedUnfunded = s.abortedUnfunded := by
  rw [exposed_eq]

@[simp] theorem routeId_exposed : (exposed s exposure).routeId = s.routeId := by
  rw [exposed_eq]

theorem secretVisibility_exposed_of_public {exposure : Option PublicExposureV1}
    (h : s.secretVisibility.isPublic = true) : (exposed s exposure).secretVisibility = s.secretVisibility := by
  cases exposure with
  | none => rfl
  | some exposure =>
    unfold exposed exposeSecretOnce
    cases hsec : s.secretVisibility with
    | Private =>
      rw [hsec] at h
      cases h
    | Public first => exact hsec

variable (draft : RouteSnapshotV1) (revision sequence : UInt64) (digest : Digest32)

@[simp] theorem leg_advance (leg : LegIdV1) : (advance draft revision sequence digest).leg leg = draft.leg leg := by
  cases leg <;> rfl

@[simp] theorem secretVisibility_advance :
    (advance draft revision sequence digest).secretVisibility = draft.secretVisibility := rfl

@[simp] theorem bindings_advance : (advance draft revision sequence digest).bindings = draft.bindings := rfl

@[simp] theorem refunds_advance : (advance draft revision sequence digest).refunds = draft.refunds := rfl

end Frames

/-! ## The rules, one by one -/

section Rules

variable {H : List UInt8 → Digest32} {s : RouteSnapshotV1} {eventId : Digest32} {epoch : UInt64}

variable {u : Unit}

theorem requireNewWorkAllowed_eq_ok :
    requireNewWorkAllowed s = .ok u ↔ s.health = .Running ∧ s.abortedUnfunded = false := by
  simp [requireNewWorkAllowed, HealthStateV1.restrictsToRecovery]

variable {kind : ActionKindV1}

theorem requireAllowedFor_eq_ok :
    requireAllowedFor s kind = .ok u ↔ (kind = .Funding → s.health = .Running ∧ s.abortedUnfunded = false) := by
  unfold requireAllowedFor
  split
  · rename_i hkind
    rw [requireNewWorkAllowed_eq_ok]
    exact ⟨fun h _ => h, fun h => h hkind⟩
  · rename_i hkind
    exact ⟨fun _ h => absurd h hkind, fun _ => rfl⟩

variable {leg : LegIdV1}

theorem committedReference_eq_ok {reference : EffectReferenceV1} :
    committedReference s leg kind = .ok reference ↔ (s.leg leg).action kind = .Committed reference := by
  unfold committedReference
  cases (s.leg leg).action kind <;> simp

variable {transactionId : Digest32} {state : ActionStateV1}

theorem finalizable_eq_ok {effect : EffectReferenceV1} :
    finalizable state transactionId = .ok effect ↔ state = .Externalized effect transactionId ∨
      ∃ prior reorg, state = .FinalityInvalidated effect transactionId prior reorg := by
  unfold finalizable
  cases state with
  | Externalized found existing | FinalityInvalidated found existing =>
    by_cases h : existing = transactionId <;> simp [h]
  | _ => simp

theorem invalidated_eq_ok {state' : ActionStateV1} {reorg : Digest32} :
    invalidated state transactionId reorg = .ok state' ↔ ∃ effect evidence,
      state = .Final effect transactionId evidence ∧
        state' = .FinalityInvalidated effect transactionId evidence reorg := by
  unfold invalidated
  cases state with
  | Final found existing evidence => by_cases h : existing = transactionId <;> simp [h, eq_comm]
  | _ => simp

/-- Reports of what became of a committed effect. -/
def isReport : RouteEventV1 → Bool
  | .CustodyProgressRecorded _ _ _ _ _ | .ActionExternalized _ _ _ _ _ => true
  | _ => false

variable (H s eventId epoch) in
/-- What each accepted event does, with what it found. -/
inductive Rule : RouteEventV1 → RouteDecisionV1 → Prop where
  | terms {event : RouteEventV1} (bindings : Option FrozenBindingsV1) (refunds : Option RefundBindingsV1)
      (hbindings : s.bindings.isSome → bindings = s.bindings) (hrefunds : s.refunds.isSome → refunds = s.refunds)
      (hphase : refunds = s.refunds ∨ s.coordination = .TermsFrozen) (hevent : isReport event = false) :
      Rule event (onlySnapshot { s with bindings, refunds })
  | commit (intent : ActionIntentV1) (haborted : s.abortedUnfunded = false)
      (hpre : validateActionPreconditions s intent.leg intent.kind = .ok ())
      (hnew : intent.kind = .Funding → s.health = .Running)
      (hclaim : intent.kind = .Claim → intent.containsRouteSecret)
      (hcustody : intent.containsRouteSecret → intent.dispatch.isCustody) :
      Rule (.CommitAction intent) (authorize H s eventId intent epoch [])
  | reauthorize {event : RouteEventV1} (intent : ActionIntentV1) (prior : EffectReferenceV1)
      (hcommitted : (s.leg intent.leg).action intent.kind = .Committed prior) (hepoch : prior.fencingEpoch < epoch)
      (hsemantic : prior.semanticDigest = intent.semanticDigest)
      (hsecret : prior.containsRouteSecret = intent.containsRouteSecret)
      (htransaction : prior.expectedTransactionId = intent.dispatch.expectedTransactionId)
      (hcustody : intent.containsRouteSecret → intent.dispatch.isCustody)
      (hevent : (∃ digest, event = .ReauthorizeCommittedAction prior.effectId digest intent) ∨
        ∃ digest, event = .ReauthorizePartiallyExternalizedCustody prior.effectId digest intent) :
      Rule event (authorize H s eventId intent epoch [prior.effectId])
  | progress (leg : LegIdV1) (kind : ActionKindV1) (reference : EffectReferenceV1) (evidence : Digest32)
      (exposure : Option PublicExposureV1) (hcommitted : (s.leg leg).action kind = .Committed reference)
      (hsecret : exposure.isSome → reference.containsRouteSecret) :
      Rule (.CustodyProgressRecorded leg kind reference.effectId evidence exposure)
        (onlySnapshot (exposed s exposure))
  | externalize (leg : LegIdV1) (kind : ActionKindV1) (reference : EffectReferenceV1) (transactionId : Digest32)
      (exposure : Option PublicExposureV1) (hcommitted : (s.leg leg).action kind = .Committed reference)
      (hsecret : exposure.isSome → reference.containsRouteSecret) :
      Rule (.ActionExternalized leg kind reference.effectId transactionId exposure)
        (onlySnapshot ((exposed s exposure).setAction leg kind (.Externalized reference transactionId)))
  | finalize (leg : LegIdV1) (kind : ActionKindV1) (effect : EffectReferenceV1) (transactionId evidence : Digest32)
      (hout : finalizable ((s.leg leg).action kind) transactionId = .ok effect) :
      Rule (.ActionFinalized leg kind transactionId evidence)
        (onlySnapshot (s.setAction leg kind (.Final effect transactionId evidence)))
  | invalidate (leg : LegIdV1) (kind : ActionKindV1) (transactionId reorg : Digest32) (state : ActionStateV1)
      (hfinal : invalidated ((s.leg leg).action kind) transactionId reorg = .ok state) :
      Rule (.ObservationInvalidated leg kind transactionId reorg)
        (onlySnapshot { s.setAction leg kind state with health := .RecoveryOnly })
  | observe (exposure : PublicExposureV1) :
      Rule (.SecretObserved exposure) (onlySnapshot (exposed s (some exposure)))
  | health (target : HealthStateV1) (reason : Digest32)
      (hlock : ¬ (target = .Running ∧ s.health.restrictsToRecovery ∧ s.hasOpenFunds)) :
      Rule (.SetHealth target reason) (onlySnapshot { s with health := target })
  | timer {event : RouteEventV1} (timers : List RouteTimerMutationV1) (hevent : isReport event = false) :
      Rule event ⟨s, [], [], timers⟩
  | abort (reason : Digest32) (hhealth : s.health = .Running) (haborted : s.abortedUnfunded = false)
      (hup : s.upstream.funding.progress = .NotPrepared) (hdown : s.downstream.funding.progress = .NotPrepared)
      (hsecret : s.secretVisibility.isPublic = false) :
      Rule (.AbortUnfunded reason) (onlySnapshot { s with abortedUnfunded := true })

variable {event : RouteEventV1} {d : RouteDecisionV1}

theorem freezeTerms_rule {bindings : FrozenBindingsV1} (h : freezeTerms s bindings = .ok d) (hev : isReport event = false) :
    Rule H s eventId epoch event d := by
  simp only [freezeTerms, inversion, not_or] at h
  obtain ⟨-, ⟨hbdgs, -⟩, rfl⟩ := h
  exact .terms (some bindings) s.refunds (fun h => absurd h hbdgs) (fun _ => rfl) (.inl rfl) hev

theorem checkPrior_eq_ok {priorEffectId : Digest32} {intent : ActionIntentV1} :
    checkPrior s priorEffectId intent epoch = .ok u ↔ ∃ prior,
      (s.leg intent.leg).action intent.kind = .Committed prior ∧ prior.effectId = priorEffectId ∧
        prior.fencingEpoch < epoch ∧ prior.semanticDigest = intent.semanticDigest ∧
        prior.containsRouteSecret = intent.containsRouteSecret ∧
        prior.expectedTransactionId = intent.dispatch.expectedTransactionId := by
  simp only [checkPrior, inversion, committedReference_eq_ok, not_or, Decidable.not_not, UInt64.not_le]

theorem exposeExternalized_eq_ok {contains : Bool} {exposure : Option PublicExposureV1}
    (h : exposeExternalized s contains transactionId exposure = .ok s') :
    s' = exposed s exposure ∧ (exposure.isSome → contains) := by
  unfold exposeExternalized at h
  split at h
  · rename_i hctn
    refine ⟨?_, fun _ => hctn⟩
    cases exposure with
    | none =>
      simp only [inversion] at h
      exact h.2.symm
    | some exposure =>
      simp only [inversion] at h
      exact h.2.2.symm
  · simp only [inversion] at h
    obtain ⟨hnone, rfl⟩ := h
    cases exposure with
    | none => exact ⟨rfl, nofun⟩
    | some exposure => exact absurd rfl hnone

/-- **The rule behind an accepted event.** -/
theorem rule_of_reduceEvent (h : reduceEvent H s eventId event epoch = .ok d) : Rule H s eventId epoch event d := by
  cases event with
  | FreezeTerms bindings => exact freezeTerms_rule h rfl
  | FreezeTermsV2 checkpoint =>
    simp only [reduceEvent, inversion] at h
    exact freezeTerms_rule h.2 rfl
  | ArmRefunds refunds =>
    simp only [reduceEvent, inversion, not_or, Decidable.not_not] at h
    obtain ⟨-, ⟨-, hrfs, hph⟩, rfl⟩ := h
    exact .terms s.bindings (some refunds) (fun _ => rfl) (fun h => absurd h hrfs) (.inr hph) rfl
  | CommitAction intent =>
    simp only [reduceEvent, commitAction, inversion, requireAllowedFor_eq_ok, not_and, Bool.not_eq_false,
      Bool.not_eq_true] at h
    obtain ⟨habt, hpre, hnew, hcl, hcust, rfl⟩ := h
    exact .commit intent habt hpre (fun hkind => (hnew hkind).1) hcl hcust
  | ReauthorizeCommittedAction priorEffectId evidence intent =>
    simp only [reduceEvent, reauthorizeCommittedAction, inversion, checkPrior_eq_ok, not_and, Bool.not_eq_false] at h
    obtain ⟨-, ⟨prior, hcom, rfl, hep, hsem, hsec, htx⟩, hcust, rfl⟩ := h
    exact .reauthorize intent prior hcom hep hsem hsec htx hcust (.inl ⟨evidence, rfl⟩)
  | ReauthorizePartiallyExternalizedCustody priorEffectId evidence intent =>
    simp only [reduceEvent, reauthorizePartiallyExternalizedCustody, inversion, checkPrior_eq_ok, not_or,
      Bool.not_eq_false] at h
    obtain ⟨⟨-, hcust⟩, ⟨prior, hcom, rfl, hep, hsem, hsec, htx⟩, rfl⟩ := h
    exact .reauthorize intent prior hcom hep hsem hsec htx (fun _ => hcust)
      (.inr ⟨evidence, rfl⟩)
  | CustodyProgressRecorded leg kind effectId evidence exposure =>
    simp only [reduceEvent, custodyProgressRecorded, inversion, committedReference_eq_ok, Decidable.not_not] at h
    obtain ⟨reference, hcom, rfl, h⟩ := h
    cases exposure with
    | none =>
      cases h
      exact .progress leg kind reference evidence none hcom nofun
    | some exposure =>
      simp only [inversion, not_or, Bool.not_eq_false] at h
      obtain ⟨⟨hsec, -⟩, rfl⟩ := h
      exact .progress leg kind reference evidence (some exposure) hcom fun _ => hsec
  | ActionExternalized leg kind effectId transactionId exposure =>
    simp only [reduceEvent, actionExternalized, inversion, committedReference_eq_ok, not_or, Decidable.not_not] at h
    obtain ⟨reference, hcom, ⟨rfl, -⟩, s', hexposed, rfl⟩ := h
    obtain ⟨rfl, hsec⟩ := exposeExternalized_eq_ok hexposed
    exact .externalize leg kind reference transactionId exposure hcom hsec
  | ActionFinalized leg kind transactionId evidence =>
    simp only [reduceEvent, actionFinalized, inversion] at h
    obtain ⟨effect, hout, rfl⟩ := h
    exact .finalize leg kind effect transactionId evidence hout
  | ObservationInvalidated leg kind transactionId reorg =>
    simp only [reduceEvent, observationInvalidated, inversion] at h
    obtain ⟨state, hfin, rfl⟩ := h
    exact .invalidate leg kind transactionId reorg state hfin
  | SecretObserved exposure =>
    cases h
    exact .observe exposure
  | SetHealth target reason =>
    simp only [reduceEvent, inversion] at h
    obtain ⟨hlock, rfl⟩ := h
    exact .health target reason hlock
  | ScheduleTimer kind deadline context =>
    simp only [reduceEvent, inversion] at h
    obtain ⟨-, rfl⟩ := h
    exact .timer _ rfl
  | CancelTimer timerId =>
    cases h
    exact .timer _ rfl
  | AbortUnfunded reason =>
    simp only [reduceEvent, inversion, requireNewWorkAllowed_eq_ok, not_or, Decidable.not_not, Bool.not_eq_true] at h
    obtain ⟨⟨hhl, habt⟩, ⟨-, hup, hdown, hsec⟩, rfl⟩ := h
    exact .abort reason hhl habt hup hdown hsec

theorem refundsArmed_of_preconditions (h : validateActionPreconditions s leg kind = .ok u) :
    s.refunds.isSome ∧ ((s.leg leg).action kind).progress = .NotPrepared := by
  simp only [validateActionPreconditions, inversion, Decidable.not_not, Option.isNone_iff_eq_none,
    ← Option.isSome_iff_ne_none, ← ne_eq] at h
  exact ⟨h.1, h.2.1⟩

/-! ## Accepted events -/

variable (H) in
/-- The digest under which a snapshot keeps its last event. -/
def digestOf (event : RouteEventV1) : Digest32 := eventDigest H (strBytes "DRE1" ++ encodeEventBody event)

/-- **A successful reduction taken apart.** -/
theorem reduceRoute_eq_ok :
    reduceRoute H s eventId event epoch = .ok d ↔
      Valid s ∧ eventId ≠ 0 ∧ validateEvent H event = .ok () ∧ epoch ≠ 0 ∧ ∃ draft revision,
        reduceEvent H s eventId event epoch = .ok draft ∧ checkedSucc64 s.revision = some revision ∧
        (s.secretVisibility.isPublic → draft.snapshot.secretVisibility.isPublic) ∧
        (s.health.restrictsToRecovery → s.hasOpenFunds → draft.snapshot.health.restrictsToRecovery) ∧
        Valid (advance draft.snapshot revision revision (digestOf H event)) ∧
        d = { draft with snapshot := advance draft.snapshot revision revision (digestOf H event) } := by
  simp only [reduceRoute, inversion, material, validate_eq_ok, validateDigest, RouteEventV1.encodeCanonical,
    not_and, Bool.not_eq_false]
  constructor
  · rintro ⟨hval, hevId, hev, hep, _, ⟨-, rfl⟩, draft, hdr, revision, hrev, sequence, hsequence, hsec,
      hlock, hnext, rfl⟩
    rw [← hval.sequence, hrev] at hsequence
    cases hsequence
    exact ⟨hval, hevId, hev, hep, draft, revision, hdr, hrev, hsec, hlock, hnext, rfl⟩
  · rintro ⟨hval, hevId, hev, hep, draft, revision, hdr, hrev, hsec, hlock, hnext, rfl⟩
    exact ⟨hval, hevId, hev, hep, _, ⟨hev, rfl⟩, draft, hdr, revision, hrev, revision,
      by rw [← hval.sequence, hrev], hsec, hlock, hnext, rfl⟩

variable {event : RouteEventV1} {d : RouteDecisionV1}

/-- What a step does to the identity, the abort flag, the refunds and the health of a route. -/
structure Framed (s : RouteSnapshotV1) (event : RouteEventV1) (s' : RouteSnapshotV1) : Prop where
  routeId : s'.routeId = s.routeId
  aborted : s'.abortedUnfunded = s.abortedUnfunded ∨
    (s.upstream.funding.progress = .NotPrepared ∧ s.secretVisibility.isPublic = false)
  refunds : s'.refunds = s.refunds ∨ s.coordination = .TermsFrozen
  health : s'.health = s.health ∨ (∃ reason, event = .SetHealth s'.health reason) ∨ (s'.health = .RecoveryOnly ∧
    ∃ leg kind transactionId reorg, event = .ObservationInvalidated leg kind transactionId reorg)

theorem Framed.of_same (hid : s'.routeId = s.routeId)
    (habt : s'.abortedUnfunded = s.abortedUnfunded) (hrfs : s'.refunds = s.refunds) (hhl : s'.health = s.health) :
    Framed s event s' := ⟨hid, .inl habt, .inl hrfs, .inl hhl⟩

theorem Framed.setAction (leg : LegIdV1) (kind : ActionKindV1) (state : ActionStateV1) :
    Framed s event (s.setAction leg kind state) :=
  .of_same (routeId_setAction ..) (abortedUnfunded_setAction ..) (refunds_setAction ..) (health_setAction ..)

theorem Framed.exposed (exposure : Option PublicExposureV1) : Framed s event (exposed s exposure) :=
  .of_same (routeId_exposed _) (abortedUnfunded_exposed _) (refunds_exposed _) (health_exposed _)

variable (h : reduceRoute H s eventId event epoch = .ok d)
include h

theorem accepted : Valid s ∧ Valid d.snapshot ∧ ∃ draft revision, Rule H s eventId epoch event draft ∧
      checkedSucc64 s.revision = some revision ∧
      d = { draft with snapshot := advance draft.snapshot revision revision (digestOf H event) } := by
  obtain ⟨hval, -, -, -, draft, revision, hdr, hrev, -, -, hnext, rfl⟩ := reduceRoute_eq_ok.mp h
  exact ⟨hval, hnext, draft, revision, rule_of_reduceEvent hdr, hrev, rfl⟩

theorem revision_step : d.snapshot.revision.toNat = s.revision.toNat + 1 := by
  obtain ⟨-, -, draft, revision, -, hrev, rfl⟩ := accepted h
  show revision.toNat = _
  unfold checkedSucc64 at hrev
  split at hrev
  · rename_i hroom
    cases hrev
    rw [UInt64.toNat_add, Nat.mod_eq_of_lt (by simpa [u64Bound] using hroom)]
    rfl
  · cases hrev

theorem frame_step : Framed s event d.snapshot := by
  obtain ⟨-, -, draft, revision, hrule, -, rfl⟩ := accepted h
  suffices hf : Framed s event draft.snapshot from ⟨hf.routeId, hf.aborted, hf.refunds, hf.health⟩
  cases hrule with
  | terms bindings refunds _ _ hph => exact ⟨rfl, .inl rfl, hph, .inl rfl⟩
  | health target reason => exact ⟨rfl, .inl rfl, .inl rfl, .inr (.inl ⟨reason, rfl⟩)⟩
  | abort reason _ _ hup _ hsec => exact ⟨rfl, .inr ⟨hup, hsec⟩, .inl rfl, .inl rfl⟩
  | timer timers => exact .of_same rfl rfl rfl rfl
  | observe exposure => exact .exposed (some exposure)
  | progress leg kind reference evidence exposure => exact .exposed exposure
  | commit | reauthorize | finalize => exact .setAction ..
  | externalize leg kind reference transactionId exposure => refine .of_same ?_ ?_ ?_ ?_ <;> simp [onlySnapshot]
  | invalidate leg kind transactionId reorg state =>
    exact ⟨routeId_setAction leg kind state, .inl (abortedUnfunded_setAction leg kind state),
      .inl (refunds_setAction leg kind state), .inr (.inr ⟨rfl, leg, kind, transactionId, reorg, rfl⟩)⟩

/-- **The actions.**  An action moves on from what it is, or it is committed and had not been prepared. -/
theorem action_step (leg : LegIdV1) (kind : ActionKindV1) :
    ((d.snapshot.leg leg).action kind).progress ≠ .NotPrepared ∧ ((s.leg leg).action kind).progress ≠ .NotPrepared ∨
      (d.snapshot.leg leg).action kind = (s.leg leg).action kind ∨
      ∃ intent, event = .CommitAction intent ∧ intent.leg = leg ∧ intent.kind = kind ∧
        validateActionPreconditions s leg kind = .ok () := by
  obtain ⟨-, -, draft, revision, hrule, -, rfl⟩ := accepted h
  have hsame {leg' : LegIdV1} {kind' : ActionKindV1} (hne : ¬ (leg = leg' ∧ kind = kind')) (s' : RouteSnapshotV1)
      (hs' : s'.leg leg = s.leg leg) (state : ActionStateV1) :
      ((s'.setAction leg' kind' state).leg leg).action kind = (s.leg leg).action kind := by
    rw [action_setAction, if_neg hne, hs']
  simp only [leg_advance]
  cases hrule with
  | terms | health | abort => cases leg <;> exact .inr (.inl rfl)
  | timer timers => exact .inr (.inl rfl)
  | observe | progress => exact .inr (.inl (by rw [onlySnapshot, leg_exposed]))
  | commit intent habt hpre =>
    by_cases heq : leg = intent.leg ∧ kind = intent.kind
    · obtain ⟨rfl, rfl⟩ := heq
      exact .inr (.inr ⟨intent, rfl, rfl, rfl, hpre⟩)
    · exact .inr (.inl (hsame heq s rfl _))
  | reauthorize intent prior hcom =>
    by_cases heq : leg = intent.leg ∧ kind = intent.kind
    · obtain ⟨rfl, rfl⟩ := heq
      refine .inl ⟨?_, by rw [hcom]; exact nofun⟩
      rw [authorize, action_setAction, if_pos ⟨rfl, rfl⟩]
      exact nofun
    · exact .inr (.inl (hsame heq s rfl _))
  | externalize leg' kind' reference transactionId exposure hcom =>
    by_cases heq : leg = leg' ∧ kind = kind'
    · obtain ⟨rfl, rfl⟩ := heq
      refine .inl ⟨?_, by rw [hcom]; exact nofun⟩
      rw [onlySnapshot, action_setAction, if_pos ⟨rfl, rfl⟩]
      exact nofun
    · exact .inr (.inl (hsame heq _ (leg_exposed _ _) _))
  | finalize leg' kind' effect transactionId evidence hout =>
    by_cases heq : leg = leg' ∧ kind = kind'
    · obtain ⟨rfl, rfl⟩ := heq
      refine .inl ⟨?_, ?_⟩
      · rw [onlySnapshot, action_setAction, if_pos ⟨rfl, rfl⟩]
        exact nofun
      · rcases finalizable_eq_ok.mp hout with hstate | ⟨prior, reorg, hstate⟩ <;> rw [hstate] <;> exact nofun
    · exact .inr (.inl (hsame heq s rfl _))
  | invalidate leg' kind' transactionId reorg state hfin =>
    by_cases heq : leg = leg' ∧ kind = kind'
    · obtain ⟨rfl, rfl⟩ := heq
      obtain ⟨effect, evidence, hstate, rfl⟩ := invalidated_eq_ok.mp hfin
      refine .inl ⟨?_, by rw [hstate]; exact nofun⟩
      show ((RouteSnapshotV1.leg (s.setAction leg kind _) leg).action kind).progress ≠ _
      rw [action_setAction, if_pos ⟨rfl, rfl⟩]
      exact nofun
    · refine .inr (.inl ?_)
      rw [← hsame heq s rfl state]
      cases leg <;> rfl

theorem prepared_step (leg : LegIdV1) (kind : ActionKindV1)
    (hprep : ((s.leg leg).action kind).progress ≠ .NotPrepared) :
    ((d.snapshot.leg leg).action kind).progress ≠ .NotPrepared := by
  rcases action_step h leg kind with ⟨haft, -⟩ | hsame | ⟨intent, -, -, -, hpre⟩
  · exact haft
  · rwa [hsame]
  · simp only [validateActionPreconditions, inversion, Decidable.not_not] at hpre
    exact absurd hpre.2.1 hprep

theorem committed_of_prepared (leg : LegIdV1) (kind : ActionKindV1)
    (hbef : ((s.leg leg).action kind).progress = .NotPrepared)
    (haft : ((d.snapshot.leg leg).action kind).progress ≠ .NotPrepared) :
    ∃ intent, event = .CommitAction intent ∧ intent.leg = leg ∧ intent.kind = kind ∧
      validateActionPreconditions s leg kind = .ok () := by
  rcases action_step h leg kind with ⟨-, hprep⟩ | hsame | hcmt
  · exact absurd hbef hprep
  · rw [hsame] at haft
    exact absurd hbef haft
  · exact hcmt

/-- **The secret.**  What is public stays as it is; what becomes public was observed, or came with a committed action
    that carries it. -/
theorem secret_step : (s.secretVisibility.isPublic → d.snapshot.secretVisibility = s.secretVisibility) ∧
      (s.secretVisibility.isPublic = false → d.snapshot.secretVisibility.isPublic →
        (∃ exposure, event = .SecretObserved exposure) ∨
          ∃ leg kind reference, (s.leg leg).action kind = .Committed reference ∧ reference.containsRouteSecret) := by
  obtain ⟨-, -, draft, revision, hrule, -, rfl⟩ := accepted h
  simp only [secretVisibility_advance]
  have hsame (h : draft.snapshot.secretVisibility = s.secretVisibility) :
      (s.secretVisibility.isPublic → draft.snapshot.secretVisibility = s.secretVisibility) ∧
        (s.secretVisibility.isPublic = false → draft.snapshot.secretVisibility.isPublic →
          (∃ exposure, event = .SecretObserved exposure) ∨
            ∃ leg kind reference, (s.leg leg).action kind = .Committed reference ∧ reference.containsRouteSecret) := by
    refine ⟨fun _ => h, fun hpriv hpub => ?_⟩
    rw [h, hpriv] at hpub
    cases hpub
  cases hrule with
  | terms | health | abort | timer => exact hsame rfl
  | commit | reauthorize | finalize => exact hsame (secretVisibility_setAction ..)
  | invalidate leg kind transactionId reorg state => exact hsame (secretVisibility_setAction leg kind state)
  | observe exposure => exact ⟨secretVisibility_exposed_of_public, fun _ _ => .inl ⟨exposure, rfl⟩⟩
  | progress leg kind reference evidence exposure hcom hsec =>
    cases exposure with
    | none => exact hsame rfl
    | some exposure =>
      exact ⟨secretVisibility_exposed_of_public, fun _ _ => .inr ⟨leg, kind, reference, hcom, hsec rfl⟩⟩
  | externalize leg kind reference transactionId exposure hcom hsec =>
    cases exposure with
    | none => exact hsame (secretVisibility_setAction ..)
    | some exposure =>
      simp only [onlySnapshot, secretVisibility_setAction]
      exact ⟨secretVisibility_exposed_of_public, fun _ _ => .inr ⟨leg, kind, reference, hcom, hsec rfl⟩⟩

omit h

end Rules

/-! ## Runs -/

structure RouteInput where
  eventId : Digest32
  event : RouteEventV1
  fencingEpoch : UInt64
  deriving DecidableEq, Repr

section Runs

variable (H : List UInt8 → Digest32)

def reduce (s : RouteSnapshotV1) (input : RouteInput) : Except ReduceErrorV1 RouteDecisionV1 :=
  reduceRoute H s input.eventId input.event input.fencingEpoch

/-- The snapshot after an input; a rejected one changes nothing. -/
def next (s : RouteSnapshotV1) (input : RouteInput) : RouteSnapshotV1 :=
  match reduce H s input with
  | .ok d => d.snapshot
  | .error _ => s

/-- The snapshots of the runs from a new route whose inputs meet a condition. -/
def ReachableUnder (clear : RouteSnapshotV1 → RouteInput → Prop) : RouteSnapshotV1 → Prop :=
  Reach (fun s => ∃ routeId, RouteSnapshotV1.new routeId = .ok s) clear (next H)

abbrev Reachable : RouteSnapshotV1 → Prop := ReachableUnder H fun _ _ => True

variable {H}

variable {routeId : Digest32} {s : RouteSnapshotV1}

theorem new_eq_ok (h : RouteSnapshotV1.new routeId = .ok s) :
    routeId ≠ 0 ∧ s = ⟨routeId, 0, .Negotiating, .idle, .idle, .Private, .Running, none, none, false, 0, 0⟩ := by
  unfold RouteSnapshotV1.new at h
  split at h
  · cases h
  · rename_i hid
    cases h
    exact ⟨hid, rfl⟩

theorem action_new (h : RouteSnapshotV1.new routeId = .ok s) (leg : LegIdV1)
    (kind : ActionKindV1) : (s.leg leg).action kind = .NotPrepared := by
  obtain ⟨-, rfl⟩ := new_eq_ok h
  cases leg <;> cases kind <;> rfl

theorem valid_new (h : RouteSnapshotV1.new routeId = .ok s) : Valid s := by
  have hidle := action_new h
  obtain ⟨hid, rfl⟩ := new_eq_ok h
  exact {
    routeId := hid
    sequence := rfl
    untouched := fun _ => rfl
    frozen := nofun
    armed := fun leg kind h => absurd (by rw [hidle leg kind]; rfl) h
    aborted := nofun
    action := fun leg kind => by rw [hidle leg kind]; rfl
    exclusive := forall_leg.mpr ⟨.inl rfl, .inl rfl⟩
    purpose := fun leg kind => by rw [hidle leg kind]; rfl
    upstreamFirst := fun h => absurd rfl h
    recovering := fun leg kind h => by rw [hidle leg kind] at h; cases h
    refundOut := forall_leg.mpr ⟨fun h => absurd rfl h, fun h => absurd rfl h⟩
    claimFinal := forall_leg.mpr ⟨fun h => absurd rfl h, fun h => absurd rfl h⟩
    upstreamClaim := fun h => absurd rfl h
    claimOut := forall_leg.mpr ⟨nofun, nofun⟩
    secret := rfl
    bindings := nofun
    refunds := nofun
    phase := rfl }

/-- **Run rule.**  What holds of a new route and is kept by every accepted input that meets the condition holds in
    every snapshot reached; the snapshots are valid throughout. -/
theorem ReachableUnder.invariant {P : RouteSnapshotV1 → Prop}
    (hnew : ∀ routeId s, RouteSnapshotV1.new routeId = .ok s → P s)
    (hstep : ∀ s input d, Valid s → P s → clear s input → reduce H s input = .ok d → P d.snapshot) (h : ReachableUnder H clear s) : P s ∧ Valid s := by
  refine Reach.invariant (P := fun s => P s ∧ Valid s) ?_ ?_ h
  · rintro s ⟨routeId, hs⟩
    exact ⟨hnew routeId s hs, valid_new hs⟩
  · rintro s input ⟨hs, hval⟩ hclr
    unfold next
    cases hd : reduce H s input with
    | error e => exact ⟨hs, hval⟩
    | ok d => exact ⟨hstep s input d hval hs hclr hd, (accepted hd).2.1⟩

theorem ReachableUnder.valid
    (h : ReachableUnder H clear s) : Valid s :=
  (ReachableUnder.invariant (P := fun _ => True) (fun _ _ _ => trivial) (fun _ _ _ _ _ _ _ => trivial) h).2

end Runs

end DomProtocol.Route
