import DomProtocol.Route.Safety

/-!
# `Route.Exits` — ways out of a funded leg

When is an event accepted?  The first sections answer that for the events that carry a route on: commits of fundings
and refunds, their externalization and their finality.  Then: which legs always have a way out, and which events close
the last one.
-/

namespace DomProtocol.Route

open Lib

variable {a : ActionStateV1}

/-! ## Accepted updates -/

section Updates

variable {s : RouteSnapshotV1} {leg : LegIdV1} {kind : ActionKindV1} {state : ActionStateV1}

/-- How actions other than claims may move: what was out or final stays so, and what is newly prepared has what it
    needs. -/
structure Moved (s s' : RouteSnapshotV1) : Prop where
  out : ∀ leg kind, ((s.leg leg).action kind).progress.isOut → ((s'.leg leg).action kind).progress.isOut
  final : ∀ leg kind, ((s.leg leg).action kind).wasFinal → ((s'.leg leg).action kind).wasFinal
  invalidated : ∀ leg kind, ((s'.leg leg).action kind).isInvalidated → ((s.leg leg).action kind).isInvalidated
  claim : ∀ leg, (s'.leg leg).claim = (s.leg leg).claim
  refund : ∀ leg, (s'.leg leg).refund.progress ≠ .NotPrepared → (s.leg leg).refund.progress ≠ .NotPrepared ∨
    ((s.leg leg).funding.progress.isOut ∧ (s.leg leg).claim.progress = .NotPrepared)
  funding : s'.downstream.funding.progress ≠ .NotPrepared → s.downstream.funding.progress ≠ .NotPrepared ∨
    s.upstream.funding.wasFinal

theorem Valid.moved {draft : RouteSnapshotV1} (h : Valid s) (hmvd : Moved s draft)
    (hsame : draft.routeId = s.routeId ∧ draft.secretVisibility = s.secretVisibility ∧ draft.bindings = s.bindings ∧
      draft.refunds = s.refunds)
    (harmed : ∀ leg kind, ((draft.leg leg).action kind).progress ≠ .NotPrepared → s.refunds.isSome)
    (habt : draft.abortedUnfunded → draft.hasOpenFunds = false ∧ draft.secretVisibility.isPublic = false)
    (haction : ∀ leg kind, validateActionState ((draft.leg leg).action kind) = .ok () ∧
      validateActionPurpose ((draft.leg leg).action kind) kind = .ok ())
    (hrecovering : ∀ leg kind, ((draft.leg leg).action kind).isInvalidated → draft.health.restrictsToRecovery)
    {revision : UInt64} (hrev : revision ≠ 0) (digest : Digest32) : Valid (advance draft revision revision digest) := by
  obtain ⟨hid, hsec, hbdgs, hrfs⟩ := hsame
  constructor
  case sequence => rfl
  case phase => rfl
  case untouched => exact fun hzero => absurd hzero hrev
  case routeId => exact hid.trans_ne h.routeId
  case frozen => rw [refunds_advance, bindings_advance, hrfs, hbdgs]; exact h.frozen
  case aborted => exact habt
  case upstreamFirst => exact fun hfdg => hmvd.final .Upstream .Funding ((hmvd.funding hfdg).elim h.upstreamFirst id)
  case upstreamClaim =>
    intro hcl
    rw [secretVisibility_advance, hsec]
    exact h.upstreamClaim (hmvd.claim .Upstream ▸ hcl)
  case secret => rw [secretVisibility_advance, hsec]; exact h.secret
  case bindings => rw [bindings_advance, hbdgs]; exact h.bindings
  case refunds => rw [refunds_advance, hrfs]; exact h.refunds
  all_goals simp only [leg_advance]
  case armed => rw [refunds_advance, hrfs]; exact harmed
  case action => exact fun leg kind => (haction leg kind).1
  case purpose => exact fun leg kind => (haction leg kind).2
  case recovering => exact hrecovering
  case exclusive =>
    intro leg
    rw [hmvd.claim]
    by_cases hrf : (draft.leg leg).refund.progress = .NotPrepared
    · exact .inr hrf
    · rcases hmvd.refund leg hrf with hbef | ⟨-, hcl⟩
      · exact .inl ((h.exclusive leg).resolve_right hbef)
      · exact .inl hcl
  case refundOut => exact fun leg hrf => hmvd.out leg .Funding ((hmvd.refund leg hrf).elim (h.refundOut leg) And.left)
  case claimFinal =>
    intro leg hcl
    rw [hmvd.claim] at hcl
    exact hmvd.final leg .Funding (h.claimFinal leg hcl)
  case claimOut =>
    intro leg hout
    rw [hmvd.claim] at hout
    rw [secretVisibility_advance, hsec]
    exact h.claimOut leg hout

/-- What an action needs to be prepared, claims apart. -/
def Admits (s : RouteSnapshotV1) (leg : LegIdV1) : ActionKindV1 → Prop
  | .Funding => leg = .Downstream → s.upstream.funding.wasFinal
  | .Claim => False
  | .Refund => (s.leg leg).funding.progress.isOut ∧ (s.leg leg).claim.progress = .NotPrepared

/-- What the new state of an action has to keep of the old one. -/
structure Follows (s : RouteSnapshotV1) (leg : LegIdV1) (kind : ActionKindV1) (state : ActionStateV1) : Prop where
  noClaim : kind ≠ .Claim
  out : ((s.leg leg).action kind).progress.isOut → state.progress.isOut
  final : ((s.leg leg).action kind).wasFinal → state.wasFinal
  sound : state.isInvalidated = false
  prepared : ((s.leg leg).action kind).progress ≠ .NotPrepared ∨ Admits s leg kind

theorem Follows.moved (h : Follows s leg kind state) : Moved s (s.setAction leg kind state) := by
  have hcs (P : ActionStateV1 → Prop) (leg' : LegIdV1) (kind' : ActionKindV1)
      (hnew : leg' = leg → kind' = kind → P state) (hold : P ((s.leg leg').action kind')) :
      P (((s.setAction leg kind state).leg leg').action kind') := by
    rw [action_setAction]
    split
    · rename_i heq
      exact hnew heq.1 heq.2
    · exact hold
  constructor
  · intro leg' kind' hout
    refine hcs (fun a => a.progress.isOut = true) leg' kind' ?_ hout
    rintro rfl rfl
    exact h.out hout
  · intro leg' kind' hfin
    refine hcs (fun a => a.wasFinal = true) leg' kind' ?_ hfin
    rintro rfl rfl
    exact h.final hfin
  · intro leg' kind'
    refine hcs (fun a => a.isInvalidated = true → _) leg' kind' ?_ id
    rintro rfl rfl hinv
    rw [h.sound] at hinv
    cases hinv
  · intro leg'
    refine hcs (fun a => a = (s.leg leg').claim) leg' .Claim ?_ rfl
    intro _ hcl
    exact absurd hcl.symm h.noClaim
  · intro leg'
    refine hcs (fun a => a.progress ≠ .NotPrepared → _) leg' .Refund ?_ .inl
    rintro rfl rfl -
    exact h.prepared
  · refine hcs (fun a => a.progress ≠ .NotPrepared → _) .Downstream .Funding ?_ .inl
    rintro rfl rfl -
    exact h.prepared.imp_right fun hadmits => hadmits rfl

theorem Valid.setAction (h : Valid s) (hfol : Follows s leg kind state) (harmed : s.refunds.isSome)
    (habt : s.abortedUnfunded = false) (hstate : validateActionState state = .ok ())
    (hpur : validateActionPurpose state kind = .ok ()) {revision : UInt64} (hrev : revision ≠ 0)
    (digest : Digest32) : Valid (advance (s.setAction leg kind state) revision revision digest) := by
  refine h.moved hfol.moved ?_ (fun _ _ _ => harmed) ?_ ?_ ?_ hrev digest
  · exact ⟨routeId_setAction .., secretVisibility_setAction .., bindings_setAction .., refunds_setAction ..⟩
  · rw [abortedUnfunded_setAction, habt]
    exact nofun
  · intro leg' kind'
    rw [action_setAction]
    split
    · rename_i heq
      rw [heq.2]
      exact ⟨hstate, hpur⟩
    · exact ⟨h.action leg' kind', h.purpose leg' kind'⟩
  · intro leg' kind' hinv
    rw [health_setAction]
    exact h.recovering leg' kind' (hfol.moved.invalidated leg' kind' hinv)

end Updates

/-! ## Accepted events -/

section Acceptance

variable {H : List UInt8 → Digest32} {s : RouteSnapshotV1}

def Room (s : RouteSnapshotV1) (n : Nat) : Prop := s.revision.toNat + n < 2 ^ 64

theorem checkedSucc64_of_room {n : UInt64} (h : n.toNat + 1 < 2 ^ 64) :
    ∃ m, checkedSucc64 n = some m ∧ m.toNat = n.toNat + 1 ∧ m ≠ 0 := by
  have hsum : (n + 1).toNat = n.toNat + 1 := by
    rw [UInt64.toNat_add, Nat.mod_eq_of_lt (by simpa using h)]
    rfl
  refine ⟨n + 1, by rw [checkedSucc64, if_pos (by simpa [u64Bound] using h)], hsum, fun hzero => ?_⟩
  rw [hzero] at hsum
  exact absurd hsum (Nat.succ_ne_zero _).symm

theorem reduce_of_rule (input : RouteInput) (draft : RouteDecisionV1) (hval : Valid s) (hroom : Room s 1)
    (hevId : input.eventId ≠ 0) (hev : validateEvent H input.event = .ok ()) (hep : input.fencingEpoch ≠ 0)
    (hdr : reduceEvent H s input.eventId input.event input.fencingEpoch = .ok draft)
    (hsec : draft.snapshot.secretVisibility = s.secretVisibility)
    (hhl : s.hasOpenFunds → draft.snapshot.health = s.health)
    (hnext : ∀ revision digest, revision ≠ 0 → Valid (advance draft.snapshot revision revision digest)) :
    ∃ d revision digest, reduce H s input = .ok d ∧
      d.snapshot = advance draft.snapshot revision revision digest ∧ revision.toNat = s.revision.toNat + 1 := by
  obtain ⟨revision, hsucc, hrev, hne⟩ := checkedSucc64_of_room hroom
  refine ⟨_, revision, digestOf H input.event, reduceRoute_eq_ok.mpr ⟨hval, hevId, hev, hep, draft, revision,
    hdr, hsucc, ?_, ?_, hnext revision _ hne, rfl⟩, rfl, hrev⟩
  · rw [hsec]
    exact id
  · intro hrestricts hopen
    rwa [hhl hopen]

/-- One action has a new state; the counters, the digest and the phase follow. -/
def Updated (s : RouteSnapshotV1) (leg : LegIdV1) (kind : ActionKindV1) (state : ActionStateV1)
    (s' : RouteSnapshotV1) : Prop :=
  ∃ revision digest, s' = advance (s.setAction leg kind state) revision revision digest ∧
    revision.toNat = s.revision.toNat + 1

/-- The hash gives every action an identity for some event. -/
def IdentifiesEffects (H : List UInt8 → Digest32) : Prop :=
  ∀ routeId leg kind, ∃ eventId semanticDigest, eventId ≠ 0 ∧ semanticDigest ≠ 0 ∧
    deriveEffectId H routeId eventId 1 leg kind semanticDigest ≠ 0

variable {leg : LegIdV1} {kind : ActionKindV1}

theorem wasFinal_of_final (h : a.progress = .Final) : a.wasFinal := by
  cases a with
  | Final effect transactionId evidence => rfl
  | _ => cases h

theorem admits_of_preconditions (h : validateActionPreconditions s leg kind = .ok ()) (hcl : kind ≠ .Claim) :
    Admits s leg kind := by
  cases kind with
  | Claim => exact absurd rfl hcl
  | Funding =>
    rintro rfl
    exact wasFinal_of_final (downstreamFunding_eq_ok h).1
  | Refund =>
    simp only [validateActionPreconditions, validateRefundPreconditions, inversion, not_or, Bool.not_eq_false,
      Decidable.not_not] at h
    exact h.2.2

theorem update_accepted {state : ActionStateV1} {eventId : Digest32} {event : RouteEventV1} {draft : RouteDecisionV1}
    (hval : Valid s) (hroom : Room s 1) (habt : s.abortedUnfunded = false) (harmed : s.refunds.isSome)
    (hevId : eventId ≠ 0) (hev : validateEvent H event = .ok ())
    (hdr : reduceEvent H s eventId event 1 = .ok draft) (hsnap : draft.snapshot = s.setAction leg kind state)
    (hfol : Follows s leg kind state) (hstate : validateActionState state = .ok ())
    (hpur : validateActionPurpose state kind = .ok ()) :
    ∃ d, reduce H s ⟨eventId, event, 1⟩ = .ok d ∧ Updated s leg kind state d.snapshot := by
  obtain ⟨d, revision, digest, hd, haft, hrev⟩ :=
    reduce_of_rule ⟨eventId, event, 1⟩ draft hval hroom hevId hev (show (1 : UInt64) ≠ 0 by decide) hdr
      (by rw [hsnap, secretVisibility_setAction]) (fun _ => by rw [hsnap, health_setAction])
      fun revision digest hrev => by
        rw [hsnap]
        exact hval.setAction hfol harmed habt hstate hpur hrev digest
  rw [hsnap] at haft
  exact ⟨d, hd, revision, digest, haft, hrev⟩

/-- **A funding or refund whose preconditions hold can be committed.** -/
theorem commit_accepted (hH : IdentifiesEffects H) (hval : Valid s) (hroom : Room s 1)
    (habt : s.abortedUnfunded = false) (hcl : kind ≠ .Claim) (hhl : kind = .Funding → s.health = .Running)
    (hpre : validateActionPreconditions s leg kind = .ok ()) :
    ∃ input intent d reference, input.event = .CommitAction intent ∧ intent.leg = leg ∧ intent.kind = kind ∧
      reduce H s input = .ok d ∧ Updated s leg kind (.Committed reference) d.snapshot := by
  obtain ⟨eventId, semanticDigest, hev, hsem, heff⟩ := hH s.routeId leg kind
  obtain ⟨harmed, hnone⟩ := refundsArmed_of_preconditions hpre
  have hfol (reference : EffectReferenceV1) : Follows s leg kind (.Committed reference) := by
    refine ⟨hcl, fun h => ?_, fun h => ?_, rfl, .inr (admits_of_preconditions hpre hcl)⟩
    · exact absurd hnone (ActionStateV1.prepared_of_isOut h)
    · exact absurd hnone (ActionStateV1.prepared_of_isOut (ActionStateV1.isOut_of_wasFinal h))
  let intent : ActionIntentV1 := ⟨leg, kind, semanticDigest, false, .ExternalCustody 1 1⟩
  have hwell : validateEvent H (.CommitAction intent) = .ok () := by
    simpa [validateEvent, validateDigest, validateEffectDispatch, validateNonzeroMany, intent] using hsem
  have hdr : reduceEvent H s eventId (.CommitAction intent) 1 = .ok (authorize H s eventId intent 1 []) := by
    simpa [reduceEvent, commitAction, habt, hpre, requireAllowedFor_eq_ok, intent, hcl] using hhl
  have hstate : validateActionState (.Committed (effectReference H s eventId intent 1)) = .ok () := by
    simpa [validateActionState, validateEffectReference, effectReference, validateNonzeroMany, validateDigest, intent,
      EffectDispatchV1.expectedTransactionId] using And.intro heff hsem
  have hpur : validateActionPurpose (.Committed (effectReference H s eventId intent 1)) kind = .ok () := by
    cases kind with
    | Claim => exact absurd rfl hcl
    | Funding | Refund => rfl
  obtain ⟨d, hd, hupd⟩ :=
    update_accepted hval hroom habt harmed hev hwell hdr rfl (hfol _) hstate hpur
  exact ⟨_, intent, d, _, rfl, rfl, rfl, hd, hupd⟩

theorem validateNonzeroMany_eq_ok {values : List Digest32} {u : Unit} :
    validateNonzeroMany values = .ok u ↔ ∀ value ∈ values, value ≠ 0 := by
  simp only [validateNonzeroMany, rejectIf_eq_ok, List.any_eq_true, decide_eq_true_eq, not_exists, not_and]

variable {reference : EffectReferenceV1}

theorem exists_transaction (h : validateEffectReference reference = .ok ()) :
    ∃ transactionId : Digest32, transactionId ≠ 0 ∧
      reference.expectedTransactionId.any (· ≠ transactionId) = false := by
  cases hexp : reference.expectedTransactionId with
  | none => exact ⟨1, by decide, rfl⟩
  | some expected =>
    simp only [validateEffectReference, inversion, validateSome_eq_ok, validateDigest] at h
    exact ⟨expected, h.2.2 expected hexp, by simp⟩

theorem externalize_accepted (hval : Valid s) (hroom : Room s 1)
    (habt : s.abortedUnfunded = false) (hcl : kind ≠ .Claim) (hcom : (s.leg leg).action kind = .Committed reference) :
    ∃ input d transactionId, reduce H s input = .ok d ∧
      Updated s leg kind (.Externalized reference transactionId) d.snapshot := by
  have hrefc := hval.action leg kind
  have hpur := hval.purpose leg kind
  rw [hcom] at hrefc hpur
  have hpriv : reference.containsRouteSecret = false := by
    cases kind with
    | Claim => exact absurd rfl hcl
    | Funding | Refund => simpa [validateActionPurpose, ActionStateV1.effect] using hpur
  have heff : reference.effectId ≠ 0 := by
    simp only [validateActionState, validateEffectReference, inversion, validateNonzeroMany_eq_ok] at hrefc
    exact hrefc.2.1 _ (List.mem_cons_self ..)
  obtain ⟨transactionId, htx, hexp⟩ := exists_transaction hrefc
  have hwell : validateEvent H (.ActionExternalized leg kind reference.effectId transactionId none) = .ok () := by
    simp only [validateEvent, inversion, validateNonzeroMany_eq_ok, validateSome_eq_ok]
    exact ⟨by simpa using ⟨heff, htx⟩, fun _ hcase => (by cases hcase), by simp⟩
  have hdr : reduceEvent H s 1 (.ActionExternalized leg kind reference.effectId transactionId none) 1 =
      .ok (onlySnapshot (s.setAction leg kind (.Externalized reference transactionId))) := by
    simp only [reduceEvent, actionExternalized, inversion, committedReference_eq_ok]
    refine ⟨reference, hcom, by simpa using hexp, s, ?_, rfl⟩
    rw [exposeExternalized, hpriv]
    rfl
  have hprep : ((s.leg leg).action kind).progress ≠ .NotPrepared := by
    rw [hcom]
    intro hcase
    cases hcase
  have hfol : Follows s leg kind (.Externalized reference transactionId) := by
    refine ⟨hcl, fun _ => rfl, fun h => ?_, rfl, .inl hprep⟩
    rw [hcom] at h
    cases h
  have hstate : validateActionState (.Externalized reference transactionId) = .ok () := by
    simp only [validateActionState, validateOut, inversion, validateNonzeroMany_eq_ok]
    exact ⟨hrefc, by simpa using htx, by rw [hexp]; simp⟩
  obtain ⟨d, hd, hupd⟩ := update_accepted hval hroom habt
    (hval.armed leg kind hprep) (by decide) hwell hdr rfl hfol hstate hpur
  exact ⟨_, d, transactionId, hd, hupd⟩

theorem finalize_accepted {transactionId : Digest32} (hval : Valid s) (hroom : Room s 1)
    (habt : s.abortedUnfunded = false) (hcl : kind ≠ .Claim)
    (hout : (s.leg leg).action kind = .Externalized reference transactionId) :
    ∃ input d, reduce H s input = .ok d ∧ Updated s leg kind (.Final reference transactionId 1) d.snapshot := by
  have hstate := hval.action leg kind
  have hpur := hval.purpose leg kind
  rw [hout] at hstate hpur
  simp only [validateActionState, validateOut, inversion, validateNonzeroMany_eq_ok] at hstate
  obtain ⟨hrefc, htx, hexp⟩ := hstate
  have hwell : validateEvent H (.ActionFinalized leg kind transactionId 1) = .ok () := by
    simp only [validateEvent, validateNonzeroMany_eq_ok]
    simpa using htx
  have hdr : reduceEvent H s 1 (.ActionFinalized leg kind transactionId 1) 1 =
      .ok (onlySnapshot (s.setAction leg kind (.Final reference transactionId 1))) := by
    simp [reduceEvent, actionFinalized, hout, finalizable]
  have hprep : ((s.leg leg).action kind).progress ≠ .NotPrepared := by
    rw [hout]
    intro hcase
    cases hcase
  have hfol : Follows s leg kind (.Final reference transactionId 1) :=
    ⟨hcl, fun _ => rfl, fun _ => rfl, rfl, .inl hprep⟩
  have hfin : validateActionState (.Final reference transactionId 1) = .ok () := by
    simp only [validateActionState, validateOut, inversion, validateNonzeroMany_eq_ok]
    exact ⟨hrefc, by simpa using htx, hexp⟩
  obtain ⟨d, hd, hupd⟩ := update_accepted hval hroom habt
    (hval.armed leg kind hprep) (by decide) hwell hdr rfl hfol hfin hpur
  exact ⟨_, d, hd, hupd⟩

end Acceptance

/-! ## Ways out of a funded leg -/

section WaysOut

variable (H : List UInt8 → Digest32)

/-- An exit of a leg (its claim or its refund) is open: it is externalized already, or committed with an effect that can
    be dispatched, or its commit is accepted. -/
def ExitOpen (s : RouteSnapshotV1) (leg : LegIdV1) (kind : ActionKindV1) : Prop :=
  ((s.leg leg).action kind).progress = .Externalized ∨
    (∃ reference, (s.leg leg).action kind = .Committed reference ∧
      ∀ effect, IsEffectOf reference leg kind effect → effectIsDispatchable s effect) ∨
    ∃ input intent d, input.event = .CommitAction intent ∧ intent.leg = leg ∧ intent.kind = kind ∧
      reduce H s input = .ok d

/-- Every funded leg that is not settled has a way out. -/
def Unstranded (s : RouteSnapshotV1) : Prop :=
  ∀ leg, (s.leg leg).funding.progress.isOut → (s.leg leg).isTerminal = false →
    ExitOpen H s leg .Claim ∨ ExitOpen H s leg .Refund

/-- What keeps a committed downstream claim dispatchable. -/
def ClaimOpen (s : RouteSnapshotV1) : Prop :=
  s.downstream.claim.progress = .Committed →
    s.health = .Running ∧ s.upstream.funding.progress = .Final ∧ s.downstream.funding.progress = .Final ∧
      s.upstream.claim.progress = .NotPrepared ∧ s.upstream.refund.progress = .NotPrepared

variable {H} {s : RouteSnapshotV1} {reference : EffectReferenceV1} {leg : LegIdV1} {effect : RouteEffectV1}

theorem refund_dispatchable (habt : s.abortedUnfunded = false) (hrf : (s.leg leg).refund = .Committed reference)
    (hout : (s.leg leg).funding.progress.isOut) (heff : IsEffectOf reference leg .Refund effect) :
    effectIsDispatchable s effect := by
  obtain ⟨rfl, hkind, hid, hep, hsem, hsec⟩ := heff
  simp [effectIsDispatchable, habt, hkind, LegSnapshotV1.action, hrf, hid, hep, hsem, hsec, hout]

theorem upstreamClaim_dispatchable (habt : s.abortedUnfunded = false) (hcl : s.upstream.claim = .Committed reference)
    (hpub : s.secretVisibility.isPublic) (hfin : s.upstream.funding.wasFinal)
    (hctn : reference.containsRouteSecret) (heff : IsEffectOf reference .Upstream .Claim effect) :
    effectIsDispatchable s effect := by
  obtain ⟨hleg, hkind, hid, hep, hsem, hsec⟩ := heff
  simp [effectIsDispatchable, habt, hkind, hleg, LegSnapshotV1.action, RouteSnapshotV1.leg, hcl, hid, hep,
    hsem, hsec, hpub, hfin, hctn]

theorem downstreamClaim_dispatchable (hcl : s.downstream.claim = .Committed reference)
    (heff : IsEffectOf reference .Downstream .Claim effect) :
    effectIsDispatchable s effect ↔ s.abortedUnfunded = false ∧ s.health = .Running ∧
      s.upstream.funding.progress = .Final ∧ s.downstream.funding.progress = .Final ∧
      (s.upstream.claim.progress = .NotPrepared ∨
        (s.secretVisibility.isPublic ∧ s.upstream.claim.progress = .Final)) ∧
      s.upstream.refund.progress = .NotPrepared ∧ reference.containsRouteSecret := by
  obtain ⟨hleg, hkind, hid, hep, hsem, hsec⟩ := heff
  simp [effectIsDispatchable, hkind, hleg, LegSnapshotV1.action, RouteSnapshotV1.leg, hcl, hid, hep, hsem,
    hsec, HealthStateV1.restrictsToRecovery]

theorem containsRouteSecret_of_claim (h : Valid s) (hcl : (s.leg leg).claim = .Committed reference) :
    reference.containsRouteSecret := by
  have hpur : validateActionPurpose (s.leg leg).claim .Claim = .ok () := h.purpose leg .Claim
  rw [hcl] at hpur
  simpa [validateActionPurpose, ActionStateV1.effect] using hpur

theorem not_aborted_of_out (h : Valid s) (hout : (s.leg leg).funding.progress.isOut)
    (hterm : (s.leg leg).isTerminal = false) : s.abortedUnfunded = false := by
  have hopen : (s.leg leg).hasOpenFunds = true := by
    simp [LegSnapshotV1.hasOpenFunds, hterm, ActionStateV1.prepared_of_isOut hout]
  by_contra habt
  have hnone := (h.aborted (by simpa using habt)).1
  rw [RouteSnapshotV1.hasOpenFunds, Bool.or_eq_false_iff] at hnone
  cases leg with
  | Upstream => exact absurd hopen (by rw [RouteSnapshotV1.leg, hnone.1]; intro hcase; cases hcase)
  | Downstream => exact absurd hopen (by rw [RouteSnapshotV1.leg, hnone.2]; intro hcase; cases hcase)

theorem refundPreconditions (h : Valid s) (hout : (s.leg leg).funding.progress.isOut)
    (hcl : (s.leg leg).claim.progress = .NotPrepared) (hrf : (s.leg leg).refund.progress = .NotPrepared) :
    validateActionPreconditions s leg .Refund = .ok () := by
  have harmed : s.refunds.isSome := h.armed leg .Funding (ActionStateV1.prepared_of_isOut hout)
  simp [validateActionPreconditions, validateRefundPreconditions, LegSnapshotV1.action, hcl, hrf, hout,
    Option.isNone_eq_false_iff.mpr harmed]

/-- **A way out of every funded leg**, as long as a committed downstream claim stays dispatchable. -/
theorem unstranded_of_claimOpen (hH : IdentifiesEffects H) (h : Valid s) (hroom : Room s 1) (hopen : ClaimOpen s) :
    Unstranded H s := by
  intro leg hout hterm
  have habt := not_aborted_of_out h hout hterm
  have hopenEnded : (s.leg leg).claim.progress ≠ .Final ∧ (s.leg leg).refund.progress ≠ .Final := by
    simpa [LegSnapshotV1.isTerminal] using hterm
  cases hcl : (s.leg leg).claim with
  | Externalized | FinalityInvalidated => exact .inl (.inl (by rw [LegSnapshotV1.action, hcl]; rfl))
  | Final effect transactionId evidence => exact absurd (by rw [hcl]; rfl) hopenEnded.1
  | Committed reference =>
    refine .inl (.inr (.inl ⟨reference, hcl, fun effect heff => ?_⟩))
    have hctn := containsRouteSecret_of_claim h hcl
    have hprep : (s.leg leg).claim.progress ≠ .NotPrepared := by
      rw [hcl]
      intro hcase
      cases hcase
    cases leg with
    | Upstream =>
      exact upstreamClaim_dispatchable habt hcl (h.upstreamClaim hprep) (h.claimFinal .Upstream hprep)
        hctn heff
    | Downstream =>
      obtain ⟨hhl, hup, hdown, hucl, hurf⟩ := hopen (by
        have : s.downstream.claim = .Committed reference := hcl
        rw [this]
        rfl)
      exact (downstreamClaim_dispatchable hcl heff).mpr
        ⟨habt, hhl, hup, hdown, .inl hucl, hurf, hctn⟩
  | NotPrepared =>
    have hnone : (s.leg leg).claim.progress = .NotPrepared := by
      rw [hcl]
      rfl
    right
    cases hrf : (s.leg leg).refund with
    | Externalized | FinalityInvalidated => exact .inl (by rw [LegSnapshotV1.action, hrf]; rfl)
    | Final effect transactionId evidence => exact absurd (by rw [hrf]; rfl) hopenEnded.2
    | Committed reference =>
      exact .inr (.inl ⟨reference, hrf, fun effect => refund_dispatchable habt hrf hout⟩)
    | NotPrepared =>
      have hpre := refundPreconditions h hout hnone (by rw [hrf]; rfl)
      have hkds : ActionKindV1.Refund ≠ .Claim ∧ ActionKindV1.Refund ≠ .Funding := by decide
      obtain ⟨input, intent, d, _, hev, hleg, hkind, hd, -⟩ :=
        commit_accepted hH h hroom habt hkds.1 (fun heq => absurd heq hkds.2) hpre
      exact .inr (.inr ⟨input, intent, d, hev, hleg, hkind, hd⟩)

/-! ## Which events close the way out -/

/-- Events that leave a committed downstream claim dispatchable: the route stays running, no finality is taken back, and
    no exit of the upstream leg is prepared. -/
def keepsClaim : RouteEventV1 → Bool
  | .SetHealth target _ => target = .Running
  | .ObservationInvalidated _ _ _ _ => false
  | .CommitAction intent => intent.leg ≠ .Upstream ∨ intent.kind = .Funding
  | _ => true

/-- The condition on a step: room for one more event after it, and a committed downstream claim is left alone. -/
structure KeepsExit (s : RouteSnapshotV1) (input : RouteInput) : Prop where
  room : Room s 2
  claim : s.downstream.claim.progress = .Committed → keepsClaim input.event

variable {input : RouteInput} {d : RouteDecisionV1}

theorem final_step (h : reduce H s input = .ok d) (leg : LegIdV1) (kind : ActionKindV1)
    (hfin : ((s.leg leg).action kind).progress = .Final) :
    (d.snapshot.leg leg).action kind = (s.leg leg).action kind ∨
      ∃ leg kind transactionId reorg, input.event = .ObservationInvalidated leg kind transactionId reorg := by
  obtain ⟨-, -, draft, revision, hrule, -, rfl⟩ := accepted h
  rw [leg_advance]
  generalize input.event = event at hrule
  have hoth {s' : RouteSnapshotV1} {leg' : LegIdV1} {kind' : ActionKindV1} {state : ActionStateV1}
      (hsame : s'.leg leg = s.leg leg) (hbef : ((s.leg leg').action kind').progress ≠ .Final) :
      ((s'.setAction leg' kind' state).leg leg).action kind = (s.leg leg).action kind := by
    rw [action_setAction, if_neg, hsame]
    rintro ⟨rfl, rfl⟩
    exact hbef hfin
  cases hrule with
  | terms | abort | health => cases leg <;> exact .inl rfl
  | timer timers => exact .inl rfl
  | observe | progress => exact .inl (by rw [onlySnapshot, leg_exposed])
  | commit intent habt hpre =>
    refine .inl (hoth rfl ?_)
    rw [(refundsArmed_of_preconditions hpre).2]
    intro hcase
    cases hcase
  | reauthorize intent prior hcom =>
    refine .inl (hoth rfl ?_)
    rw [hcom]
    intro hcase
    cases hcase
  | externalize leg' kind' reference transactionId exposure hcom =>
    refine .inl (hoth (leg_exposed _ _) ?_)
    rw [hcom]
    intro hcase
    cases hcase
  | finalize leg' kind' effect transactionId evidence hout =>
    refine .inl (hoth rfl ?_)
    rcases finalizable_eq_ok.mp hout with hstate | ⟨prior, reorg, hstate⟩ <;> rw [hstate] <;> intro hcase <;> cases hcase
  | invalidate leg' kind' transactionId reorg state => exact .inr ⟨leg', kind', transactionId, reorg, rfl⟩

theorem unprepared_step (h : reduce H s input = .ok d) (leg : LegIdV1) (kind : ActionKindV1)
    (hnone : ((s.leg leg).action kind).progress = .NotPrepared)
    (hev : ∀ intent, input.event = .CommitAction intent → ¬ (intent.leg = leg ∧ intent.kind = kind)) :
    ((d.snapshot.leg leg).action kind).progress = .NotPrepared := by
  by_contra hprep
  obtain ⟨intent, hcmt, hleg, hkind, -⟩ := committed_of_prepared h leg kind hnone hprep
  exact hev intent hcmt ⟨hleg, hkind⟩

theorem claimOpen_step (h : reduce H s input = .ok d) (hopen : ClaimOpen s)
    (hkps : s.downstream.claim.progress = .Committed → keepsClaim input.event) : ClaimOpen d.snapshot := by
  intro haft
  have hnotOut : ¬ s.downstream.claim.progress.isOut := by
    intro hout
    have hout' : d.snapshot.downstream.claim.progress.isOut := out_step h .Downstream .Claim hout
    rw [haft] at hout'
    cases hout'
  obtain ⟨⟨hhl, hup, hdown, hucl, hurf⟩, hev⟩ : (s.health = .Running ∧
      s.upstream.funding.progress = .Final ∧ s.downstream.funding.progress = .Final ∧
      s.upstream.claim.progress = .NotPrepared ∧ s.upstream.refund.progress = .NotPrepared) ∧
      keepsClaim input.event := by
    cases hbef : s.downstream.claim.progress with
    | Committed => exact ⟨hopen hbef, hkps hbef⟩
    | NotPrepared =>
      -- then this event is the commit, under its preconditions
      obtain ⟨intent, hev, hleg, hkind, hpre⟩ := committed_of_prepared h .Downstream .Claim hbef (by
        show d.snapshot.downstream.claim.progress ≠ _
        rw [haft]
        exact nofun)
      obtain ⟨hhl, hdown, hup, hucl, hurf⟩ := downstreamClaim_eq_ok hpre
      refine ⟨⟨hhl, hup, hdown, hucl, hurf⟩, ?_⟩
      rw [hev, keepsClaim, hleg]
      rfl
    | Externalized | Final => exact absurd (by rw [hbef]; rfl) hnotOut
  have hfin (leg : LegIdV1) (hbef : (s.leg leg).funding.progress = .Final) :
      (d.snapshot.leg leg).funding.progress = .Final := by
    rcases final_step h leg .Funding hbef with hsame | ⟨leg, kind, transactionId, reorg, hinv⟩
    · have hsame : (d.snapshot.leg leg).funding = (s.leg leg).funding := hsame
      rwa [hsame]
    · rw [hinv] at hev
      cases hev
  have hnone (kind : ActionKindV1) (hkind : kind ≠ .Funding)
      (hbef : (s.upstream.action kind).progress = .NotPrepared) :
      (d.snapshot.upstream.action kind).progress = .NotPrepared := by
    refine unprepared_step h .Upstream kind hbef fun intent hcmt hintent => ?_
    rw [hcmt] at hev
    have hkps := (of_decide_eq_true hev).resolve_left fun hne => hne hintent.1
    exact hkind (hintent.2.symm.trans hkps)
  refine ⟨?_, hfin .Upstream hup, hfin .Downstream hdown, hnone .Claim nofun hucl, hnone .Refund nofun hurf⟩
  rcases (frame_step h).health with hsame | ⟨reason, hset⟩ | ⟨-, leg, kind, transactionId, reorg, hinv⟩
  · rw [hsame, hhl]
  · rw [hset] at hev
    exact of_decide_eq_true hev
  · rw [hinv] at hev
    cases hev

/-- A committed downstream claim that cannot be dispatched: the route does not run, or an exit of the upstream leg was
    prepared. -/
def ClaimBlocked (s : RouteSnapshotV1) : Prop :=
  s.downstream.claim.progress = .Committed ∧ (s.health ≠ .Running ∨ s.upstream.claim.progress = .Committed ∨
    s.upstream.refund.progress ≠ .NotPrepared)

theorem exists_reference (h : a.progress = .Committed) : ∃ reference, a = .Committed reference := by
  cases a with
  | Committed reference => exact ⟨reference, rfl⟩
  | _ => cases h

theorem stranded_of_blocked (hval : Valid s) (h : ClaimBlocked s) : ¬ Unstranded H s := by
  obtain ⟨hcom, hblkd⟩ := h
  obtain ⟨reference, hcl⟩ := exists_reference hcom
  have hprep : s.downstream.claim.progress ≠ .NotPrepared := by
    rw [hcom]
    intro hcase
    cases hcase
  have hrf : s.downstream.refund.progress = .NotPrepared := (hval.exclusive .Downstream).resolve_left hprep
  intro hunstr
  have hexit := hunstr .Downstream (ActionStateV1.isOut_of_wasFinal (hval.claimFinal .Downstream hprep))
    (by simp [LegSnapshotV1.isTerminal, RouteSnapshotV1.leg, hcom, hrf])
  rcases hexit with (hout | ⟨found, hfnd, hdsp⟩ | ⟨input, intent, d, hev, hleg, hkind, hd⟩) |
    (hout | ⟨found, hfnd, hdsp⟩ | ⟨input, intent, d, hev, hleg, hkind, hd⟩)
  · have hout : s.downstream.claim.progress = .Externalized := hout
    rw [hcom] at hout
    cases hout
  · -- the effect of the committed claim
    let effect : RouteEffectV1 := ⟨s.routeId, found.effectId, found.fencingEpoch, .Downstream, .Claim, .Normal,
      found.semanticDigest, found.containsRouteSecret, .ExternalCustody 1 1⟩
    have heff : IsEffectOf found .Downstream .Claim effect := ⟨rfl, rfl, rfl, rfl, rfl, rfl⟩
    obtain ⟨-, hhl, -, -, hucl, hurf, -⟩ :=
      (downstreamClaim_dispatchable hfnd heff).mp (hdsp effect heff)
    rcases hblkd with hblkd | hblkd | hblkd
    · exact hblkd hhl
    · rw [hblkd] at hucl
      rcases hucl with hnone | ⟨-, hfin⟩
      · cases hnone
      · cases hfin
    · exact hblkd hurf
  · have hnone := (refundsArmed_of_preconditions (preconditions_of_commit hd hev)).2
    rw [hleg, hkind] at hnone
    exact hprep hnone
  · have hout : s.downstream.refund.progress = .Externalized := hout
    rw [hrf] at hout
    cases hout
  · have hfnd : s.downstream.refund = .Committed found := hfnd
    rw [hfnd] at hrf
    cases hrf
  · have hadmits := preconditions_of_commit hd hev
    rw [hleg, hkind] at hadmits
    exact hprep (admits_of_preconditions hadmits (by simp)).2

theorem blocked_step (h : reduce H s input = .ok d) (hcom : s.downstream.claim.progress = .Committed)
    (hev : ¬ keepsClaim input.event) : ClaimBlocked d.snapshot := by
  obtain ⟨-, -, -, -, draft, revision, hdr, -, -, -, -, rfl⟩ := reduceRoute_eq_ok.mp h
  cases hinput : input.event with
  | SetHealth target reason =>
    rw [hinput] at hdr hev
    simp only [reduceEvent, inversion] at hdr
    obtain ⟨-, rfl⟩ := hdr
    exact ⟨hcom, .inl fun htgt => hev (decide_eq_true htgt)⟩
  | ObservationInvalidated leg kind transactionId reorg =>
    rw [hinput] at hdr
    simp only [reduceEvent, observationInvalidated, inversion] at hdr
    obtain ⟨state, hstate, rfl⟩ := hdr
    obtain ⟨effect, evidence, hfin, -⟩ := invalidated_eq_ok.mp hstate
    refine ⟨?_, .inl fun hcase => by cases hcase⟩
    show (((s.setAction leg kind state).leg .Downstream).action .Claim).progress = _
    rw [action_setAction, if_neg]
    · exact hcom
    · rintro ⟨rfl, rfl⟩
      have hfin : s.downstream.claim = .Final effect transactionId evidence := hfin
      rw [hfin] at hcom
      cases hcom
  | CommitAction intent =>
    rw [hinput] at hdr hev
    have hkps : ¬ (intent.leg ≠ .Upstream ∨ intent.kind = .Funding) := fun h => hev (decide_eq_true h)
    obtain ⟨hleg, hkind⟩ := not_or.mp hkps
    simp only [reduceEvent, commitAction, inversion] at hdr
    obtain ⟨-, -, -, -, -, rfl⟩ := hdr
    obtain ⟨leg, kind, semanticDigest, containsRouteSecret, dispatch⟩ := intent
    obtain rfl : leg = .Upstream := Decidable.not_not.mp hleg
    cases kind with
    | Funding => exact absurd rfl hkind
    | Claim => exact ⟨hcom, .inr (.inl rfl)⟩
    | Refund => exact ⟨hcom, .inr (.inr (fun hcase => by cases hcase))⟩
  | _ =>
    rw [hinput] at hev
    exact absurd rfl hev

/-- **No stranded leg** in the runs whose steps leave a committed downstream claim alone; and in them a step strands a
    leg exactly when it does not. -/
theorem unstranded_iff_keepsClaim (hH : IdentifiesEffects H) (h : ReachableUnder H KeepsExit s) :
    Unstranded H s ∧ ∀ input d, reduce H s input = .ok d → Room s 2 →
      (Unstranded H d.snapshot ↔ (s.downstream.claim.progress = .Committed → keepsClaim input.event)) := by
  have hstep (s : RouteSnapshotV1) (input : RouteInput) (d : RouteDecisionV1) (hd : reduce H s input = .ok d)
      (hroom : Room s 2) : Room d.snapshot 1 := by
    unfold Room at *
    rw [revision_step hd]
    omega
  obtain ⟨⟨hroom, hopen⟩, hvalid⟩ := ReachableUnder.invariant (P := fun s => Room s 1 ∧ ClaimOpen s)
    (fun routeId s hnew => by
      obtain ⟨-, rfl⟩ := new_eq_ok hnew
      exact ⟨show 0 + 1 < 2 ^ 64 by decide, nofun⟩)
    (fun s input d _ hs hkeeps hd => ⟨hstep s input d hd hkeeps.room, claimOpen_step hd hs.2 hkeeps.claim⟩) h
  refine ⟨unstranded_of_claimOpen hH hvalid hroom hopen, fun input d hd hroom' => ⟨?_, fun hkeeps => ?_⟩⟩
  · intro hunstranded hcommitted
    by_contra hevent
    exact stranded_of_blocked (accepted hd).2.1 (blocked_step hd hcommitted hevent) hunstranded
  · exact unstranded_of_claimOpen hH (accepted hd).2.1 (hstep s input d hd hroom') (claimOpen_step hd hopen hkeeps)

end WaysOut

namespace SmallRoute

theorem digest_ne_zero (bytes : List UInt8) : digest bytes ≠ 0 := by
  intro hzero
  have hvalue : (digest bytes).toNat = 0 := by
    rw [hzero]
    rfl
  rw [digest, BitVec.toNat_ofNat] at hvalue
  omega

theorem identifiesEffects : IdentifiesEffects digest := fun _ _ _ =>
  ⟨1, 1, by decide, by decide, digest_ne_zero _⟩

def degrade : Move := fun _ => .SetHealth .Degraded 16

/-- The downstream claim is committed and waits for its dispatch. -/
def claimPending : List Move := funded ++ [prepare .Downstream .Claim]

def keepsExit (s : RouteSnapshotV1) (input : RouteInput) : Bool :=
  s.revision.toNat + 2 < 2 ^ 64 ∧ (s.downstream.claim.progress ≠ .Committed ∨ keepsClaim input.event)

theorem keepsExit_of_check {s : RouteSnapshotV1} {input : RouteInput} (h : keepsExit s input = true) :
    KeepsExit s input := by
  obtain ⟨hroom, hev⟩ := of_decide_eq_true h
  exact ⟨hroom, fun hcom => hev.resolve_left fun hne => hne hcom⟩

end SmallRoute

open SmallRoute in
/-- The downstream claim is committed, then the route is degraded: the claim is not dispatched any more, and it keeps the
    refund from being committed. -/
theorem claim_stranded : ∃ s, Reachable digest s ∧ s.downstream.claim.progress = .Committed ∧ s.health = .Degraded ∧
      ¬ Unstranded digest s := by
  have hrun : (play (claimPending ++ [degrade]) fresh).downstream.claim.progress = .Committed ∧
      (play (claimPending ++ [degrade]) fresh).health = .Degraded := by decide +kernel
  have hreach := reachable (claimPending ++ [degrade])
  refine ⟨play (claimPending ++ [degrade]) fresh, hreach, hrun.1, hrun.2, ?_⟩
  refine stranded_of_blocked hreach.valid ⟨hrun.1, .inl ?_⟩
  rw [hrun.2]
  exact nofun

open SmallRoute in
/-- A route that goes on to externalize the committed claim has its ways out. -/
theorem claim_unstranded : IdentifiesEffects digest ∧ ReachableUnder digest KeepsExit (play claimedDownstream fresh) ∧
      Unstranded digest (play claimedDownstream fresh) := by
  have hreach : ReachableUnder digest KeepsExit (play claimedDownstream fresh) :=
    reachable_play keepsExit (fun _ _ => keepsExit_of_check) (by decide +kernel)
  exact ⟨identifiesEffects, hreach, (unstranded_iff_keepsClaim identifiesEffects hreach).1⟩

end DomProtocol.Route
