import DomProtocol.Route.Step

/-!
# `Route.Safety` — what holds across every run of the reducer

The order in which a route commits its actions, the route secret, and what a reauthorization may replace
(`route_safe`).  Two things that the reducer does not rule out are stated with what a run has to avoid: mixed outcomes
of the two legs, because the exits of a leg are mostly checked against that leg alone, and funding after the secret was
observed.
-/

namespace DomProtocol.Route

open Lib

section Safety

variable {H : List UInt8 → Digest32} {s : RouteSnapshotV1} {input : RouteInput} {d : RouteDecisionV1}

/-! ## Commit preconditions -/

variable {u : Unit}

theorem downstreamFunding_eq_ok (h : validateActionPreconditions s .Downstream .Funding = .ok u) :
    s.upstream.funding.progress = .Final ∧ s.upstream.claim.progress = .NotPrepared ∧
      s.upstream.refund.progress = .NotPrepared := by
  simp only [validateActionPreconditions, validateFundingPreconditions, inversion, not_and, not_or,
    Decidable.not_not] at h
  exact h.2.2.2.2 trivial

theorem upstreamClaim_eq_ok (h : validateActionPreconditions s .Upstream .Claim = .ok u) :
    s.secretVisibility.isPublic := by
  simp only [validateActionPreconditions, validateClaimPreconditions, inversion, not_or, Bool.not_eq_false] at h
  exact h.2.2.2.2

theorem downstreamClaim_eq_ok (h : validateActionPreconditions s .Downstream .Claim = .ok u) :
    s.health = .Running ∧ s.downstream.funding.progress = .Final ∧ s.upstream.funding.progress = .Final ∧
      s.upstream.claim.progress = .NotPrepared ∧ s.upstream.refund.progress = .NotPrepared := by
  simp only [validateActionPreconditions, validateClaimPreconditions, inversion, not_or, Decidable.not_not,
    HealthStateV1.restrictsToRecovery, decide_eq_true_eq] at h
  exact h.2.2.2

/-! ## The invariants of a route -/

variable {intent : ActionIntentV1}

theorem preconditions_of_commit (h : reduce H s input = .ok d) (hev : input.event = .CommitAction intent) :
    validateActionPreconditions s intent.leg intent.kind = .ok () := by
  obtain ⟨-, -, -, -, draft, revision, hdr, -⟩ := reduceRoute_eq_ok.mp h
  rw [hev] at hdr
  simp only [reduceEvent, commitAction, inversion] at hdr
  exact hdr.2.1

theorem custody_of_effect (h : reduce H s input = .ok d) {effect : RouteEffectV1} (heff : effect ∈ d.effects)
    (hsec : effect.containsRouteSecret) : effect.dispatch.isCustody := by
  obtain ⟨-, -, draft, revision, hrule, -, rfl⟩ := accepted h
  generalize input.event = event at hrule
  cases hrule with
  | commit intent _ _ _ _ hcust | reauthorize intent prior _ _ _ _ _ hcust =>
    obtain rfl := List.mem_singleton.mp heff
    exact hcust hsec
  | _ => cases heff

/-- The two events that issue a committed action again. -/
def reauthorizes (event : RouteEventV1) (priorEffectId : Digest32) (intent : ActionIntentV1) : Prop :=
  (∃ digest, event = .ReauthorizeCommittedAction priorEffectId digest intent) ∨
    ∃ digest, event = .ReauthorizePartiallyExternalizedCustody priorEffectId digest intent

/-- What a reauthorization does: the committed reference with the named effect gives way to one with a higher epoch
    and the same content, its effect goes with it, and no other action changes. -/
structure Reissued (s : RouteSnapshotV1) (d : RouteDecisionV1) (priorEffectId : Digest32) (intent : ActionIntentV1)
    (prior replacement : EffectReferenceV1) : Prop where
  current : (s.leg intent.leg).action intent.kind = .Committed prior
  named : prior.effectId = priorEffectId
  replaced : (d.snapshot.leg intent.leg).action intent.kind = .Committed replacement
  superseded : d.supersededEffects = [priorEffectId]
  emitted : ∃ effect, d.effects = [effect] ∧ effect.effectId = replacement.effectId ∧ effect.leg = intent.leg ∧
    effect.kind = intent.kind
  epoch : prior.fencingEpoch < replacement.fencingEpoch
  semantic : replacement.semanticDigest = prior.semanticDigest
  secret : replacement.containsRouteSecret = prior.containsRouteSecret
  transaction : replacement.expectedTransactionId = prior.expectedTransactionId
  others : ∀ leg kind, ¬ (leg = intent.leg ∧ kind = intent.kind) →
    (d.snapshot.leg leg).action kind = (s.leg leg).action kind

theorem reissued_authorize {prior : EffectReferenceV1} {eventId digest : Digest32} {epoch revision : UInt64}
    (hcom : (s.leg intent.leg).action intent.kind = .Committed prior) (hep : prior.fencingEpoch < epoch)
    (hsem : prior.semanticDigest = intent.semanticDigest)
    (hsec : prior.containsRouteSecret = intent.containsRouteSecret)
    (htx : prior.expectedTransactionId = intent.dispatch.expectedTransactionId) :
    Reissued s { authorize H s eventId intent epoch [prior.effectId] with
        snapshot := advance (authorize H s eventId intent epoch [prior.effectId]).snapshot revision revision digest }
      prior.effectId intent prior (effectReference H s eventId intent epoch) := by
  refine ⟨hcom, rfl, ?_, rfl, ⟨_, rfl, rfl, rfl, rfl⟩, hep, hsem.symm, hsec.symm, htx.symm, ?_⟩
  · simp only [leg_advance, authorize, action_setAction, and_self, if_true]
  · intro leg kind hne
    simp only [leg_advance, authorize, action_setAction, if_neg hne]

theorem reissued_of_reauthorizes {priorEffectId : Digest32} (h : reduce H s input = .ok d)
    (hev : reauthorizes input.event priorEffectId intent) :
    ∃ prior replacement, Reissued s d priorEffectId intent prior replacement := by
  obtain ⟨-, -, -, -, draft, revision, hdr, -, -, -, -, rfl⟩ := reduceRoute_eq_ok.mp h
  rcases hev with ⟨digest, hev⟩ | ⟨digest, hev⟩
  · rw [hev] at hdr
    simp only [reduceEvent, reauthorizeCommittedAction, inversion, checkPrior_eq_ok] at hdr
    obtain ⟨-, ⟨prior, hcom, rfl, hep, hsem, hsec, htx⟩, -, rfl⟩ := hdr
    exact ⟨prior, _, reissued_authorize hcom hep hsem hsec htx⟩
  · rw [hev] at hdr
    simp only [reduceEvent, reauthorizePartiallyExternalizedCustody, inversion, checkPrior_eq_ok] at hdr
    obtain ⟨-, ⟨prior, hcom, rfl, hep, hsem, hsec, htx⟩, rfl⟩ := hdr
    exact ⟨prior, _, reissued_authorize hcom hep hsem hsec htx⟩

/-- **Every run of the reducer is safe**: actions are committed only with the refunds armed, downstream funding only
    while upstream funding is final, the upstream claim only with the secret public; a leg never has both exits
    prepared; the secret stays public with its first exposure; effects with the secret are in external custody; and
    a reauthorization replaces exactly the current effect. -/
theorem route_safe (hreach : Reachable H s) :
    (∀ leg kind, ((s.leg leg).action kind).progress ≠ .NotPrepared → s.refunds.isSome) ∧
      (∀ leg, (s.leg leg).claim.progress = .NotPrepared ∨ (s.leg leg).refund.progress = .NotPrepared) ∧
      ∀ input d, reduce H s input = .ok d → (∀ intent, input.event = .CommitAction intent → s.refunds.isSome ∧
          (intent.leg = .Downstream → intent.kind = .Funding → s.upstream.funding.progress = .Final) ∧
          (intent.leg = .Upstream → intent.kind = .Claim → s.secretVisibility.isPublic)) ∧
        (s.secretVisibility.isPublic → d.snapshot.secretVisibility = s.secretVisibility) ∧
        (∀ effect ∈ d.effects, effect.containsRouteSecret → effect.dispatch.isCustody) ∧
        ∀ priorEffectId intent, reauthorizes input.event priorEffectId intent →
          ∃ prior replacement, Reissued s d priorEffectId intent prior replacement := by
  have hvalid := hreach.valid
  refine ⟨hvalid.armed, hvalid.exclusive, fun input d hd => ⟨fun intent hevent => ?_, (secret_step hd).1,
    fun effect => custody_of_effect hd, fun priorEffectId intent => reissued_of_reauthorizes hd⟩⟩
  have hpre := preconditions_of_commit hd hevent
  obtain ⟨leg, kind, semanticDigest, containsRouteSecret, dispatch⟩ := intent
  refine ⟨(refundsArmed_of_preconditions hpre).1, ?_, ?_⟩
  · rintro rfl rfl
    exact (downstreamFunding_eq_ok hpre).1
  · rintro rfl rfl
    exact upstreamClaim_eq_ok hpre

/-! ## The two legs together -/

def LegIdV1.other : LegIdV1 → LegIdV1
  | Upstream => Downstream
  | Downstream => Upstream

/-- **Atomicity**: with the downstream claim out no upstream refund is prepared, and no leg is claimed for good while the
    other is refunded for good. -/
structure Atomic (s : RouteSnapshotV1) : Prop where
  noRefund : s.downstream.claim.progress.isOut → s.upstream.refund.progress = .NotPrepared
  unmixed : ∀ leg : LegIdV1, ¬ ((s.leg leg).claim.progress = .Final ∧ (s.leg leg.other).refund.progress = .Final)

theorem Atomic.downstream_unmixed {s : RouteSnapshotV1} (h : Atomic s) :
    ¬ (s.downstream.claim.progress = .Final ∧ s.upstream.refund.progress = .Final) := h.unmixed .Downstream

/-- The condition on an input: an exit of a leg is committed only while the opposite exit of the other leg is not
    prepared. -/
def ExitsAgree (s : RouteSnapshotV1) (input : RouteInput) : Prop :=
  ∀ intent, input.event = .CommitAction intent →
    (intent.kind = .Refund → (s.leg intent.leg.other).claim.progress = .NotPrepared) ∧
      (intent.kind = .Claim → (s.leg intent.leg.other).refund.progress = .NotPrepared)

theorem LegIdV1.other_other (leg : LegIdV1) : leg.other.other = leg := by cases leg <;> rfl

theorem apart_step (hclr : ExitsAgree s input) (h : reduce H s input = .ok d)
    (hs : ∀ leg : LegIdV1, (s.leg leg).claim.progress = .NotPrepared ∨ (s.leg leg.other).refund.progress = .NotPrepared)
    (leg : LegIdV1) :
    (d.snapshot.leg leg).claim.progress = .NotPrepared ∨ (d.snapshot.leg leg.other).refund.progress = .NotPrepared := by
  by_contra hboth
  obtain ⟨hcl, hrf⟩ := not_or.mp hboth
  by_cases hbef : (s.leg leg).claim.progress = .NotPrepared
  · -- the claim was committed by this input, so the refund was there before
    obtain ⟨intent, hev, rfl, hkind, -⟩ := committed_of_prepared h leg .Claim hbef hcl
    have hopp := (hclr intent hev).2 hkind
    obtain ⟨intent', hev', -, hkind', -⟩ := committed_of_prepared h intent.leg.other .Refund hopp hrf
    cases hev.symm.trans hev'
    rw [hkind] at hkind'
    cases hkind'
  · -- the refund was committed by this input while the claim was prepared
    have hopp := (hs leg).resolve_left hbef
    obtain ⟨intent, hev, hleg, hkind, -⟩ := committed_of_prepared h leg.other .Refund hopp hrf
    have hagr := (hclr intent hev).1 hkind
    rw [hleg, LegIdV1.other_other] at hagr
    exact hbef hagr

theorem out_step (h : reduce H s input = .ok d) (leg : LegIdV1) (kind : ActionKindV1)
    (hout : ((s.leg leg).action kind).progress.isOut) : ((d.snapshot.leg leg).action kind).progress.isOut := by
  obtain ⟨-, -, draft, revision, hrule, -, rfl⟩ := accepted h
  simp only [leg_advance]
  generalize input.event = event at hrule
  have hnot {reference : EffectReferenceV1} (hcom : (s.leg leg).action kind = .Committed reference) : False := by
    rw [hcom] at hout
    cases hout
  cases hrule with
  | terms | health | abort => cases leg <;> exact hout
  | timer timers => exact hout
  | observe | progress => rwa [onlySnapshot, leg_exposed]
  | commit intent habt hpre =>
    rw [authorize, action_setAction]
    split
    · rename_i heq
      obtain ⟨rfl, rfl⟩ := heq
      exact absurd (refundsArmed_of_preconditions hpre).2 (ActionStateV1.prepared_of_isOut hout)
    · exact hout
  | reauthorize intent prior hcom =>
    rw [authorize, action_setAction]
    split
    · rename_i heq
      obtain ⟨rfl, rfl⟩ := heq
      exact (hnot hcom).elim
    · exact hout
  | externalize leg' kind' reference transactionId exposure hcom =>
    rw [onlySnapshot, action_setAction]
    split
    · rfl
    · rwa [leg_exposed]
  | finalize leg' kind' effect transactionId evidence =>
    rw [onlySnapshot, action_setAction]
    split
    · rfl
    · exact hout
  | invalidate leg' kind' transactionId reorg state hfin =>
    obtain ⟨effect, evidence, -, rfl⟩ := invalidated_eq_ok.mp hfin
    show ((RouteSnapshotV1.leg (s.setAction leg' kind' _) leg).action kind).progress.isOut = true
    rw [action_setAction]
    split
    · rfl
    · exact hout

/-- **Atomicity of the runs that keep the exits apart.**  The downstream claim stays out once it is, so the upstream
    refund is never committed after it. -/
theorem atomic_of_exitsAgree (h : ReachableUnder H ExitsAgree s) :
    Atomic s ∧ ∀ input, s.downstream.claim.progress.isOut → (next H s input).downstream.claim.progress.isOut := by
  have hapart := (ReachableUnder.invariant
    (P := fun s => ∀ leg : LegIdV1, (s.leg leg).claim.progress = .NotPrepared ∨
      (s.leg leg.other).refund.progress = .NotPrepared) ?_ ?_ h).1
  · refine ⟨⟨fun hout => ?_, fun leg hmixed => ?_⟩, fun input hout => ?_⟩
    · exact (hapart .Downstream).resolve_left (ActionStateV1.prepared_of_isOut hout)
    · rcases hapart leg with hnone | hnone
      · rw [hnone] at hmixed
        cases hmixed.1
      · rw [hnone] at hmixed
        cases hmixed.2
    · unfold next
      cases hd : reduce H s input with
      | error e => exact hout
      | ok d => exact out_step hd .Downstream .Claim hout
  · intro routeId s hs leg
    exact .inl (by rw [show (s.leg leg).claim = .NotPrepared from action_new hs leg .Claim]; rfl)
  · intro s input d _ hs hclear hd
    exact apart_step hclear hd hs

/-! ## Funding and the secret -/

/-- A route together with whether a `SecretObserved` event has been accepted. -/
structure Watched where
  route : RouteSnapshotV1
  observed : Bool

def RouteEventV1.isObservation : RouteEventV1 → Bool
  | SecretObserved _ => true
  | _ => false

variable (H) in
def Watched.next (w : Watched) (input : RouteInput) : Watched :=
  match reduce H w.route input with
  | .ok d => ⟨d.snapshot, w.observed || input.event.isObservation⟩
  | .error _ => w

variable (H) in
def WatchedReachable : Watched → Prop :=
  Reach (fun w => (∃ routeId, RouteSnapshotV1.new routeId = .ok w.route) ∧ w.observed = false) (fun _ _ => True)
    (Watched.next H)

theorem claim_of_secret (hval : Valid s) {leg : LegIdV1} {kind : ActionKindV1} {reference : EffectReferenceV1}
    (hcom : (s.leg leg).action kind = .Committed reference) (hsec : reference.containsRouteSecret) :
    kind = .Claim := by
  have hpur := hval.purpose leg kind
  rw [hcom] at hpur
  cases kind with
  | Claim => rfl
  | Funding | Refund => exact absurd hsec (rejectIf_eq_ok.mp hpur)

theorem public_of_isObservation (h : reduce H s input = .ok d) (hev : input.event.isObservation) :
    d.snapshot.secretVisibility.isPublic := by
  obtain ⟨-, -, -, -, draft, revision, hdr, -, -, -, -, rfl⟩ := reduceRoute_eq_ok.mp h
  cases hinput : input.event with
  | SecretObserved exposure =>
    rw [hinput] at hdr
    cases hdr
    rw [secretVisibility_advance, onlySnapshot, exposeSecretOnce]
    cases hsec : s.secretVisibility with
    | Private => rfl
    | Public first =>
      dsimp only
      rw [hsec]
      rfl
  | _ =>
    rw [hinput] at hev
    cases hev

/-- How the secret of a watched route became public. -/
structure Sourced (w : Watched) : Prop where
  valid : Valid w.route
  observed : w.observed → w.route.secretVisibility.isPublic
  source : w.route.secretVisibility.isPublic → w.observed ∨ w.route.downstream.claim.progress ≠ .NotPrepared

theorem Sourced.next {w : Watched} (hw : Sourced w) (input : RouteInput) : Sourced (w.next H input) := by
  unfold Watched.next
  cases hd : reduce H w.route input with
  | error e => exact hw
  | ok d =>
    obtain ⟨hval, hval', -⟩ := accepted hd
    obtain ⟨hkeep, hnew⟩ := secret_step hd
    refine ⟨hval', fun hobs => ?_, fun hpub => ?_⟩
    · dsimp only at hobs ⊢
      by_cases hbef : w.route.secretVisibility.isPublic = true
      · rwa [hkeep hbef]
      · -- then this input is the observation
        rcases Bool.or_eq_true_iff.mp hobs with hearlier | hnow
        · exact absurd (hw.observed hearlier) hbef
        · exact public_of_isObservation hd hnow
    · dsimp only at hpub ⊢
      by_cases hbef : w.route.secretVisibility.isPublic = true
      · rcases hw.source hbef with hearlier | hcl
        · exact .inl (by rw [hearlier, Bool.true_or])
        · exact .inr (prepared_step hd .Downstream .Claim hcl)
      · rcases hnew (by simpa using hbef) hpub with ⟨exposure, hev⟩ | ⟨leg, kind, reference, hcom, hsec⟩
        · exact .inl (by rw [hev]; exact Bool.or_true _)
        · obtain rfl := claim_of_secret hval hcom hsec
          have hprep : ((w.route.leg leg).action .Claim).progress ≠ .NotPrepared := by
            rw [hcom]
            exact nofun
          cases leg with
          | Upstream => exact absurd (hval.upstreamClaim hprep) hbef
          | Downstream => exact .inr (prepared_step hd .Downstream .Claim hprep)

/-- **Funding is committed with the secret private exactly when no observation of it was accepted before.** -/
theorem funded_privately_iff {w : Watched} {intent : ActionIntentV1} (h : WatchedReachable H w)
    (hd : reduce H w.route input = .ok d) (hevent : input.event = .CommitAction intent)
    (hkind : intent.kind = .Funding) : w.route.secretVisibility.isPublic = false ↔ w.observed = false := by
  have hsourced : Sourced w := by
    refine Reach.invariant (P := Sourced) ?_ (fun w input hw _ => hw.next input) h
    rintro ⟨route, observed⟩ ⟨⟨routeId, hnew⟩, hobserved⟩
    refine ⟨valid_new hnew, fun h => ?_, fun h => ?_⟩
    · rw [hobserved] at h
      cases h
    · rw [(new_eq_ok hnew).2] at h
      cases h
  rw [Bool.eq_false_iff, Bool.eq_false_iff, not_iff_not]
  refine ⟨fun hpublic => ?_, hsourced.observed⟩
  refine (hsourced.source hpublic).resolve_right fun hclaim => ?_
  -- with the downstream claim prepared both legs are funded, and no funding can be committed
  have hvalid := hsourced.valid
  have hdown : w.route.downstream.funding.progress ≠ .NotPrepared :=
    ActionStateV1.prepared_of_isOut (ActionStateV1.isOut_of_wasFinal (hvalid.claimFinal .Downstream hclaim))
  have hup : w.route.upstream.funding.progress ≠ .NotPrepared :=
    ActionStateV1.prepared_of_isOut (ActionStateV1.isOut_of_wasFinal (hvalid.upstreamFirst hdown))
  have hpre := (refundsArmed_of_preconditions (preconditions_of_commit hd hevent)).2
  rw [hkind] at hpre
  cases hleg : intent.leg with
  | Upstream =>
    rw [hleg] at hpre
    exact hup hpre
  | Downstream =>
    rw [hleg] at hpre
    exact hdown hpre

end Safety

/-! ## A small route -/

namespace SmallRoute

def digest (bytes : List UInt8) : Digest32 := BitVec.ofNat 256 (1 + ofBeBytes bytes % (2 ^ 256 - 189))

def fresh : RouteSnapshotV1 := ⟨1, 0, .Negotiating, .idle, .idle, .Private, .Running, none, none, false, 0, 0⟩

/-- A move reads the snapshot and says which event comes next. -/
abbrev Move := RouteSnapshotV1 → RouteEventV1

def freeze : Move := fun _ => .FreezeTerms ⟨3, 4, 5⟩
def arm : Move := fun _ => .ArmRefunds ⟨7, 8⟩
def reveal : Move := fun _ => .SecretObserved ⟨.PeerEvidence, 12, 11, 13, 0⟩

def prepare (leg : LegIdV1) (kind : ActionKindV1) : Move := fun _ =>
  .CommitAction ⟨leg, kind, 9, kind = .Claim, .ExternalCustody 10 11⟩

def effectIdOf (s : RouteSnapshotV1) (leg : LegIdV1) (kind : ActionKindV1) : Digest32 :=
  ((s.leg leg).action kind).effect.elim 0 (·.effectId)

def externalize (leg : LegIdV1) (kind : ActionKindV1) : Move := fun s =>
  .ActionExternalized leg kind (effectIdOf s leg kind) 11
    (if kind = .Claim then some ⟨.Externalized, 12, 11, 13, 0⟩ else none)

def finalize (leg : LegIdV1) (kind : ActionKindV1) : Move := fun _ => .ActionFinalized leg kind 11 14

/-- An action from its commit to its finality. -/
def perform (leg : LegIdV1) (kind : ActionKindV1) : List Move :=
  [prepare leg kind, externalize leg kind, finalize leg kind]

def funded : List Move := [freeze, arm] ++ perform .Upstream .Funding ++ perform .Downstream .Funding

def claimedDownstream : List Move := funded ++ [prepare .Downstream .Claim, externalize .Downstream .Claim]

/-- The downstream leg is claimed and the upstream leg refunded. -/
def claimedAndRefunded : List Move := funded ++ perform .Downstream .Claim ++ perform .Upstream .Refund

def claimedBoth : List Move := funded ++ perform .Downstream .Claim ++ perform .Upstream .Claim

/-- The input of a move, with the next revision as its identity. -/
def inputOf (s : RouteSnapshotV1) (move : Move) : RouteInput :=
  ⟨BitVec.ofNat 256 (s.revision.toNat + 1), move s, 1⟩

def play (moves : List Move) (s : RouteSnapshotV1) : RouteSnapshotV1 :=
  moves.foldl (fun s move => next digest s (inputOf s move)) s

/-- Whether a check holds of every input of a run. -/
def along (check : RouteSnapshotV1 → RouteInput → Bool) : List Move → RouteSnapshotV1 → Bool
  | [], _ => true
  | move :: rest, s => check s (inputOf s move) && along check rest (next digest s (inputOf s move))

theorem reachable_play {clear : RouteSnapshotV1 → RouteInput → Prop} (check : RouteSnapshotV1 → RouteInput → Bool)
    (hchk : ∀ s input, check s input = true → clear s input) {moves : List Move}
    (h : along check moves fresh = true) : ReachableUnder digest clear (play moves fresh) := by
  have hfrom : ∀ (moves : List Move) (s : RouteSnapshotV1), ReachableUnder digest clear s →
      along check moves s = true → ReachableUnder digest clear (play moves s) := by
    intro moves
    induction moves with
    | nil => exact fun s hs _ => hs
    | cons move rest ih =>
      intro s hs halong
      obtain ⟨hmove, hrest⟩ := Bool.and_eq_true_iff.mp halong
      exact ih _ (.step hs (inputOf s move) (hchk s _ hmove)) hrest
  exact hfrom moves fresh (.start ⟨1, rfl⟩) h

theorem reachable (moves : List Move) : Reachable digest (play moves fresh) := by
  refine reachable_play (fun _ _ => true) (fun _ _ _ => trivial) ?_
  generalize fresh = s
  induction moves generalizing s with
  | nil => rfl
  | cons move rest ih => exact ih _

def exitsAgree (s : RouteSnapshotV1) (input : RouteInput) : Bool :=
  match input.event with
  | .CommitAction intent =>
    (intent.kind ≠ .Refund ∨ (s.leg intent.leg.other).claim.progress = .NotPrepared) ∧
      (intent.kind ≠ .Claim ∨ (s.leg intent.leg.other).refund.progress = .NotPrepared)
  | _ => true

theorem exitsAgree_of_check {s : RouteSnapshotV1} {input : RouteInput} (h : exitsAgree s input = true) :
    ExitsAgree s input := by
  intro intent hev
  rw [exitsAgree, hev] at h
  obtain ⟨hrf, hcl⟩ := of_decide_eq_true h
  exact ⟨fun hkind => hrf.resolve_left fun hne => hne hkind, fun hkind => hcl.resolve_left fun hne => hne hkind⟩

end SmallRoute

open SmallRoute in
/-- With the downstream claim externalized the upstream refund is committed, and then both become final. -/
theorem mixed_outcome : ∃ s input d, Reachable digest s ∧ s.downstream.claim.progress.isOut ∧
      (∃ intent, input.event = .CommitAction intent ∧ intent.leg = .Upstream ∧ intent.kind = .Refund) ∧
      reduce digest s input = .ok d ∧ ∃ s', Reachable digest s' ∧ ¬ Atomic s' ∧
        s'.downstream.claim.progress = .Final ∧ s'.upstream.refund.progress = .Final := by
  have hclaimed : (play claimedDownstream fresh).downstream.claim.progress.isOut = true ∧
      (reduce digest (play claimedDownstream fresh)
        (inputOf (play claimedDownstream fresh) (prepare .Upstream .Refund))).isOk = true := by decide +kernel
  have hfinal : (play claimedAndRefunded fresh).downstream.claim.progress = .Final ∧
      (play claimedAndRefunded fresh).upstream.refund.progress = .Final := by decide +kernel
  obtain ⟨d, hd⟩ := exists_ok hclaimed.2
  refine ⟨play claimedDownstream fresh, inputOf (play claimedDownstream fresh) (prepare .Upstream .Refund), d,
    reachable claimedDownstream, hclaimed.1, ⟨_, rfl, rfl, rfl⟩, hd, play claimedAndRefunded fresh,
    reachable claimedAndRefunded, ?_, hfinal⟩
  exact fun hatomic => hatomic.downstream_unmixed hfinal

open SmallRoute in
/-- The route that claims both legs is atomic all along. -/
theorem claimed_route_atomic :
    ReachableUnder digest ExitsAgree (play claimedBoth fresh) ∧ (play claimedBoth fresh).coordination = .Terminal ∧
      Atomic (play claimedBoth fresh) := by
  have hreach : ReachableUnder digest ExitsAgree (play claimedBoth fresh) :=
    reachable_play exitsAgree (fun _ _ => exitsAgree_of_check) (by decide +kernel)
  exact ⟨hreach, by decide +kernel, (atomic_of_exitsAgree hreach).1⟩

open SmallRoute in
/-- The secret is observed before any funding, and upstream funding is still committed. -/
theorem funded_in_public :
    ∃ s input d intent, Reachable digest s ∧ s.secretVisibility.isPublic ∧ input.event = .CommitAction intent ∧
      intent.kind = .Funding ∧ reduce digest s input = .ok d := by
  have hrun : (play [freeze, arm, reveal] fresh).secretVisibility.isPublic = true ∧
      (reduce digest (play [freeze, arm, reveal] fresh)
        (inputOf (play [freeze, arm, reveal] fresh) (prepare .Upstream .Funding))).isOk = true := by decide +kernel
  obtain ⟨d, hd⟩ := exists_ok hrun.2
  exact ⟨play [freeze, arm, reveal] fresh, inputOf (play [freeze, arm, reveal] fresh) (prepare .Upstream .Funding), d, _,
    reachable [freeze, arm, reveal], hrun.1, rfl, rfl, hd⟩

namespace SmallRoute

def watch (moves : List Move) (w : Watched) : Watched :=
  moves.foldl (fun w move => w.next digest (inputOf w.route move)) w

theorem reachable_watch (moves : List Move) : WatchedReachable digest (watch moves ⟨fresh, false⟩) := by
  have hfrom : ∀ (moves : List Move) (w : Watched), WatchedReachable digest w →
      WatchedReachable digest (watch moves w) := by
    intro moves
    induction moves with
    | nil => exact fun w hw => hw
    | cons move rest ih => exact fun w hw => ih _ (.step hw (inputOf w.route move) trivial)
  exact hfrom moves _ (.start ⟨⟨1, rfl⟩, rfl⟩)

end SmallRoute

open SmallRoute in
/-- Without an observation the funding of the first leg is committed with the secret private. -/
theorem funded_in_private : (watch [freeze, arm] ⟨fresh, false⟩).observed = false ∧
      (reduce digest (watch [freeze, arm] ⟨fresh, false⟩).route
        (inputOf (watch [freeze, arm] ⟨fresh, false⟩).route (prepare .Upstream .Funding))).isOk = true ∧
      (watch [freeze, arm] ⟨fresh, false⟩).route.secretVisibility.isPublic = false := by
  have hobserved : (watch [freeze, arm] ⟨fresh, false⟩).observed = false := by decide +kernel
  have hok : (reduce digest (watch [freeze, arm] ⟨fresh, false⟩).route
      (inputOf (watch [freeze, arm] ⟨fresh, false⟩).route (prepare .Upstream .Funding))).isOk = true := by
    decide +kernel
  obtain ⟨d, hd⟩ := exists_ok hok
  exact ⟨hobserved, hok, (funded_privately_iff (reachable_watch [freeze, arm]) hd rfl rfl).mpr hobserved⟩

namespace SmallRoute

/-- The committed upstream funding is issued again. -/
def reissue : Move := fun s =>
  .ReauthorizeCommittedAction (effectIdOf s .Upstream .Funding) 15 ⟨.Upstream, .Funding, 9, false, .ExternalCustody 10 11⟩

end SmallRoute

open SmallRoute in
/-- A route with a committed funding is safe, and a new lease issues that funding again. -/
theorem funding_reissued : (reduce digest (play [freeze, arm, prepare .Upstream .Funding] fresh)
      ⟨20, reissue (play [freeze, arm, prepare .Upstream .Funding] fresh), 2⟩).isOk = true ∧
      (play [freeze, arm, prepare .Upstream .Funding] fresh).refunds.isSome := by
  have hok : (reduce digest (play [freeze, arm, prepare .Upstream .Funding] fresh)
      ⟨20, reissue (play [freeze, arm, prepare .Upstream .Funding] fresh), 2⟩).isOk = true := by decide +kernel
  have hprepared : (((play [freeze, arm, prepare .Upstream .Funding] fresh).leg .Upstream).action .Funding).progress ≠
      .NotPrepared := by decide +kernel
  exact ⟨hok, (route_safe (reachable [freeze, arm, prepare .Upstream .Funding])).1 .Upstream .Funding hprepared⟩

end DomProtocol.Route
