import DomProtocol.Lib.History
import DomProtocol.Settlement.State

/-!
# `Settlement.History` — what the context says about the accepted events

The context keeps a height and a flag in place of the evidence.  Over every run of the machine the height is
that of the last funding observation no reorg has removed (`Consistent`), and the flag means that some claim
was verified.  Two gaps follow from what is not kept: a reorg between the funding and the claim leaves the
claim's flag standing, and a confirmation is compared by its height alone or not at all.
-/

namespace DomProtocol

open Lib

/-! ## Histories -/

/-- The context after an accepted event; `none` when the machine rejects it. -/
def accept (ctx : SettlementContext) (event : SettlementEvent) : Option SettlementContext :=
  (transition ctx event).toOption.map (·.next)

/-- The context after a history of accepted events, the latest first. -/
def contextAfter (past : List SettlementEvent) : Option SettlementContext :=
  after accept .new past

/-- The reference of the last accepted claim evidence. -/
def lastClaim : List SettlementEvent → Option EvidenceRefV1
  | [] => none
  | .ClaimEvidenceVerified evidence :: _ => some evidence
  | _ :: past => lastClaim past

/-- The first heights of the reorgs accepted after the last claim evidence. -/
def reorgsSinceClaim : List SettlementEvent → List UInt64
  | [] => []
  | .ClaimEvidenceVerified _ :: _ => []
  | .ReorgInvalidated fromHeight _ :: past => fromHeight :: reorgsSinceClaim past
  | _ :: past => reorgsSinceClaim past

/-- The reference of the last accepted funding observation that no later reorg invalidated.  `later` holds the
    first heights of the reorgs accepted after the history at hand. -/
def standingFunding (later : List UInt64) : List SettlementEvent → Option EvidenceRefV1
  | [] => none
  | .FundingObserved evidence :: past =>
    if later.all fun fromHeight => evidence.blockHeight < fromHeight then some evidence
    else standingFunding later past
  | .ReorgInvalidated fromHeight _ :: past => standingFunding (fromHeight :: later) past
  | _ :: past => standingFunding later past

variable {ctx : SettlementContext} {event : SettlementEvent}

theorem accept_eq_some {next : SettlementContext} :
    accept ctx event = some next ↔ ∃ revision effects, Accepts ctx revision event ⟨next, effects⟩ ∧
        checkedSucc64 ctx.revision = some revision := by
  unfold accept
  constructor
  · intro h
    obtain ⟨t, ht, rfl⟩ := Option.map_eq_some_iff.mp h
    obtain ⟨revision, hrev, ht⟩ := transition_eq_ok.mp (toOption_eq_some.mp ht)
    exact ⟨revision, t.effects, ht, hrev⟩
  · rintro ⟨revision, effects, h, hrev⟩
    exact Option.map_eq_some_iff.mpr
      ⟨_, toOption_eq_some.mpr (transition_eq_ok.mpr ⟨revision, hrev, h⟩), rfl⟩

variable {past : List SettlementEvent}

theorem standingFunding_mono {later more : List UInt64} {evidence : EvidenceRefV1}
    (h : standingFunding later past = some evidence) (hsub : later ⊆ more)
    (hmore : ∀ fromHeight ∈ more, evidence.blockHeight < fromHeight ∨ fromHeight ∈ later) :
    standingFunding more past = some evidence := by
  induction past generalizing later more with
  | nil => cases h
  | cons event past ih =>
    cases event with
    | FundingObserved observed =>
      simp only [standingFunding] at h ⊢
      split at h
      · rename_i hbel
        cases h
        refine if_pos (List.all_eq_true.mpr fun fromHeight hf => ?_)
        rcases hmore fromHeight hf with hlt | hf
        · exact decide_eq_true hlt
        · exact List.all_eq_true.mp hbel fromHeight hf
      · rename_i hbel
        rw [if_neg fun hall => hbel (List.all_eq_true.mpr fun x hx => List.all_eq_true.mp hall x (hsub hx))]
        exact ih h hsub hmore
    | ReorgInvalidated fromHeight oldAnchor =>
      -- the reorg joins the later ones on both sides
      have hstd : standingFunding (fromHeight :: later) past = some evidence := h
      refine ih hstd (List.cons_subset_cons _ hsub) fun height hht => ?_
      rcases List.mem_cons.mp hht with rfl | hht
      · exact .inr List.mem_cons_self
      · exact (hmore height hht).imp_right (List.mem_cons_of_mem _)
    | _ => exact ih h hsub hmore

/-! ## The context against the history -/

/-- What the context says about the accepted events: the observed height is that of the funding observation
    that still stands, and the claim flag is up only once a claim was verified. -/
structure Consistent (past : List SettlementEvent) (ctx : SettlementContext) : Prop where
  unobserved : ctx.state = .Preparing ∨ ctx.state = .ReadyToFund → ctx.lastObservedHeight = none
  observed : ∀ height, ctx.lastObservedHeight = some height →
    ∃ evidence, standingFunding [] past = some evidence ∧ evidence.blockHeight = height
  settling : ctx.claimEvidenceVerified = true → ctx.state ≠ .Preparing ∧ ctx.state ≠ .ReadyToFund ∧
    ctx.state ≠ .Confirming
  verified : ctx.claimEvidenceVerified = true → ∃ evidence, lastClaim past = some evidence
  settled : ctx.state = .Settled → ctx.claimEvidenceVerified = true

theorem Consistent.observed_of_reorg (h : Consistent past ctx) {fromHeight : UInt64} {oldAnchor : Digest32}
    (hbel : observedFrom ctx.lastObservedHeight fromHeight = false) {height : UInt64}
    (hlast : ctx.lastObservedHeight = some height) :
    ∃ evidence, standingFunding [] (.ReorgInvalidated fromHeight oldAnchor :: past) = some evidence ∧
      evidence.blockHeight = height := by
  obtain ⟨evidence, hstd, rfl⟩ := h.observed height hlast
  have hmono : standingFunding [fromHeight] past = some evidence := by
    refine standingFunding_mono hstd (List.nil_subset _) fun f hf => .inl ?_
    rw [List.mem_singleton.mp hf]
    rw [hlast] at hbel
    simpa [observedFrom] using hbel
  exact ⟨evidence, hmono, rfl⟩

variable {revision : UInt64} {t : Transition}

theorem Consistent.accepts (h : Consistent past ctx)
    (hstep : Accepts ctx revision event t) :
    Consistent (event :: past) t.next := by
  cases hstep with
  | arm hs =>
    exact ⟨fun _ => h.unobserved (.inl hs), h.observed, fun hc => absurd hs (h.settling hc).1, h.verified,
      nofun⟩
  | observe hs evidence =>
    refine ⟨by simp, fun height hht => ?_, fun hc => ?_, h.verified, nofun⟩
    · cases hht
      exact ⟨evidence, by simp [standingFunding], rfl⟩
    · obtain ⟨-, hrdy, hconf⟩ := h.settling hc
      exact absurd hs (by simp [hrdy, hconf])
  | absent hs height =>
    exact ⟨fun _ => rfl, nofun, fun hc => absurd hs (h.settling hc).2.2, h.verified, nofun⟩
  | confirm hs evidence hlast =>
    exact ⟨by simp, h.observed, fun _ => by simp, h.verified, nofun⟩
  | verify hs evidence =>
    exact ⟨h.unobserved, h.observed, fun _ => by simp [hs], fun _ => ⟨evidence, rfl⟩, fun _ => rfl⟩
  | settle hs hcl evidence => exact ⟨by simp, h.observed, fun _ => by simp, h.verified, fun _ => hcl⟩
  | expire hs => exact ⟨h.unobserved, h.observed, h.settling, h.verified, h.settled⟩
  | refund hs evidence => exact ⟨by simp, h.observed, fun _ => by simp, h.verified, nofun⟩
  | regress hs fromHeight oldAnchor hlast =>
    refine ⟨fun _ => rfl, nofun, nofun, nofun, fun hset => ?_⟩
    dsimp only at hset
    split at hset <;> cases hset
  | keep fromHeight oldAnchor hs =>
    refine ⟨h.unobserved, fun height hht => ?_, h.settling, h.verified, h.settled⟩
    rcases hs with ⟨-, hbel⟩ | hs
    · exact h.observed_of_reorg hbel hht
    · rw [h.unobserved hs] at hht
      cases hht

/-- **Every run keeps the context consistent with the accepted events.** -/
theorem consistent_of_run (h : contextAfter past = some ctx) : Consistent past ctx := by
  refine after_invariant (P := Consistent) ?_ ?_ h
  · exact ⟨fun _ => rfl, nofun, nofun, nofun, nofun⟩
  · intro past s event s' hs hstep
    obtain ⟨revision, effects, hstep, -⟩ := accept_eq_some.mp hstep
    exact hs.accepts hstep

/-! ## Claims under reorgs -/

/-- The last verified claim lies below every reorg accepted after it. -/
def ClaimStands (past : List SettlementEvent) : Prop :=
  ∃ evidence, lastClaim past = some evidence ∧
    ∀ fromHeight ∈ reorgsSinceClaim past, evidence.blockHeight < fromHeight

/-- Where the context relies on a verified claim, or has settled on one, that claim stands. -/
def ClaimSound (past : List SettlementEvent) (ctx : SettlementContext) : Prop :=
  ctx.claimEvidenceVerified = true ∨ ctx.state = .Settled → ClaimStands past

/-- A reorg that reaches down to the claim relied on also reaches the funding observation. -/
def ReachesFunding (past : List SettlementEvent) (ctx : SettlementContext) : SettlementEvent → Prop
  | .ReorgInvalidated fromHeight _ =>
    ctx.claimEvidenceVerified = true →
      ∀ evidence, lastClaim past = some evidence → fromHeight ≤ evidence.blockHeight →
        observedFrom ctx.lastObservedHeight fromHeight = true
  | _ => True

/-- A reorg that leaves the context alone keeps the claim sound exactly when it starts above the claim. -/
theorem claimSound_keep (hC : Consistent past ctx) (hsnd : ClaimSound past ctx) (revision fromHeight : UInt64)
    (oldAnchor : Digest32)
    (hbel : ctx.claimEvidenceVerified = true → observedFrom ctx.lastObservedHeight fromHeight = false) :
    ClaimSound (.ReorgInvalidated fromHeight oldAnchor :: past) { ctx with revision := revision } ↔
      ReachesFunding past ctx (.ReorgInvalidated fromHeight oldAnchor) := by
  constructor
  · intro h hcl evidence hlast hrch
    obtain ⟨evidence', hlast', hstd⟩ := h (.inl hcl)
    cases hlast.symm.trans hlast'
    exact absurd hrch (UInt64.not_le.mpr (hstd fromHeight List.mem_cons_self))
  · intro h hrelies
    have hcl : ctx.claimEvidenceVerified = true := hrelies.elim id hC.settled
    obtain ⟨evidence, hlast, hstd⟩ := hsnd (.inl hcl)
    refine ⟨evidence, hlast, fun f hf => ?_⟩
    rcases List.mem_cons.mp hf with rfl | hf
    · refine UInt64.not_le.mp fun hrch => ?_
      exact absurd (h hcl evidence hlast hrch) (by simp [hbel hcl])
    · exact hstd f hf

/-- One accepted event keeps claims sound exactly when a reorg it reports does not pass between funding and
    claim. -/
theorem claimSound_accepts (hC : Consistent past ctx) (hsnd : ClaimSound past ctx) (hstep : Accepts ctx revision event t) :
    ClaimSound (event :: past) t.next ↔ ReachesFunding past ctx event := by
  cases hstep with
  | arm | observe | absent | confirm | refund => exact iff_of_true (fun h => hsnd (h.imp_right nofun)) trivial
  | verify hs evidence => exact iff_of_true (fun _ => ⟨evidence, rfl, nofun⟩) trivial
  | settle hs hcl evidence => exact iff_of_true (fun _ => hsnd (.inl hcl)) trivial
  | expire hs => exact iff_of_true hsnd trivial
  | regress hs fromHeight oldAnchor hlast =>
    refine iff_of_true (fun h => ?_) fun _ _ _ _ => hlast
    rcases h with h | h
    · cases h
    · dsimp only at h
      split at h <;> cases h
  | keep fromHeight oldAnchor hs =>
    refine claimSound_keep hC hsnd revision fromHeight oldAnchor fun hcl => ?_
    rcases hs with ⟨-, hbel⟩ | hs | hs
    · exact hbel
    · exact absurd hs (hC.settling hcl).1
    · exact absurd hs (hC.settling hcl).2.1

/-- **Claims under reorgs.**  Along a run of the machine, the claim that the context relies on lies below every
    reorg reported since — and a settlement never ends on a claim a reported reorg removed — exactly when no
    accepted reorg passes between the funding observation and the claim. -/
theorem claims_survive_reorgs_iff {past : List SettlementEvent} {ctx : SettlementContext}
    (h : contextAfter past = some ctx) :
    (∀ recent c, recent <:+ past → contextAfter recent = some c → ClaimSound recent c) ↔
      ∀ event before c, event :: before <:+ past → contextAfter before = some c →
        ReachesFunding before c event := by
  refine after_forall_iff (I := Consistent) consistent_of_run (fun h => ?_) ?_ h
  · rcases h with h | h <;> cases h
  · intro past s event s' hC hsound hstep
    obtain ⟨revision, effects, hstep, -⟩ := accept_eq_some.mp hstep
    exact claimSound_accepts hC hsound hstep

namespace Miniature

/-- Evidence of transaction `tx` in the block at `height`. -/
def evidence (tx : Nat) (height : UInt64) : EvidenceRefV1 :=
  ⟨1, BitVec.ofNat 256 tx, 0, height, BitVec.ofNat 256 height.toNat⟩

/-- Funding at height 10 and a claim at height 20, both observed and the claim verified; latest first. -/
def claimed : List SettlementEvent :=
  [.ClaimEvidenceVerified (evidence 2 20), .FundingConfirmed (evidence 1 10), .FundingObserved (evidence 1 10),
    .RefundArmed]

end Miniature

open Miniature in
/-- A reorg from height 15 removes the claim at height 20 and leaves the funding at height 10: the settlement
    still settles on the claim. -/
theorem settled_on_removed_claim :
    ∃ ctx, contextAfter (.ClaimConfirmed (evidence 2 20) :: .ReorgInvalidated 15 0 :: claimed) = some ctx ∧
      ctx.state = .Settled ∧
      ¬ ClaimSound (.ClaimConfirmed (evidence 2 20) :: .ReorgInvalidated 15 0 :: claimed) ctx := by
  refine ⟨⟨.Settled, 6, some 10, true, true⟩, by decide, rfl, fun h => ?_⟩
  obtain ⟨claim, hlast, hstands⟩ := h (.inl rfl)
  cases hlast
  exact absurd (hstands 15 (by decide)) (by decide)

open Miniature in
/-- A reorg from height 9 takes the funding along with the claim. -/
theorem claimed_survives_deep_reorg : ∃ ctx, contextAfter (.ReorgInvalidated 9 0 :: claimed) = some ctx ∧
      ((∀ recent c, recent <:+ .ReorgInvalidated 9 0 :: claimed → contextAfter recent = some c →
          ClaimSound recent c) ↔
        ∀ event before c, event :: before <:+ .ReorgInvalidated 9 0 :: claimed → contextAfter before = some c →
          ReachesFunding before c event) := by
  have hrun : contextAfter (.ReorgInvalidated 9 0 :: claimed) = some ⟨.Confirming, 5, none, false, true⟩ := by
    decide
  exact ⟨_, hrun, claims_survive_reorgs_iff hrun⟩

/-! ## Confirmations -/

/-- A confirmation carries the very reference it confirms: the funding observation that still stands, or the
    last verified claim. -/
def ExactReference (past : List SettlementEvent) : SettlementEvent → Prop
  | .FundingConfirmed evidence => standingFunding [] past = some evidence
  | .ClaimConfirmed evidence => lastClaim past = some evidence
  | _ => True

/-- A funding confirmation names the transaction, event and block of the observation that still stands (its
    height aside), and a claim confirmation names the last verified claim. -/
def NamesObservation (past : List SettlementEvent) : SettlementEvent → Prop
  | .FundingConfirmed evidence =>
    ∀ observed, standingFunding [] past = some observed →
      observed.chainId = evidence.chainId ∧ observed.txId = evidence.txId ∧
        observed.eventIndex = evidence.eventIndex ∧ observed.blockAnchor = evidence.blockAnchor
  | .ClaimConfirmed evidence => ∀ claim, lastClaim past = some claim → claim = evidence
  | _ => True

end DomProtocol
