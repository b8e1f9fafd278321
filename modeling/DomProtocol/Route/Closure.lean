import Mathlib.Logic.Relation
import DomProtocol.Route.Exits

/-!
# `Route.Closure` — closing a route without open funds

From a route without open funds, can the terminal phase be reached?  Two dead ends are found and shown to be kept by
every event; from every other such route a run of accepted events to the terminal phase is built.
-/

namespace DomProtocol.Route

open Lib

/-! ## Runs of accepted events -/

section Runs

variable (H : List UInt8 → Digest32)

def Succeeds (s s' : RouteSnapshotV1) : Prop := ∃ input d, reduce H s input = .ok d ∧ d.snapshot = s'

/-- Some finite sequence of accepted events reaches the terminal phase. -/
def Closable (s : RouteSnapshotV1) : Prop :=
  ∃ s', Relation.ReflTransGen (Succeeds H) s s' ∧ s'.coordination = .Terminal

variable {H} {s s' : RouteSnapshotV1}

/-- What every accepted event keeps and what excludes the terminal phase keeps a route from being closed. -/
theorem not_closable_of_stuck {P : RouteSnapshotV1 → Prop}
    (hstep : ∀ s input d, P s → reduce H s input = .ok d → P d.snapshot)
    (hph : ∀ s, P s → s.coordination ≠ .Terminal) (hs : P s) : ¬ Closable H s := by
  rintro ⟨s', hrun, hterm⟩
  have hkept : P s' := by
    clear hterm
    induction hrun with
    | refl => exact hs
    | tail _ hnext ih =>
      obtain ⟨input, d, hd, rfl⟩ := hnext
      exact hstep _ input d ih hd
  exact hph s' hkept hterm

end Runs

/-! ## Dead ends -/

section DeadEnds

variable {H : List UInt8 → Digest32} {s : RouteSnapshotV1} {input : RouteInput} {d : RouteDecisionV1}

theorem terminal_iff (h : Valid s) : s.coordination = .Terminal ↔
    s.abortedUnfunded ∨ (s.upstream.isTerminal ∧ s.downstream.isTerminal) := by
  rw [h.phase, RouteSnapshotV1.phase]
  split
  · rename_i hterm
    exact ⟨fun _ => hterm, fun _ => rfl⟩
  · rename_i hterm
    refine ⟨fun hph => ?_, fun h => absurd h hterm⟩
    split_ifs at hph

theorem isTerminal_eq_true {leg : LegSnapshotV1} :
    leg.isTerminal = true ↔ leg.claim.progress = .Final ∨ leg.refund.progress = .Final := decide_eq_true_iff

/-- The upstream leg is on its way out and the downstream leg was never funded. -/
structure LeftBehind (s : RouteSnapshotV1) : Prop where
  valid : Valid s
  live : s.abortedUnfunded = false
  exit : s.upstream.claim.progress ≠ .NotPrepared ∨ s.upstream.refund.progress ≠ .NotPrepared
  unfunded : s.downstream.funding.progress = .NotPrepared

/-- The secret is public and the refunds were not armed. -/
structure ExposedUnarmed (s : RouteSnapshotV1) : Prop where
  valid : Valid s
  live : s.abortedUnfunded = false
  exposed : s.secretVisibility.isPublic
  unarmed : s.refunds = none

theorem exit_of_isTerminal {leg : LegSnapshotV1} (h : leg.isTerminal = true) :
    leg.claim.progress ≠ .NotPrepared ∨ leg.refund.progress ≠ .NotPrepared := by
  rcases isTerminal_eq_true.mp h with hcl | hrf
  · exact .inl (by rw [hcl]; exact nofun)
  · exact .inr (by rw [hrf]; exact nofun)

theorem LeftBehind.not_terminal (h : LeftBehind s) : s.coordination ≠ .Terminal := by
  intro hph
  rcases (terminal_iff h.valid).mp hph with habt | ⟨-, hdown⟩
  · rw [h.live] at habt
    cases habt
  · exact funding_of_exit h.valid .Downstream (exit_of_isTerminal hdown) h.unfunded

theorem LeftBehind.step (h : LeftBehind s) (hd : reduce H s input = .ok d) : LeftBehind d.snapshot where
  valid := (accepted hd).2.1
  live := by
    rcases (frame_step hd).aborted with hsame | ⟨hup, -⟩
    · rw [hsame, h.live]
    · exact absurd hup (funding_of_exit h.valid .Upstream h.exit)
  exit := h.exit.imp (prepared_step hd .Upstream .Claim) (prepared_step hd .Upstream .Refund)
  unfunded := by
    by_contra hfd
    -- the commit of the downstream funding needs an upstream leg without exits
    obtain ⟨-, -, -, -, hpre⟩ := committed_of_prepared hd .Downstream .Funding h.unfunded hfd
    obtain ⟨-, hcl, hrf⟩ := downstreamFunding_eq_ok hpre
    exact h.exit.elim (fun h => h hcl) fun h => h hrf

theorem ExposedUnarmed.idle (h : ExposedUnarmed s) (leg : LegIdV1) (kind : ActionKindV1) :
    ((s.leg leg).action kind).progress = .NotPrepared := by
  by_contra hprep
  have harmed := h.valid.armed leg kind hprep
  rw [h.unarmed] at harmed
  cases harmed

theorem ExposedUnarmed.not_terminal (h : ExposedUnarmed s) : s.coordination ≠ .Terminal := by
  intro hph
  rcases (terminal_iff h.valid).mp hph with habt | ⟨hup, -⟩
  · rw [h.live] at habt
    cases habt
  · exact (exit_of_isTerminal hup).elim (fun hne => hne (h.idle .Upstream .Claim)) fun hne =>
      hne (h.idle .Upstream .Refund)

theorem ExposedUnarmed.settling (h : ExposedUnarmed s) : s.coordination ≠ .TermsFrozen := by
  rw [h.valid.phase, RouteSnapshotV1.phase]
  split_ifs with hterm hrcvy hsettling
  · exact nofun
  · exact nofun
  · exact nofun
  all_goals exact absurd (.inr (.inr (.inr (.inr h.exposed)))) hsettling

theorem ExposedUnarmed.step (h : ExposedUnarmed s) (hd : reduce H s input = .ok d) : ExposedUnarmed d.snapshot where
  valid := (accepted hd).2.1
  live := by
    rcases (frame_step hd).aborted with hsame | ⟨-, hpriv⟩
    · rw [hsame, h.live]
    · rw [h.exposed] at hpriv
      cases hpriv
  exposed := by
    rw [(secret_step hd).1 h.exposed]
    exact h.exposed
  unarmed := by
    rcases (frame_step hd).refunds with hsame | hph
    · rw [hsame, h.unarmed]
    · exact absurd hph h.settling

end DeadEnds

/-! ## Carrying a route to its end -/

section Forward

variable {H : List UInt8 → Digest32} {s s' : RouteSnapshotV1} {leg : LegIdV1} {kind : ActionKindV1}
  {state : ActionStateV1}

/-- A running route with its refunds armed, its actions at a stage, and room for `n` more events. -/
structure At (stage : Slots ActionProgressV1) (n : Nat) (s : RouteSnapshotV1) : Prop where
  valid : Valid s
  live : s.abortedUnfunded = false
  running : s.health = .Running
  armed : s.refunds.isSome
  stage : ∀ leg kind, ((s.leg leg).action kind).progress = stage leg kind
  room : Room s n

theorem Updated.action (h : Updated s leg kind state s') : (s'.leg leg).action kind = state := by
  obtain ⟨revision, digest, rfl, -⟩ := h
  rw [leg_advance, action_setAction, if_pos ⟨rfl, rfl⟩]

variable {stage : Slots ActionProgressV1} {n : Nat}

theorem At.update {input : RouteInput} {d : RouteDecisionV1} (h : At stage (n + 1) s)
    (hd : reduce H s input = .ok d) (hupd : Updated s leg kind state d.snapshot) :
    At (stage.set leg kind state.progress) n d.snapshot := by
  have hval := (accepted hd).2.1
  have hroom : Room d.snapshot n := by
    have hbef := h.room
    unfold Room at *
    rw [revision_step hd]
    omega
  obtain ⟨revision, digest, hsnap, -⟩ := hupd
  rw [hsnap] at hval hroom ⊢
  refine ⟨hval, (abortedUnfunded_setAction ..).trans h.live, (health_setAction ..).trans h.running, by simpa using h.armed,
    fun leg' kind' => ?_, hroom⟩
  rw [leg_advance, action_setAction, Slots.set]
  split
  · rfl
  · exact h.stage leg' kind'

/-- **A funding or refund whose preconditions hold can be carried to its finality.** -/
theorem At.perform (hH : IdentifiesEffects H) (h : At stage (n + 3) s)
    (hpre : validateActionPreconditions s leg kind = .ok ()) (hcl : kind ≠ .Claim) :
    ∃ s', Relation.ReflTransGen (Succeeds H) s s' ∧ At (stage.set leg kind .Final) n s' := by
  have hroom {m : Nat} {stage : Slots ActionProgressV1} {s : RouteSnapshotV1} (h : At stage (m + 1) s) : Room s 1 := by
    have hbef := h.room
    unfold Room at *
    omega
  obtain ⟨input₁, intent, d₁, reference, -, -, -, hd₁, hcom⟩ :=
    commit_accepted hH h.valid (hroom h) h.live hcl (fun _ => h.running) hpre
  have h₁ := h.update hd₁ hcom
  obtain ⟨input₂, d₂, transactionId, hd₂, hout⟩ :=
    externalize_accepted (H := H) h₁.valid (hroom h₁) h₁.live hcl hcom.action
  have h₂ := h₁.update hd₂ hout
  obtain ⟨input₃, d₃, hd₃, hfin⟩ := finalize_accepted (H := H) h₂.valid (hroom h₂) h₂.live hcl hout.action
  have h₃ := h₂.update hd₃ hfin
  rw [Slots.set_set, Slots.set_set] at h₃
  refine ⟨d₃.snapshot, ?_, h₃⟩
  exact .tail (.tail (.tail .refl ⟨input₁, d₁, hd₁, rfl⟩) ⟨input₂, d₂, hd₂, rfl⟩) ⟨input₃, d₃, hd₃, rfl⟩

theorem At.fundingPreconditions (h : At stage n s) (leg : LegIdV1) (hnone : stage leg .Funding = .NotPrepared)
    (hexits : ∀ leg kind, kind ≠ .Funding → stage leg kind = .NotPrepared)
    (hup : leg = .Downstream → stage .Upstream .Funding = .Final) :
    validateActionPreconditions s leg .Funding = .ok () := by
  have hcl (leg : LegIdV1) : (s.leg leg).claim.progress = .NotPrepared :=
    (h.stage leg .Claim).trans (hexits leg .Claim nofun)
  have hrf (leg : LegIdV1) : (s.leg leg).refund.progress = .NotPrepared :=
    (h.stage leg .Refund).trans (hexits leg .Refund nofun)
  have hterm (leg : LegIdV1) : ¬ (s.leg leg).isTerminal := by
    simp [LegSnapshotV1.isTerminal, hcl leg, hrf leg]
  simp only [validateActionPreconditions, validateFundingPreconditions, inversion, not_or, not_and, Decidable.not_not]
  refine ⟨?_, (h.stage leg .Funding).trans hnone, ⟨hterm .Upstream, hterm .Downstream⟩,
    ⟨hcl leg, hrf leg⟩, fun hleg => ⟨(h.stage .Upstream .Funding).trans (hup hleg), hcl .Upstream,
      hrf .Upstream⟩⟩
  rw [Option.isNone_eq_false_iff.mpr h.armed]
  intro hcase
  cases hcase

theorem At.refundPreconditions (h : At stage n s) (leg : LegIdV1) (hfdg : stage leg .Funding = .Final)
    (hcl : stage leg .Claim = .NotPrepared) (hrf : stage leg .Refund = .NotPrepared) :
    validateActionPreconditions s leg .Refund = .ok () := by
  have hfin : (s.leg leg).funding.progress = .Final := (h.stage leg .Funding).trans hfdg
  refine Route.refundPreconditions h.valid ?_ ((h.stage leg .Claim).trans hcl) ((h.stage leg .Refund).trans hrf)
  rw [hfin]
  rfl

/-- A route on which nothing was prepared. -/
def untouched : Slots ActionProgressV1 := fun _ _ => .NotPrepared

/-- **From an untouched route with its refunds armed** both legs can be funded and refunded. -/
theorem At.closable (hH : IdentifiesEffects H) (h : At untouched 12 s) : Closable H s := by
  have hrf : ActionKindV1.Refund ≠ .Claim := nofun
  have hfdg : ActionKindV1.Funding ≠ .Claim := nofun
  obtain ⟨s₁, hrun₁, h₁⟩ := At.perform (n := 9) hH h
    (h.fundingPreconditions .Upstream rfl (fun _ _ _ => rfl) nofun) hfdg
  obtain ⟨s₂, hrun₂, h₂⟩ := At.perform (n := 6) hH h₁
    (h₁.fundingPreconditions .Downstream rfl (fun _ _ hkind => if_neg fun h => hkind h.2) fun _ => rfl) hfdg
  obtain ⟨s₃, hrun₃, h₃⟩ := At.perform (n := 3) hH h₂ (h₂.refundPreconditions .Upstream rfl rfl rfl) hrf
  obtain ⟨s₄, hrun₄, h₄⟩ := At.perform (n := 0) hH h₃ (h₃.refundPreconditions .Downstream rfl rfl rfl) hrf
  refine ⟨s₄, hrun₁.trans (hrun₂.trans (hrun₃.trans hrun₄)), (terminal_iff h₄.valid).mpr (.inr ⟨?_, ?_⟩)⟩
  · exact isTerminal_eq_true.mpr (.inr (h₄.stage .Upstream .Refund))
  · exact isTerminal_eq_true.mpr (.inr (h₄.stage .Downstream .Refund))

theorem Valid.relabel (h : Valid s) (health : HealthStateV1) (aborted : Bool)
    (hrecovering : ∀ leg kind, ((s.leg leg).action kind).isInvalidated → health.restrictsToRecovery)
    (habt : aborted → s.hasOpenFunds = false ∧ s.secretVisibility.isPublic = false) {revision : UInt64}
    (hrev : revision ≠ 0) (digest : Digest32) :
    Valid (advance { s with health, abortedUnfunded := aborted } revision revision digest) := by
  have hmvd : Moved s { s with health, abortedUnfunded := aborted } :=
    ⟨fun _ _ => id, fun _ _ => id, fun _ _ => id, fun _ => rfl, fun _ => .inl, .inl⟩
  exact h.moved hmvd ⟨rfl, rfl, rfl, rfl⟩ h.armed habt (fun leg kind => ⟨h.action leg kind, h.purpose leg kind⟩)
    hrecovering hrev digest

theorem untouched_of_unfunded (h : Valid s) (hunf : ∀ leg, (s.leg leg).funding.progress = .NotPrepared)
    (leg : LegIdV1) (kind : ActionKindV1) : ((s.leg leg).action kind).progress = .NotPrepared := by
  by_contra hprep
  cases kind with
  | Funding => exact hprep (hunf leg)
  | Claim => exact funding_of_exit h leg (.inl hprep) (hunf leg)
  | Refund => exact funding_of_exit h leg (.inr hprep) (hunf leg)

theorem closed_of_unfunded (hunf : ∀ leg, (s.leg leg).funding.progress = .NotPrepared) : s.hasOpenFunds = false := by
  have hup : s.upstream.funding.progress = .NotPrepared := hunf .Upstream
  have hdown : s.downstream.funding.progress = .NotPrepared := hunf .Downstream
  simp [RouteSnapshotV1.hasOpenFunds, LegSnapshotV1.hasOpenFunds, hup, hdown]

theorem running_accepted (h : Valid s) (hroom : Room s 1)
    (hunf : ∀ leg, (s.leg leg).funding.progress = .NotPrepared) :
    ∃ input d, reduce H s input = .ok d ∧ d.snapshot.health = .Running ∧
      d.snapshot.abortedUnfunded = s.abortedUnfunded ∧ d.snapshot.secretVisibility = s.secretVisibility ∧
      d.snapshot.refunds = s.refunds ∧ ∀ leg, d.snapshot.leg leg = s.leg leg := by
  have hclsd := closed_of_unfunded hunf
  have hsnd (leg : LegIdV1) (kind : ActionKindV1) : ¬ ((s.leg leg).action kind).isInvalidated := by
    rw [ActionStateV1.progress_eq_notPrepared.mp (untouched_of_unfunded h hunf leg kind)]
    intro hcase
    cases hcase
  obtain ⟨d, revision, digest, hd, hsnap, -⟩ :=
    reduce_of_rule (H := H) ⟨1, .SetHealth .Running 1, 1⟩ (onlySnapshot { s with health := .Running }) h hroom
      (show (1 : Digest32) ≠ 0 by decide) rfl (show (1 : UInt64) ≠ 0 by decide)
      (by simp [reduceEvent, hclsd]) rfl (fun hopen => by rw [hclsd] at hopen; cases hopen)
      fun revision digest hrev => h.relabel .Running s.abortedUnfunded
        (fun leg kind hinv => absurd hinv (hsnd leg kind)) h.aborted hrev digest
  refine ⟨_, d, hd, ?_, ?_, ?_, ?_, fun leg => ?_⟩
  all_goals rw [hsnap]
  case refine_5 => cases leg <;> rfl
  all_goals rfl

theorem abort_accepted (h : Valid s) (hroom : Room s 1) (hlive : s.abortedUnfunded = false)
    (hrng : s.health = .Running) (hunf : ∀ leg, (s.leg leg).funding.progress = .NotPrepared)
    (hpriv : s.secretVisibility.isPublic = false) :
    ∃ input d, reduce H s input = .ok d ∧ d.snapshot.abortedUnfunded = true := by
  have hup : s.upstream.funding.progress = .NotPrepared := hunf .Upstream
  have hdown : s.downstream.funding.progress = .NotPrepared := hunf .Downstream
  have hclsd := closed_of_unfunded hunf
  obtain ⟨d, revision, digest, hd, hsnap, -⟩ :=
    reduce_of_rule (H := H) ⟨1, .AbortUnfunded 1, 1⟩ (onlySnapshot { s with abortedUnfunded := true }) h hroom
      (show (1 : Digest32) ≠ 0 by decide) rfl (show (1 : UInt64) ≠ 0 by decide)
      (by simp [reduceEvent, requireNewWorkAllowed_eq_ok, hlive, hrng, hclsd, hup, hdown, hpriv]) rfl
      (fun _ => rfl) fun revision digest hrev => h.relabel s.health true h.recovering
        (fun _ => ⟨hclsd, hpriv⟩) hrev digest
  refine ⟨_, d, hd, ?_⟩
  rw [hsnap]
  rfl

/-- **Route closure.**  A route without open funds can be brought to its terminal phase exactly when it is there, or when
    no leg was funded and the secret is private or the refunds are armed. -/
theorem closable_iff (hH : IdentifiesEffects H) (h : Reachable H s) (hroom : Room s 13)
    (hclosed : s.hasOpenFunds = false) : Closable H s ↔ s.coordination = .Terminal ∨
      ((∀ leg, (s.leg leg).funding.progress = .NotPrepared) ∧
        (s.secretVisibility.isPublic = false ∨ s.refunds.isSome)) := by
  have hvalid := ReachableUnder.valid h
  have hshut : s.upstream.hasOpenFunds = false ∧ s.downstream.hasOpenFunds = false := by
    simpa [RouteSnapshotV1.hasOpenFunds] using hclosed
  constructor
  · intro hclosable
    by_contra hneither
    obtain ⟨hphase, hstuck⟩ := not_or.mp hneither
    have hnot := mt (terminal_iff hvalid).mpr hphase
    have hlive : s.abortedUnfunded = false := by simpa using fun h => hnot (.inl h)
    by_cases hup : s.upstream.funding.progress = .NotPrepared
    · have hdown : s.downstream.funding.progress = .NotPrepared := by
        by_contra hprepared
        exact ActionStateV1.prepared_of_isOut (ActionStateV1.isOut_of_wasFinal (hvalid.upstreamFirst hprepared)) hup
      obtain ⟨hpublic, hunarmed⟩ : s.secretVisibility.isPublic = true ∧ s.refunds = none := by
        have := not_and.mp hstuck (forall_leg.mpr ⟨hup, hdown⟩)
        simpa using this
      exact not_closable_of_stuck (P := ExposedUnarmed) (fun _ _ _ h hd => h.step hd) (fun _ h => h.not_terminal)
        ⟨hvalid, hlive, hpublic, hunarmed⟩ hclosable
    · have hterminal : s.upstream.isTerminal = true := by simpa [LegSnapshotV1.hasOpenFunds, hup] using hshut.1
      have hdown : s.downstream.funding.progress = .NotPrepared := by
        by_contra hprepared
        have hboth : s.downstream.isTerminal = true := by simpa [LegSnapshotV1.hasOpenFunds, hprepared] using hshut.2
        exact hnot (.inr ⟨hterminal, hboth⟩)
      exact not_closable_of_stuck (P := LeftBehind) (fun _ _ _ h hd => h.step hd) (fun _ h => h.not_terminal)
        ⟨hvalid, hlive, exit_of_isTerminal hterminal, hdown⟩ hclosable
  · rintro (hphase | ⟨hunfunded, hcase⟩)
    · exact ⟨s, .refl, hphase⟩
    · by_cases haborted : s.abortedUnfunded = true
      · exact ⟨s, .refl, (terminal_iff hvalid).mpr (.inl haborted)⟩
      have hlive : s.abortedUnfunded = false := by simpa using haborted
      obtain ⟨input, d, hd, hrunning, hsame, hsecret, hrefunds, hlegs⟩ :=
        running_accepted (H := H) hvalid (Nat.lt_of_le_of_lt (by omega) hroom) hunfunded
      have hvalid' := (accepted hd).2.1
      have hroom' : Room d.snapshot 12 := by
        unfold Room at *
        rw [revision_step hd]
        omega
      have hunfunded' (leg : LegIdV1) : (d.snapshot.leg leg).funding.progress = .NotPrepared := by
        rw [hlegs]
        exact hunfunded leg
      by_cases hprivate : s.secretVisibility.isPublic = false
      · obtain ⟨input', d', hd', hdone⟩ := abort_accepted (H := H) hvalid' (Nat.lt_of_le_of_lt (by omega) hroom')
          (hsame.trans hlive) hrunning hunfunded' (by rw [hsecret, hprivate])
        exact ⟨d'.snapshot, .tail (.tail .refl ⟨input, d, hd, rfl⟩) ⟨input', d', hd', rfl⟩,
          (terminal_iff (accepted hd').2.1).mpr (.inl hdone)⟩
      · have harmed := hcase.resolve_left hprivate
        obtain ⟨s', hrun, hterminal⟩ := At.closable hH (s := d.snapshot)
          ⟨hvalid', hsame.trans hlive, hrunning, by rw [hrefunds]; exact harmed,
            untouched_of_unfunded hvalid' hunfunded', hroom'⟩
        exact ⟨s', .head ⟨input, d, hd, rfl⟩ hrun, hterminal⟩

end Forward

namespace SmallRoute

/-- The upstream leg is funded and refunded, the downstream leg never funded. -/
def refundedUpstream : List Move := [freeze, arm] ++ perform .Upstream .Funding ++ perform .Upstream .Refund

end SmallRoute

open SmallRoute in
/-- The upstream leg was funded and refunded, the downstream leg never funded: no event sequence closes the route. -/
theorem refunded_upstream_not_closable :
    ∃ s, Reachable digest s ∧ Room s 13 ∧ s.hasOpenFunds = false ∧ s.upstream.refund.progress = .Final ∧
      s.downstream.funding.progress = .NotPrepared ∧ ¬ Closable digest s := by
  have hrun : (play refundedUpstream fresh).revision.toNat + 13 < 2 ^ 64 ∧
      (play refundedUpstream fresh).hasOpenFunds = false ∧
      (play refundedUpstream fresh).upstream.refund.progress = .Final ∧
      (play refundedUpstream fresh).downstream.funding.progress = .NotPrepared ∧
      (play refundedUpstream fresh).abortedUnfunded = false := by decide +kernel
  obtain ⟨hroom, hclosed, hrefund, hdown, hlive⟩ := hrun
  have hreach := reachable refundedUpstream
  refine ⟨play refundedUpstream fresh, hreach, hroom, hclosed, hrefund, hdown, ?_⟩
  refine not_closable_of_stuck (P := LeftBehind) (fun _ _ _ h hd => h.step hd) (fun _ h => h.not_terminal)
    ⟨hreach.valid, hlive, .inr ?_, hdown⟩
  rw [hrefund]
  exact nofun

open SmallRoute in
/-- A route whose secret became public before any funding can still be closed, once its refunds are armed. -/
theorem armed_in_public_closable :
    (play [freeze, arm, reveal] fresh).secretVisibility.isPublic ∧ Closable digest (play [freeze, arm, reveal] fresh) := by
  have hrun : (play [freeze, arm, reveal] fresh).revision.toNat + 13 < 2 ^ 64 ∧
      (play [freeze, arm, reveal] fresh).hasOpenFunds = false ∧
      (play [freeze, arm, reveal] fresh).upstream.funding.progress = .NotPrepared ∧
      (play [freeze, arm, reveal] fresh).downstream.funding.progress = .NotPrepared ∧
      (play [freeze, arm, reveal] fresh).refunds.isSome ∧
      (play [freeze, arm, reveal] fresh).secretVisibility.isPublic := by decide +kernel
  obtain ⟨hroom, hclosed, hup, hdown, harmed, hpublic⟩ := hrun
  exact ⟨hpublic, (closable_iff identifiesEffects (reachable [freeze, arm, reveal]) hroom hclosed).mpr
    (.inr ⟨forall_leg.mpr ⟨hup, hdown⟩, .inr harmed⟩)⟩

end DomProtocol.Route
