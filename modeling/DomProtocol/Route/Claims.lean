import DomProtocol.Route.History
import DomProtocol.Route.Safety

/-!
# `Route.Claims` — the work the store hands out

A claim selects pending rows of the lease's generation that nobody works on, opens them, and hands out those the
snapshot still refers to.  The four claim operations differ in what they select and in how they describe an effect; what
they hand out and what they write is one statement (`Claimed`).
-/

namespace DomProtocol.Route

open Lib

variable {γ : Type} {hash : Digest32}

section Claims

variable (H : List UInt8 → Digest32) (lease : RouteLeaseV1) (now : UInt64) (s : RouteSnapshotV1)

/-- A description of an effect that a claim hands out. -/
structure IsWork (effect : RouteEffectV1) (work : ClaimedRouteWorkV1) : Prop where
  effectId : work.effectId = effect.effectId
  fencingEpoch : work.fencingEpoch = effect.fencingEpoch
  leg : work.leg = effect.leg
  kind : work.kind = effect.kind

/-- Work of a dispatchable effect that one of the selected rows holds. -/
def WorkOf (selected : List OutboxRow) (work : ClaimedRouteWorkV1) : Prop :=
  ∃ row ∈ selected, ∃ effect, openRow H lease row = .ok effect ∧ effectIsDispatchable s effect ∧ IsWork effect work

/-- What a claim on the selected rows hands out and writes. -/
structure Hands (selected outbox : List OutboxRow) (works : List ClaimedRouteWorkV1) (outbox' : List OutboxRow) :
    Prop where
  work : ∀ work ∈ works, WorkOf H lease s selected work
  once : (works.map (·.effectId)).Sublist (selected.map (·.effectId))
  outbox : ∀ routeId slots, Matches H routeId slots outbox → Matches H routeId slots outbox'

/-- **A claim**: the lease holds, and what it hands out was pending and free. -/
structure Claimed (rows rows' : RouteRows) (works : List ClaimedRouteWorkV1) : Prop where
  held : validateLease rows lease now = .ok ()
  handed : ∃ s, loadSnapshot H lease.routeId rows = .ok s ∧ ∃ selected outbox',
    selected.Subperm rows.outbox ∧ (∀ row ∈ selected, row.status = .Pending ∧ isFree row.dispatchLease now) ∧
    Hands H lease s selected rows.outbox works outbox' ∧ rows' = { rows with outbox := outbox' }

variable {H lease now s} {selected outbox outbox' : List OutboxRow}

variable {row : OutboxRow} {effect : RouteEffectV1}

theorem openRow_eq_ok (h : openRow H lease row = .ok effect) :
    effect.effectId = row.effectId ∧ effect.fencingEpoch = lease.fencingEpoch := by
  simp only [openRow, coded, inversion, not_or, Decidable.not_not] at h
  obtain ⟨-, _, -, ⟨-, hid, hep⟩, rfl⟩ := h
  exact ⟨hid, hep⟩

theorem committed_of_dispatchable (h : effectIsDispatchable s effect) :
    ∃ reference, (s.leg effect.leg).action effect.kind = .Committed reference ∧
      reference.effectId = effect.effectId ∧ reference.fencingEpoch = effect.fencingEpoch := by
  unfold effectIsDispatchable at h
  split at h
  · cases h
  · split at h
    · rename_i active hactive
      split at h
      · cases h
      · rename_i hsame
        simp only [not_or, Decidable.not_not] at hsame
        exact ⟨active, hactive, hsame.1, hsame.2.1⟩
    · cases h

variable {routeId : Digest32} {deadline attempts : UInt64} {wanted : OutboxRow → Bool}

theorem Matches.take {slots : Slots (Option EffectReferenceV1)} (h : Matches H routeId slots outbox)
    (htake : takeRow lease now deadline wanted row outbox = .ok (attempts, outbox')) : Matches H routeId slots outbox' := by
  simp only [takeRow, inversion, Prod.mk.injEq] at htake
  obtain ⟨_, -, -, _, hupt, -, rfl⟩ := htake
  refine h.update ?_ hupt
  exact fun row => ⟨rfl, rfl, rfl, rfl, rfl, rfl, rfl⟩

/-! ## Handing out -/

theorem Hands.nil : Hands H lease s [] outbox [] outbox := ⟨nofun, List.Sublist.refl _, fun _ _ h => h⟩

variable {works : List ClaimedRouteWorkV1}

theorem Hands.skip (h : Hands H lease s selected outbox works outbox') :
    Hands H lease s (row :: selected) outbox works outbox' := by
  refine ⟨fun work hwork => ?_, h.once.cons _, h.outbox⟩
  obtain ⟨found, hfnd, hopd⟩ := h.work work hwork
  exact ⟨found, List.mem_cons_of_mem _ hfnd, hopd⟩

theorem Hands.cons {work : ClaimedRouteWorkV1} {taken : List OutboxRow} (hopen : openRow H lease row = .ok effect)
    (hdsp : effectIsDispatchable s effect) (hwork : IsWork effect work)
    (htake : takeRow lease now deadline wanted row outbox = .ok (attempts, taken))
    (h : Hands H lease s selected taken works outbox') :
    Hands H lease s (row :: selected) outbox (work :: works) outbox' := by
  refine ⟨List.forall_mem_cons.mpr ⟨?_, h.skip.work⟩, ?_, fun routeId slots hmch => ?_⟩
  · exact ⟨row, List.mem_cons_self, effect, hopen, hdsp, hwork⟩
  · rw [List.map_cons, List.map_cons, hwork.effectId, (openRow_eq_ok hopen).1]
    exact h.once.cons_cons _
  · exact h.outbox routeId slots (hmch.take htake)

/-- **The claim loop**, whatever it calls its claims. -/
theorem hands_claimRows {describe : RouteEffectV1 → Digest32 → StoreM (UInt64 → γ)}
    {work : γ → ClaimedRouteWorkV1} (hdsc : ∀ effect hash claim, describe effect hash = .ok claim →
      ∀ attempts, IsWork effect (work (claim attempts))) {claims : List γ}
    (h : claimRows H lease now deadline wanted describe s selected outbox = .ok (claims, outbox')) :
    Hands H lease s selected outbox (claims.map work) outbox' := by
  induction selected generalizing outbox claims with
  | nil =>
    cases h
    exact .nil
  | cons row rest ih =>
    simp only [claimRows, bind_eq_ok] at h
    obtain ⟨effect, hopen, h⟩ := h
    split at h
    · rename_i hdsp
      simp only [inversion, Prod.mk.injEq] at h
      obtain ⟨claim, hcl, ⟨attempts, taken⟩, htake, ⟨others, _⟩, hrest, rfl, rfl⟩ := h
      exact .cons hopen hdsp (hdsc effect _ claim hcl attempts) htake (ih hrest)
    · exact (ih h).skip

theorem hands_claimFirst {claimed : Option ClaimedRouteWorkV1}
    (h : claimFirst H lease now deadline s outbox selected = .ok (claimed, outbox')) :
    Hands H lease s selected outbox claimed.toList outbox' := by
  induction selected with
  | nil =>
    cases h
    exact .nil
  | cons row rest ih =>
    simp only [claimFirst, inversion] at h
    obtain ⟨effect, hopen, -, h⟩ := h
    split at h
    · rename_i hdsp
      simp only [inversion, Prod.mk.injEq] at h
      obtain ⟨⟨attempts, taken⟩, htake, rfl, rfl⟩ := h
      have hwork : IsWork effect (workClaim deadline effect row.effectHash attempts) := by
        unfold workClaim
        split <;> exact ⟨rfl, rfl, rfl, rfl⟩
      have hrest : Hands H lease s rest taken [] taken := ⟨fun _ hmem => (List.not_mem_nil hmem).elim, List.nil_sublist _, fun _ _ h => h⟩
      exact .cons hopen hdsp hwork htake hrest
    · exact (ih h).skip

theorem isWork_custodyClaim {claim : UInt64 → ClaimedExternalCustodyEffectV1}
    (h : custodyClaim deadline effect hash = .ok claim) : IsWork effect (.ExternalCustody (claim attempts)) := by
  unfold custodyClaim at h
  split at h
  · cases h
    exact ⟨rfl, rfl, rfl, rfl⟩
  · cases h

theorem isWork_runnerClaim {claim : UInt64 → ClaimedRouteEffectV1}
    (h : runnerClaim deadline effect hash = .ok claim) : IsWork effect (.Runner (claim attempts)) := by
  cases h
  exact ⟨rfl, rfl, rfl, rfl⟩

/-! ## The claim operations -/

variable {rows rows' : RouteRows} {dispatchLeaseMs : UInt64}

variable {limit : Nat}

theorem selectEffects_subperm :
    (selectEffects lease now wanted limit outbox).Subperm outbox :=
  (List.take_sublist _ _).subperm.trans ((List.perm_insertionSort _ _).subperm.trans List.filter_sublist.subperm)

theorem free_of_mem_selectEffects :
    ∀ row ∈ selectEffects lease now wanted limit outbox, row.status = .Pending ∧ isFree row.dispatchLease now := by
  intro row hrow
  have hmem := (List.perm_insertionSort _ _).subset (List.mem_of_mem_take hrow)
  simp only [List.mem_filter, decide_eq_true_eq] at hmem
  exact ⟨hmem.2.2.1, hmem.2.2.2.2⟩

theorem claimed_claimClass {dispatchClass : DispatchClass}
    {describe : UInt64 → RouteEffectV1 → Digest32 → StoreM (UInt64 → γ)} {work : γ → ClaimedRouteWorkV1}
    (hdsc : ∀ deadline effect hash claim, describe deadline effect hash = .ok claim →
      ∀ attempts, IsWork effect (work (claim attempts))) {claims : List γ}
    (h : claimClass H dispatchClass wanted describe lease now dispatchLeaseMs limit rows = .ok (claims, rows')) :
    Claimed H lease now rows rows' (claims.map work) := by
  simp only [claimClass, inversion, Prod.mk.injEq] at h
  obtain ⟨-, hlease, s, hs, deadline, -, -, -, ⟨_, outbox'⟩, hcl, rfl, rfl⟩ := h
  exact ⟨hlease, s, hs, _, outbox', selectEffects_subperm, free_of_mem_selectEffects,
    hands_claimRows (hdsc deadline) hcl, rfl⟩

theorem claimed_claimNextEffect {claimed : Option ClaimedRouteWorkV1}
    (h : claimNextEffect H lease now dispatchLeaseMs rows = .ok (claimed, rows')) :
    Claimed H lease now rows rows' claimed.toList := by
  simp only [claimNextEffect, inversion, Prod.mk.injEq] at h
  obtain ⟨hlease, s, hs, deadline, -, -, -, ⟨_, outbox'⟩, hcl, rfl, rfl⟩ := h
  exact ⟨hlease, s, hs, _, outbox', selectEffects_subperm, free_of_mem_selectEffects, hands_claimFirst hcl, rfl⟩

theorem claimed_claimExternalCustodyEffectById {effectId : Digest32} {claimed : Option ClaimedExternalCustodyEffectV1}
    (h : claimExternalCustodyEffectById H lease effectId now dispatchLeaseMs rows = .ok (claimed, rows')) :
    Claimed H lease now rows rows' (claimed.toList.map .ExternalCustody) := by
  simp only [claimExternalCustodyEffectById, inversion] at h
  obtain ⟨-, hlease, s, hs, deadline, -, -, -, row, hfind, hrow, effect, hopen, -, h⟩ := h
  simp only [not_or, Decidable.not_not] at hrow
  refine ⟨hlease, s, hs, ?_⟩
  split at h
  · rename_i hfree
    simp only [inversion, Bool.not_eq_false, Prod.mk.injEq] at h
    obtain ⟨hdsp, claim, hcl, ⟨attempts, taken⟩, htake, rfl, rfl⟩ := h
    refine ⟨[row], taken, List.singleton_subperm_iff.mpr (List.mem_of_find?_eq_some hfind), ?_,
      .cons hopen hdsp (isWork_custodyClaim hcl) htake .nil, rfl⟩
    exact List.forall_mem_singleton.mpr ⟨hrow.2.1, hfree⟩
  · cases h
    exact ⟨[], rows.outbox, List.nil_subperm, fun _ hmem => (List.not_mem_nil hmem).elim, .nil, rfl⟩

/-! ## Whole runs -/

theorem Good.claimed (h : Good H lease.routeId rows) (hcld : Claimed H lease now rows rows' works) :
    Good H lease.routeId rows' := by
  obtain ⟨s, hs, selected, outbox', -, -, hhands, rfl⟩ := hcld.handed
  rcases h with ⟨hnone, -, -⟩ | ⟨row, initial, s', hkept⟩
  · rw [loadSnapshot, hnone] at hs
    cases hs
  · exact .inr ⟨row, initial, s', hkept.congr rfl rfl (hhands.outbox _ _ hkept.outbox)⟩

theorem Good.applyEvent {expectedRevision : UInt64} {eventId : Digest32} {event : RouteEventV1}
    {outcome : CommitOutcomeV1} (h : Good H lease.routeId rows)
    (hrun : applyEvent H lease expectedRevision eventId event now rows = .ok (outcome, rows')) :
    Good H lease.routeId rows' := by
  simp only [Route.applyEvent, coded, inversion] at hrun
  obtain ⟨-, eventBytes, hev, -, -, hrun⟩ := hrun
  rcases h with ⟨hnone, hjour, -⟩ | ⟨row, initial, s, hkept⟩
  · -- without a snapshot there is no event to answer and none to reduce
    rw [hjour, List.find?_nil] at hrun
    obtain ⟨row, hrow, -⟩ := bind_eq_ok.mp hrun
    rw [hnone] at hrow
    cases hrow
  · split at hrun
    · exact .inr ⟨row, initial, s, hkept.duplicate hrun⟩
    · obtain ⟨row', s', hkept'⟩ := hkept.commit hev hrun
      exact .inr ⟨row', initial, s', hkept'⟩

theorem acquireLease_frame {ownerId : Digest32} {duration : UInt64} {outcome : LeaseAcquireOutcomeV1}
    (h : acquireLease routeId ownerId now duration rows = .ok (outcome, rows')) :
    rows' = { rows with lease := rows'.lease } := by
  simp only [acquireLease, inversion] at h
  obtain ⟨-, _, -, -, -, -, h⟩ := h
  split at h
  · cases h
    rfl
  · split at h
    · simp only [inversion, Prod.mk.injEq] at h
      obtain ⟨-, -, rfl⟩ := h
      rfl
    · simp only [inversion, Prod.mk.injEq] at h
      obtain ⟨_, -, -, -, rfl⟩ := h
      rfl

theorem completeTimer_frame {timerId timerHash : Digest32} {outcome : CompletionOutcomeV1}
    (h : completeTimer lease timerId timerHash now rows = .ok (outcome, rows')) :
    rows' = { rows with timers := rows'.timers } := by
  simp only [completeTimer, inversion] at h
  obtain ⟨-, -, -, -, _, -, -, h⟩ := h
  split at h
  · cases h
    rfl
  · simp only [inversion, Prod.mk.injEq] at h
    obtain ⟨-, _, -, -, rfl⟩ := h
    rfl

theorem good_run {call : StoreCall} (h : Good H call.routeId rows) (hrun : call.run H rows = .ok (works, rows')) :
    Good H call.routeId rows' ∧
      (works = [] ∨ ∃ lease, lease.routeId = call.routeId ∧ Claimed H lease call.now rows rows' works) := by
  cases call <;> simp only [StoreCall.run, inversion, Prod.mk.injEq] at hrun <;>
    obtain ⟨⟨_, _⟩, hrun, rfl, rfl⟩ := hrun
  case CreateRoute => exact ⟨h.create hrun, .inl rfl⟩
  case AcquireLease =>
    rw [acquireLease_frame hrun]
    exact ⟨h.congr rfl rfl rfl, .inl rfl⟩
  case RenewLease =>
    simp only [renewLease, inversion, Prod.mk.injEq] at hrun
    obtain ⟨_, -, -, -, -, -, rfl⟩ := hrun
    exact ⟨h.congr rfl rfl rfl, .inl rfl⟩
  case ApplyEvent => exact ⟨h.applyEvent hrun, .inl rfl⟩
  case ClaimNextEffect =>
    have hcld := claimed_claimNextEffect hrun
    exact ⟨h.claimed hcld, .inr ⟨_, rfl, hcld⟩⟩
  case ClaimEffects =>
    have hcld := claimed_claimClass (fun _ _ _ _ hdsc _ => isWork_runnerClaim hdsc) hrun
    exact ⟨h.claimed hcld, .inr ⟨_, rfl, hcld⟩⟩
  case ClaimExternalCustodyEffects =>
    have hcld := claimed_claimClass (fun _ _ _ _ hdsc _ => isWork_custodyClaim hdsc) hrun
    exact ⟨h.claimed hcld, .inr ⟨_, rfl, hcld⟩⟩
  case ClaimExternalCustodyEffectById =>
    have hcld := claimed_claimExternalCustodyEffectById hrun
    exact ⟨h.claimed hcld, .inr ⟨_, rfl, hcld⟩⟩
  case ClaimDueTimers =>
    simp only [claimDueTimers, inversion, Prod.mk.injEq] at hrun
    obtain ⟨-, -, _, -, -, -, _, -, -, rfl⟩ := hrun
    exact ⟨h.congr rfl rfl rfl, .inl rfl⟩
  case CompleteTimer =>
    rw [completeTimer_frame hrun]
    exact ⟨h.congr rfl rfl rfl, .inl rfl⟩

/-- **Run lemma.**  The rows of every route tell one story in every store of a run. -/
theorem good_of_reachable {store : RouteStore} (h : StoreReachable H store) (routeId : Digest32) :
    Good H routeId (store routeId) := by
  revert routeId
  refine Reach.invariant (P := fun store => ∀ routeId, Good H routeId (store routeId)) ?_ ?_ h
  · rintro store rfl routeId
    exact .inl ⟨rfl, rfl, rfl⟩
  · intro store call hgood _ routeId
    cases hrun : call.run H (store call.routeId) with
    | error e => simpa only [RouteStore.call, hrun] using hgood routeId
    | ok result =>
      simp only [RouteStore.call, hrun]
      split
      · rename_i heq
        rw [heq]
        exact (good_run (hgood call.routeId) hrun).1
      · exact hgood routeId

/-- **The story of a route**: its pending rows are the effects of its committed actions, one for each, and its journal
replays to its snapshot. -/
structure Consistent (H : List UInt8 → Digest32) (routeId : Digest32) (rows : RouteRows) (s : RouteSnapshotV1) :
    Prop where
  stored : loadSnapshot H routeId rows = .ok s
  outbox : Matches H routeId (committedAt s) rows.outbox
  onePerAction : ∀ row ∈ rows.outbox, ∀ row' ∈ rows.outbox, row.status = .Pending → row'.status = .Pending →
    ∀ effect effect', RouteEffectV1.decodeCanonical H row.effectBytes = .ok effect →
      RouteEffectV1.decodeCanonical H row'.effectBytes = .ok effect' →
      effect.leg = effect'.leg → effect.kind = effect'.kind → row = row'
  replay : verifyReplay H routeId rows = .ok s

/-- **Handed-out work**: its action is committed to it, it is of the generation of the current lease, and its row was
pending and under no dispatch lease that had not run out. -/
structure HandedOut (rows : RouteRows) (s : RouteSnapshotV1) (now : UInt64) (work : ClaimedRouteWorkV1) : Prop where
  referenced : ∃ reference, (s.leg work.leg).action work.kind = .Committed reference ∧
    reference.effectId = work.effectId ∧ reference.fencingEpoch = work.fencingEpoch
  current : ∃ held, rows.lease = some held ∧ held.fencingEpoch = work.fencingEpoch ∧ now ≤ held.leaseUntilUnixMs
  free : ∃ row ∈ rows.outbox, row.effectId = work.effectId ∧ row.status = .Pending ∧
    ∀ dispatch, row.dispatchLease = some dispatch → dispatch.untilUnixMs < now

theorem Kept.consistent {row : SnapshotRow} {initial : RouteSnapshotV1} (h : Kept H routeId rows row initial s) :
    Consistent H routeId rows s := by
  refine ⟨h.load, h.outbox, ?_, h.verifyReplay⟩
  intro found hfnd found' hfnd' hpend hpend' effect effect' hdec hdec' hleg hkind
  obtain ⟨leg, kind, reference, effect₁, hslot, hcar⟩ := h.outbox.pending found hfnd hpend
  obtain ⟨leg', kind', reference', effect₂, hslot', hcar'⟩ := h.outbox.pending found' hfnd' hpend'
  obtain rfl := Except.ok.inj (hdec.symm.trans (RouteEffectV1.decode_encode hcar.bytes))
  obtain rfl := Except.ok.inj (hdec'.symm.trans (RouteEffectV1.decode_encode hcar'.bytes))
  obtain rfl : leg = leg' := hcar.isEffect.leg.symm.trans (hleg.trans hcar'.isEffect.leg)
  obtain rfl : kind = kind' := hcar.isEffect.kind.symm.trans (hkind.trans hcar'.isEffect.kind)
  exact h.outbox.one_per_slot hfnd hfnd' hslot hslot' hcar hcar'

theorem validateLease_eq_ok (h : validateLease rows lease now = .ok ()) :
    ∃ held, rows.lease = some held ∧ held.fencingEpoch = lease.fencingEpoch ∧ now ≤ held.leaseUntilUnixMs := by
  simp only [validateLease, inversion, not_or, Decidable.not_not] at h
  obtain ⟨-, -, -, held, hheld, ⟨-, hep⟩, hxpd, -⟩ := h
  exact ⟨held, hheld, hep, UInt64.not_lt.mp hxpd⟩

theorem Claimed.handedOut (h : Claimed H lease now rows rows' works) :
    ∃ s, loadSnapshot H lease.routeId rows = .ok s ∧ ∀ work ∈ works, HandedOut rows s now work := by
  obtain ⟨s, hs, selected, outbox', hsel, hfree, hhands, -⟩ := h.handed
  refine ⟨s, hs, fun work hwork => ?_⟩
  obtain ⟨row, hrow, effect, hopen, hdsp, hdscd⟩ := hhands.work work hwork
  obtain ⟨hid, hep⟩ := openRow_eq_ok hopen
  refine ⟨?_, ?_, row, hsel.subset hrow, ?_, (hfree row hrow).1, ?_⟩
  · rw [hdscd.leg, hdscd.kind, hdscd.effectId, hdscd.fencingEpoch]
    exact committed_of_dispatchable hdsp
  · rw [hdscd.fencingEpoch, hep]
    exact validateLease_eq_ok h.held
  · rw [hdscd.effectId, hid]
  · intro dispatch hdispatched
    have hrun := (hfree row hrow).2
    simpa [isFree, hdispatched] using hrun

theorem Claimed.once (h : Claimed H lease now rows rows' works) (hkeys : (rows.outbox.map (·.effectId)).Nodup) :
    (works.map (·.effectId)).Nodup := by
  obtain ⟨s, -, selected, outbox', hsel, -, hhands, -⟩ := h.handed
  obtain ⟨kept, hperm, hsublist⟩ := hsel
  have hkept : (kept.map (·.effectId)).Nodup := hkeys.sublist (hsublist.map _)
  exact ((hperm.map _).nodup hkept).sublist hhands.once

/-- **The store over whole runs.**  A route either was never created and has no rows, or its rows are consistent; and
whatever a call hands out is handed out once and rightly. -/
theorem store_consistent {store : RouteStore} (h : StoreReachable H store) (routeId : Digest32) :
    (((store routeId).snapshot = none ∧ (store routeId).journal = [] ∧ (store routeId).outbox = []) ∨
      ∃ s, Consistent H routeId (store routeId) s) ∧
    ∀ (call : StoreCall) (works : List ClaimedRouteWorkV1) (rows' : RouteRows),
      call.routeId = routeId → call.run H (store routeId) = .ok (works, rows') →
        (works.map (·.effectId)).Nodup ∧ ∀ work ∈ works, ∃ s, loadSnapshot H routeId (store routeId) = .ok s ∧
          HandedOut (store routeId) s call.now work := by
  have hgood := good_of_reachable h routeId
  constructor
  · rcases hgood with hnone | ⟨row, initial, s, hkept⟩
    · exact .inl hnone
    · exact .inr ⟨s, hkept.consistent⟩
  · rintro call works rows' rfl hrun
    rcases (good_run hgood hrun).2 with rfl | ⟨lease, hroute, hclaimed⟩
    · exact ⟨List.nodup_nil, nofun⟩
    · obtain ⟨s, hs, hhanded⟩ := hclaimed.handedOut
      rw [hroute] at hs
      refine ⟨?_, fun work hwork => ⟨s, hs, hhanded work hwork⟩⟩
      rcases hgood with ⟨hnone, -, -⟩ | ⟨row, initial, s', hkept⟩
      · rw [loadSnapshot, hnone] at hs
        cases hs
      · exact hclaimed.once hkept.outbox.keys

end Claims

namespace SmallRoute

def lease : RouteLeaseV1 := ⟨1, 2, 1, 1000⟩

/-- A route is created and leased, its terms are frozen, its refunds armed and the upstream funding committed. -/
def opening : List StoreCall :=
  [.CreateRoute 1 0, .AcquireLease 1 2 0 1000, .ApplyEvent lease 0 21 (freeze fresh) 1,
    .ApplyEvent lease 1 22 (arm fresh) 2, .ApplyEvent lease 2 23 (prepare .Upstream .Funding fresh) 3]

def storeAfter (calls : List StoreCall) : RouteStore := calls.foldl (RouteStore.call digest) fun _ => RouteRows.none

theorem storeReachable (calls : List StoreCall) : StoreReachable digest (storeAfter calls) := by
  have hfrom : ∀ (calls : List StoreCall) (store : RouteStore), StoreReachable digest store →
      StoreReachable digest (calls.foldl (RouteStore.call digest) store) := by
    intro calls
    induction calls with
    | nil => exact fun store hstore => hstore
    | cons call rest ih => exact fun store hstore => ih _ (.step hstore call trivial)
  exact hfrom calls _ (.start rfl)

def handed (store : RouteStore) (call : StoreCall) : Option Nat :=
  (call.run digest (store call.routeId)).toOption.map (·.1.length)

end SmallRoute

open SmallRoute in
/-- The committed funding is handed out, and not a second time while the first dispatch runs. -/
theorem funding_handed_out : handed (storeAfter opening) (.ClaimNextEffect lease 4 100) = some 1 ∧
      handed (storeAfter (opening ++ [.ClaimNextEffect lease 4 100])) (.ClaimNextEffect lease 5 100) = some 0 ∧
      (∃ s, Consistent digest 1 (storeAfter opening 1) s) := by
  refine ⟨by decide +kernel, by decide +kernel, ?_⟩
  have hcreated : (storeAfter opening 1).snapshot ≠ none := by decide +kernel
  rcases (store_consistent (storeReachable opening) 1).1 with hnone | hconsistent
  · exact absurd hnone.1 hcreated
  · exact hconsistent

end DomProtocol.Route
