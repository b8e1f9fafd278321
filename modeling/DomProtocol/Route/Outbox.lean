import DomProtocol.Route.Store

/-!
# `Route.Outbox` — the outbox and the committed actions

The pending rows of the outbox against the committed actions of the snapshot: a row for each committed action, and no
pending row besides.  Each statement that changes the outbox is shown to do to the rows what the event does to the
actions; the loop of a transaction composes them.
-/

namespace DomProtocol.Route

open Lib

variable {α : Type} {f : OutboxRow → OutboxRow} {sequence : UInt64} {effectId : Digest32} {event : RouteEventV1}

/-! ## Committed actions -/

def ActionStateV1.committed : ActionStateV1 → Option EffectReferenceV1
  | Committed reference => some reference
  | _ => none

/-- The committed references of a snapshot. -/
def committedAt (s : RouteSnapshotV1) : Slots (Option EffectReferenceV1) := fun leg kind =>
  ((s.leg leg).action kind).committed

variable {reference : EffectReferenceV1}

theorem committed_eq_some {a : ActionStateV1} :
    a.committed = some reference ↔ a = .Committed reference := by
  cases a <;> simp [ActionStateV1.committed]

theorem committedAt_setAction (s : RouteSnapshotV1) (leg : LegIdV1) (kind : ActionKindV1) (state : ActionStateV1) :
    committedAt (s.setAction leg kind state) = (committedAt s).set leg kind state.committed := by
  funext leg' kind'
  rw [committedAt, action_setAction, Slots.set]
  split <;> rfl

theorem committedAt_congr {s s' : RouteSnapshotV1} (h : ∀ leg, s'.leg leg = s.leg leg) : committedAt s' = committedAt s := by
  funext leg kind
  rw [committedAt, h]
  rfl

variable {leg : LegIdV1} {kind : ActionKindV1}

theorem Slots.set_same {slots : Slots α} {a : α} (h : slots leg kind = a) : slots.set leg kind a = slots := by
  funext leg' kind'
  unfold Slots.set
  split
  · rename_i heq
    rw [heq.1, heq.2, h]
  · rfl

/-! ## Rows and references -/

section Rows

variable (H : List UInt8 → Digest32) (routeId : Digest32)

/-- The row holds the effect of a reference, with its columns in order. -/
structure Carries (row : OutboxRow) (leg : LegIdV1) (kind : ActionKindV1) (reference : EffectReferenceV1)
    (effect : RouteEffectV1) : Prop where
  bytes : effect.encodeCanonical H = .ok row.effectBytes
  hash : row.effectHash = effectHashValue H row.effectBytes
  route : effect.routeId = routeId
  effectId : row.effectId = reference.effectId
  isEffect : IsEffectOf reference leg kind effect
  transaction : effect.dispatch.expectedTransactionId = reference.expectedTransactionId
  epoch : row.fencingEpoch = reference.fencingEpoch
  dispatchClass : row.dispatchClass = effect.dispatch.dispatchClass
  rank : row.priorityRank = priorityRank effect.priority

/-- **The outbox matches the committed actions.** -/
structure Matches (slots : Slots (Option EffectReferenceV1)) (outbox : List OutboxRow) : Prop where
  keys : (outbox.map (·.effectId)).Nodup
  pending : ∀ row ∈ outbox, row.status = .Pending →
    ∃ leg kind reference effect, slots leg kind = some reference ∧ Carries H routeId row leg kind reference effect
  committed : ∀ leg kind reference, slots leg kind = some reference →
    ∃ row ∈ outbox, row.status = .Pending ∧ ∃ effect, Carries H routeId row leg kind reference effect

variable {H routeId} {slots : Slots (Option EffectReferenceV1)} {outbox outbox' : List OutboxRow}

theorem matches_empty : Matches H routeId (fun _ _ => none) [] :=
  ⟨List.nodup_nil, fun _ hrow => (List.not_mem_nil hrow).elim, nofun⟩

variable {row row' : OutboxRow}

variable (h : Matches H routeId slots outbox)

include h in
theorem Matches.row_unique (hrow : row ∈ outbox) (hrow' : row' ∈ outbox) (hid : row.effectId = row'.effectId) : row = row' :=
  List.inj_on_of_nodup_map h.keys hrow hrow' hid

include h in
theorem Matches.row_of_id (hslot : slots leg kind = some reference) (hrow : row ∈ outbox)
    (hid : row.effectId = reference.effectId) :
    row.status = .Pending ∧ ∃ effect, Carries H routeId row leg kind reference effect := by
  obtain ⟨found, hfnd, hpend, effect, hcar⟩ := h.committed leg kind reference hslot
  obtain rfl := h.row_unique hrow hfnd (hid.trans hcar.effectId.symm)
  exact ⟨hpend, effect, hcar⟩

variable {reference' : EffectReferenceV1} {effect : RouteEffectV1}

include h in
theorem Matches.slot_unique {leg' : LegIdV1} {kind' : ActionKindV1} (hslot : slots leg kind = some reference)
    (hslot' : slots leg' kind' = some reference') (hid : reference.effectId = reference'.effectId) :
    leg' = leg ∧ kind' = kind := by
  obtain ⟨row, hrow, -, effect, hcar⟩ := h.committed leg kind reference hslot
  obtain ⟨-, effect', hcar'⟩ := h.row_of_id hslot' hrow (hcar.effectId.trans hid)
  have hdec := RouteEffectV1.decode_encode hcar.bytes
  rw [RouteEffectV1.decode_encode hcar'.bytes] at hdec
  obtain rfl := Except.ok.inj hdec
  exact ⟨hcar'.isEffect.leg.symm.trans hcar.isEffect.leg, hcar'.isEffect.kind.symm.trans hcar.isEffect.kind⟩

include h in
/-- **At most one pending row per leg and kind.** -/
theorem Matches.one_per_slot {effect' : RouteEffectV1} (hrow : row ∈ outbox) (hrow' : row' ∈ outbox)
    (hslot : slots leg kind = some reference) (hslot' : slots leg kind = some reference')
    (hcar : Carries H routeId row leg kind reference effect) (hcar' : Carries H routeId row' leg kind reference' effect') :
    row = row' := by
  obtain rfl : reference = reference' := Option.some.inj (hslot.symm.trans hslot')
  exact h.row_unique hrow hrow' (hcar.effectId.trans hcar'.effectId.symm)

/-! ## Statements on the outbox -/

variable {e : RouteStoreErrorV1}

theorem updateOne_eq_ok {wanted : α → Bool} {f : α → α} {rows rows' : List α} :
    updateOne wanted f e rows = .ok rows' ↔
      rows.countP wanted = 1 ∧ (rows.map fun row => if wanted row then f row else row) = rows' := by
  simp only [updateOne, inversion, Decidable.not_not]

/-- What the dispatch of an effect may change in its row. -/
structure SameEffect (row row' : OutboxRow) : Prop where
  effectId : row'.effectId = row.effectId
  fencingEpoch : row'.fencingEpoch = row.fencingEpoch
  priorityRank : row'.priorityRank = row.priorityRank
  dispatchClass : row'.dispatchClass = row.dispatchClass
  effectBytes : row'.effectBytes = row.effectBytes
  effectHash : row'.effectHash = row.effectHash
  status : row'.status = row.status

theorem SameEffect.carries (h : SameEffect row row') (hcar : Carries H routeId row leg kind reference effect) :
    Carries H routeId row' leg kind reference effect := by
  obtain ⟨hbyt, hhash, hrou, hid, heff, htx, hep, hcla, hrank⟩ := hcar
  refine ⟨?_, ?_, hrou, ?_, heff, htx, ?_, ?_, ?_⟩
  · rw [h.effectBytes, hbyt]
  · rw [h.effectHash, h.effectBytes, hhash]
  · rw [h.effectId, hid]
  · rw [h.fencingEpoch, hep]
  · rw [h.dispatchClass, hcla]
  · rw [h.priorityRank, hrank]

include h in
theorem Matches.redispatch (hf : ∀ row, SameEffect row (f row)) : Matches H routeId slots (outbox.map f) := by
  refine ⟨?_, ?_, ?_⟩
  · rw [List.map_map]
    have hsame : (fun row : OutboxRow => row.effectId) ∘ f = fun row => row.effectId := by
      funext row
      exact (hf row).effectId
    rw [hsame]
    exact h.keys
  · intro row' hrow' hpend
    obtain ⟨row, hrow, rfl⟩ := List.mem_map.mp hrow'
    rw [(hf row).status] at hpend
    obtain ⟨leg, kind, reference, effect, hslot, hcar⟩ := h.pending row hrow hpend
    exact ⟨leg, kind, reference, effect, hslot, (hf row).carries hcar⟩
  · intro leg kind reference hslot
    obtain ⟨row, hrow, hpend, effect, hcar⟩ := h.committed leg kind reference hslot
    exact ⟨f row, List.mem_map_of_mem hrow, by rw [(hf row).status, hpend], effect, (hf row).carries hcar⟩

include h in
theorem Matches.update {wanted : OutboxRow → Bool} (hf : ∀ row, SameEffect row (f row))
    (hupt : updateOne wanted f e outbox = .ok outbox') :
    Matches H routeId slots outbox' := by
  obtain ⟨-, rfl⟩ := updateOne_eq_ok.mp hupt
  refine h.redispatch fun row => ?_
  split
  · exact hf row
  · exact ⟨rfl, rfl, rfl, rfl, rfl, rfl, rfl⟩

variable {leg : LegIdV1} {kind : ActionKindV1} {reference : EffectReferenceV1}

include h in
theorem Matches.insert (hslot : slots leg kind = none) (hrou : effect.routeId = routeId)
    (heff : IsEffectOf reference leg kind effect)
    (htx : effect.dispatch.expectedTransactionId = reference.expectedTransactionId)
    (hinst : insertEffect H sequence outbox effect = .ok outbox') :
    Matches H routeId (slots.set leg kind (some reference)) outbox' := by
  simp only [insertEffect, coded, inversion, List.any_eq_true, decide_eq_true_eq, not_exists, not_and] at hinst
  obtain ⟨bytes, hbyt, -, -, hnew, rfl⟩ := hinst
  have hcar : Carries H routeId (effectRow H sequence effect bytes) leg kind reference effect :=
    ⟨hbyt, rfl, hrou, heff.effectId, heff, htx, heff.fencingEpoch, rfl, rfl⟩
  refine ⟨?_, ?_, ?_⟩
  · rw [List.map_append, List.nodup_append]
    refine ⟨h.keys, List.nodup_singleton _, ?_⟩
    rintro id hid _ hmem rfl
    obtain ⟨row, hrow, rfl⟩ := List.mem_map.mp hid
    exact hnew row hrow (List.mem_singleton.mp hmem)
  · intro row hrow hpend
    rcases List.mem_append.mp hrow with hold | hlast
    · obtain ⟨leg', kind', reference', effect', hslot', hcar'⟩ := h.pending row hold hpend
      refine ⟨leg', kind', reference', effect', ?_, hcar'⟩
      rw [Slots.set, if_neg, hslot']
      rintro ⟨rfl, rfl⟩
      rw [hslot] at hslot'
      cases hslot'
    · obtain rfl := List.mem_singleton.mp hlast
      exact ⟨leg, kind, reference, effect, if_pos ⟨rfl, rfl⟩, hcar⟩
  · intro leg' kind' reference' hslot'
    by_cases heq : leg' = leg ∧ kind' = kind
    · obtain ⟨rfl, rfl⟩ := heq
      rw [Slots.set, if_pos ⟨rfl, rfl⟩] at hslot'
      cases hslot'
      exact ⟨_, List.mem_append_right _ (List.mem_singleton_self _), rfl, effect, hcar⟩
    · rw [Slots.set, if_neg heq] at hslot'
      obtain ⟨row, hrow, hpend, effect', hcar'⟩ := h.committed leg' kind' reference' hslot'
      exact ⟨row, List.mem_append_left _ hrow, hpend, effect', hcar'⟩

include h in
theorem Matches.close {status : RowStatus} (hslot : slots leg kind = some reference)
    (hcls : closeEffect reference.effectId status e outbox = .ok outbox') (hstat : status ≠ .Pending) :
    Matches H routeId (slots.set leg kind none) outbox' := by
  obtain ⟨-, rfl⟩ := updateOne_eq_ok.mp hcls
  -- the other rows stay as they are
  have hrest (row : OutboxRow) (hrow : row.effectId ≠ reference.effectId) :
      (if decide (row.effectId = reference.effectId ∧ row.status = .Pending) = true then OutboxRow.finish status row
        else row) = row := if_neg fun hwanted => hrow (of_decide_eq_true hwanted).1
  refine ⟨?_, ?_, ?_⟩
  · have hsame : ((fun row : OutboxRow => row.effectId) ∘ fun row =>
        if decide (row.effectId = reference.effectId ∧ row.status = .Pending) = true then OutboxRow.finish status row
        else row) = fun row => row.effectId := by
      funext row
      dsimp only [Function.comp_apply]
      split <;> rfl
    rw [List.map_map, hsame]
    exact h.keys
  · intro row' hrow' hpend
    obtain ⟨row, hrow, rfl⟩ := List.mem_map.mp hrow'
    by_cases hwanted : row.effectId = reference.effectId ∧ row.status = .Pending
    · rw [if_pos (decide_eq_true hwanted)] at hpend
      exact absurd hpend hstat
    · rw [if_neg fun h => hwanted (of_decide_eq_true h)] at hpend ⊢
      obtain ⟨leg', kind', reference', effect', hslot', hcar'⟩ := h.pending row hrow hpend
      refine ⟨leg', kind', reference', effect', ?_, hcar'⟩
      rw [Slots.set, if_neg, hslot']
      rintro ⟨rfl, rfl⟩
      rw [hslot] at hslot'
      cases hslot'
      exact hwanted ⟨hcar'.effectId, hpend⟩
  · intro leg' kind' reference' hslot'
    have heq : ¬ (leg' = leg ∧ kind' = kind) := by
      intro heq
      rw [Slots.set, if_pos heq] at hslot'
      cases hslot'
    rw [Slots.set, if_neg heq] at hslot'
    obtain ⟨row, hrow, hpend, effect', hcar'⟩ := h.committed leg' kind' reference' hslot'
    have hoth : row.effectId ≠ reference.effectId := fun hid =>
      heq (h.slot_unique hslot hslot' (hid.symm.trans hcar'.effectId))
    refine ⟨row, ?_, hpend, effect', hcar'⟩
    exact List.mem_map.mpr ⟨row, hrow, hrest row hoth⟩

/-! ## The outbox over an event -/

variable {now : UInt64}

variable {lease : RouteLeaseV1}

include h in
theorem Matches.externalize {transactionId : Digest32} (hslot : slots leg kind = some reference)
    (hid : effectId = reference.effectId)
    (hrcn : reconcileExternalizedEffect H lease.routeId effectId transactionId outbox = .ok outbox') :
    Matches H routeId (slots.set leg kind none) outbox' := by
  subst hid
  simp only [reconcileExternalizedEffect, inversion] at hrcn
  obtain ⟨row, hfind, _, -, -, -, hrcn⟩ := hrcn
  have hfnd : row.effectId = reference.effectId := by simpa using List.find?_some hfind
  have hpend : row.status = .Pending := (h.row_of_id hslot (List.mem_of_find?_eq_some hfind) hfnd).1
  rw [hpend] at hrcn
  have hcls : closeEffect reference.effectId .Completed .CorruptState outbox = .ok outbox' := hrcn
  exact h.close hslot hcls (by simp)

include h in
theorem Matches.progress (hrcn : reconcilePartialCustodyProgress H lease effectId now outbox = .ok outbox') :
    Matches H routeId slots outbox' := by
  simp only [reconcilePartialCustodyProgress, inversion] at hrcn
  obtain ⟨_, -, -, _, -, -, -, hupt⟩ := hrcn
  refine h.update ?_ hupt
  exact fun row => ⟨rfl, rfl, rfl, rfl, rfl, rfl, rfl⟩

theorem reconcileReport_of_not_report (hev : isReport event = false)
    (h : reconcileReport H lease event now outbox = .ok outbox') : outbox' = outbox := by
  cases event with
  | CustodyProgressRecorded | ActionExternalized => cases hev
  | _ => exact (Except.ok.inj h).symm

theorem routeEffect_isEffectOf (H : List UInt8 → Digest32) (s : RouteSnapshotV1) (eventId : Digest32)
    (intent : ActionIntentV1) (epoch : UInt64) :
    IsEffectOf (effectReference H s eventId intent epoch) intent.leg intent.kind (routeEffect H s eventId intent epoch) :=
  ⟨rfl, rfl, rfl, rfl, rfl, rfl⟩

/-- **The outbox after an event** matches the actions after it. -/
theorem Matches.step {s : RouteSnapshotV1} {eventId : Digest32} {d : RouteDecisionV1}
    {epoch : UInt64} {superseded inserted : List OutboxRow} (h : Matches H routeId (committedAt s) outbox)
    (hrou : s.routeId = routeId) (hd : reduceRoute H s eventId event epoch = .ok d)
    (hsup : d.supersededEffects.foldlM (supersedeEffect H routeId d.effects now) outbox = .ok superseded)
    (hinst : d.effects.foldlM (insertEffect H sequence) superseded = .ok inserted)
    (hrep : reconcileReport H lease event now inserted = .ok outbox') :
    Matches H routeId (committedAt d.snapshot) outbox' := by
  obtain ⟨-, -, draft, revision, hrule, -, rfl⟩ := accepted hd
  have hslots : committedAt (advance draft.snapshot revision revision (digestOf H event)) = committedAt draft.snapshot :=
    committedAt_congr (leg_advance _ _ _ _)
  show Matches H routeId (committedAt (advance draft.snapshot revision revision (digestOf H event))) outbox'
  rw [hslots]
  -- an event without effects that leaves the committed actions alone
  have hqt (hnone : draft.supersededEffects = [] ∧ draft.effects = []) (hev : isReport event = false)
      (hsame : committedAt draft.snapshot = committedAt s) : Matches H routeId (committedAt draft.snapshot) outbox' := by
    dsimp only at hsup hinst
    rw [hnone.1] at hsup
    rw [hnone.2] at hinst
    cases hsup
    cases hinst
    rw [reconcileReport_of_not_report hev hrep, hsame]
    exact h
  cases hrule with
  | terms bindings refunds _ _ _ hev => exact hqt ⟨rfl, rfl⟩ hev (committedAt_congr fun leg => by cases leg <;> rfl)
  | timer timers hev => exact hqt ⟨rfl, rfl⟩ hev rfl
  | observe exposure => exact hqt ⟨rfl, rfl⟩ rfl (committedAt_congr fun leg => leg_exposed _ leg)
  | health | abort => exact hqt ⟨rfl, rfl⟩ rfl (committedAt_congr fun leg => by cases leg <;> rfl)
  | finalize leg kind effect transactionId evidence hout =>
    refine hqt ⟨rfl, rfl⟩ rfl ?_
    rw [onlySnapshot, committedAt_setAction]
    refine Slots.set_same ?_
    rcases finalizable_eq_ok.mp hout with hstate | ⟨prior, reorg, hstate⟩ <;> rw [committedAt, hstate] <;> rfl
  | invalidate leg kind transactionId reorg state hfin =>
    obtain ⟨effect, evidence, hstate, rfl⟩ := invalidated_eq_ok.mp hfin
    refine hqt ⟨rfl, rfl⟩ rfl ?_
    have hslots : committedAt (s.setAction leg kind (.FinalityInvalidated effect transactionId evidence reorg)) =
        committedAt s := by
      rw [committedAt_setAction]
      refine Slots.set_same ?_
      rw [committedAt, hstate]
      rfl
    rw [← hslots]
    exact committedAt_congr fun leg' => by cases leg' <;> rfl
  | progress leg kind reference evidence exposure hcom =>
    cases hsup
    cases hinst
    rw [onlySnapshot, committedAt_congr fun leg => leg_exposed _ leg]
    exact h.progress hrep
  | externalize leg kind reference transactionId exposure hcom =>
    cases hsup
    cases hinst
    rw [onlySnapshot, committedAt_setAction, committedAt_congr fun leg => leg_exposed _ leg]
    exact h.externalize (committed_eq_some.mpr hcom) rfl hrep
  | commit intent habt hpre =>
    cases hsup
    rw [reconcileReport_of_not_report rfl hrep]
    have hinst : insertEffect H sequence outbox (routeEffect H s eventId intent epoch) = .ok inserted := by
      simpa [authorize] using hinst
    have hslot : committedAt s intent.leg intent.kind = none := by
      rw [committedAt, ActionStateV1.progress_eq_notPrepared.mp (refundsArmed_of_preconditions hpre).2]
      rfl
    rw [authorize, committedAt_setAction]
    exact h.insert hslot hrou (routeEffect_isEffectOf ..) rfl hinst
  | reauthorize intent prior hcom hep _ _ _ _ hev =>
    have hnotReport : isReport event = false := by
      rcases hev with ⟨evidence, rfl⟩ | ⟨evidence, rfl⟩ <;> rfl
    rw [reconcileReport_of_not_report hnotReport hrep]
    have hinst : insertEffect H sequence superseded (routeEffect H s eventId intent epoch) = .ok inserted := by
      simpa [authorize] using hinst
    have hsup : supersedeEffect H routeId [routeEffect H s eventId intent epoch] now outbox prior.effectId =
        .ok superseded := by
      simpa [authorize] using hsup
    simp only [supersedeEffect, inversion] at hsup
    obtain ⟨_, -, -, -, _, -, -, _, -, -, hcls⟩ := hsup
    -- the row of the prior effect is closed, then the row of the new one inserted
    have hclsd := h.close (committed_eq_some.mpr hcom) hcls (by simp)
    have hinsd := hclsd.insert (if_pos ⟨rfl, rfl⟩) hrou (routeEffect_isEffectOf H s eventId intent epoch) rfl
      hinst
    rw [authorize, committedAt_setAction, ← Slots.set_set]
    exact hinsd

end Rows

end DomProtocol.Route
