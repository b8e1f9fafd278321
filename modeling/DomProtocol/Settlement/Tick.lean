import Mathlib.Data.Nat.ModEq
import DomProtocol.Settlement.Cursor

/-!
# `Settlement.Tick` — the promise of the cursor along runs

Between two calls of an engine every canonical observation up to its scan position is recorded or is a refund it
holds, and every one up to the durable cursor is recorded.  Each call keeps this when it meets its condition; a
crash keeps the durable half, from which recovery rebuilds the other.
-/

namespace DomProtocol

open Lib

variable {env : EventEnvelopeV1} {o₀ : Observation} {scanCursor : ChainCursorV1} {α : Type} {record : ChainRecordV1}
  {index : Nat} {memory : EngineMemory} {db : SettlementDb} {effect : ClaimedEffectV1}
  {sink : ClaimedEffectV1 → EffectOutcome} {envelopes : List EventEnvelopeV1} {w : World}

section Tick

variable (below : List UInt8 → Digest32 → Bool) (H : List UInt8 → Digest32) (cfg : EngineConfig) (v : ChainView)

/-- **The invariant of an engine** between two of its calls. -/
structure Safe (s : EngineState) (rows : SettlementRows) : Prop where
  stands : Stands H cfg (SoundRows below H cfg v) s.db rows
  buffer : ∀ env ∈ s.memory.parked, Buffered H cfg env
  covered : ∀ o, Due below v s.memory.scanCursor.bytes o → Held H cfg rows s.memory.pendingRefunds o

def DurablySafe (db : SettlementDb) : Prop := ∃ rows, Stands H cfg (SoundRows below H cfg v) db rows

/-- The records of a scan that are still to be consumed: a possible reorg at the head, and observations among which
    is every one up to the end of the scan that is not held yet. -/
def Remaining (scanCursor scannedTo : ChainCursorV1) (rows : SettlementRows) (pendingRefunds : List EvidenceRefV1)
    (records : List ChainRecordV1) : Prop :=
  ∃ rest : List Observation, (∀ o, Due below v scannedTo.bytes o → o ∈ rest ∨ Held H cfg rows pendingRefunds o) ∧
    (records = rest.map Observation.record ∨
      ∃ fromHeight oldAnchor, records = .Reorg fromHeight oldAnchor :: rest.map Observation.record ∧
        FirstInvalidated below v scanCursor fromHeight ∧
        ∀ o, Due below v scannedTo.bytes o → o ∈ rest ∨ Due below v scanCursor.bytes o)

variable {below H cfg v} {s s' : EngineState} {rows rows' : SettlementRows} {src : ChainSourceV1}

theorem stable_soundRows : Stable (SoundRows below H cfg v) := by
  intro rows rows' hgrw hcursors hsnd stored hsto o hdue
  rw [hcursors] at hsto
  exact (hsnd stored hsto o hdue).grows hgrw

variable {pendingRefunds : List EvidenceRefV1} {o : Observation}

theorem Held.grows (h : Held H cfg rows pendingRefunds o) (hgrw : Grows rows rows') :
    Held H cfg rows' pendingRefunds o := by
  rcases h with hrecd | hpend
  · exact .inl (hrecd.grows hgrw)
  · exact .inr hpend

theorem Safe.kept (h : Safe below H cfg v s rows) (hkept : RowsKept H cfg (SoundRows below H cfg v) s rows s' rows') :
    Safe below H cfg v s' rows' := by
  refine ⟨hkept.stands, hkept.buffer, ?_⟩
  intro o hdue
  rw [hkept.scan] at hdue
  rw [hkept.pending]
  exact (h.covered o hdue).grows hkept.grows

theorem soundRows_of_ingested (hsnd : SoundRows below H cfg v rows)
    (h : Ingested H cfg.settlementId rows env none rows') : SoundRows below H cfg v rows' :=
  stable_soundRows rows rows' h.grows h.cursors_kept hsnd

/-! ## The cursor a commit carries -/

theorem foldl_min_le (pendingRefunds : List EvidenceRefV1) (lowest : UInt64) :
    pendingRefunds.foldl (fun lowest ev => min lowest ev.blockHeight) lowest ≤ lowest ∧
      ∀ ev ∈ pendingRefunds, pendingRefunds.foldl (fun lowest ev => min lowest ev.blockHeight) lowest ≤
        ev.blockHeight := by
  induction pendingRefunds generalizing lowest with
  | nil => exact ⟨UInt64.le_refl _, by simp⟩
  | cons first rest ih =>
    obtain ⟨hinit, hall⟩ := ih (min lowest first.blockHeight)
    refine ⟨UInt64.le_trans hinit Std.min_le_left, ?_⟩
    intro ev hev
    rcases List.mem_cons.mp hev with rfl | hev
    · exact UInt64.le_trans hinit Std.min_le_right
    · exact hall ev hev

variable {scannedTo : ChainCursorV1} (hsrc : Honest below v src) (honc : OnChain below v scannedTo)
  (hsafe : Safe below H cfg v s rows)

include hsrc honc in
/-- **A safe cursor** lies within the scan and below every waiting refund, except those at the greatest height. -/
theorem safeCursor_below {c : ChainCursorV1} (h : safeCursor src pendingRefunds scannedTo = .ok (some c)) (hdue : Due below v c.bytes o) :
    Due below v scannedTo.bytes o ∧
      ∀ ev ∈ pendingRefunds, ev.blockHeight ≤ o.height → 2 ^ 64 - 1 ≤ ev.blockHeight.toNat := by
  obtain ⟨-, hlws⟩ := foldl_min_le pendingRefunds (UInt64.ofNat (2 ^ 64 - 1))
  unfold safeCursor at h
  generalize pendingRefunds.foldl (fun lowest ev => min lowest ev.blockHeight) (UInt64.ofNat (2 ^ 64 - 1)) = lowest
    at h hlws
  dsimp only at h
  split at h
  · rename_i hmax
    cases h
    refine ⟨hdue, ?_⟩
    intro ev hev _
    have := UInt64.le_iff_toNat_le.mp (hlws ev hev)
    rw [hmax] at this
    exact this
  · split at h
    · cases h
    · rename_i hzero
      -- from here on the cursor is at most one below the lowest refund
      have hbel : ∀ height : UInt64, height ≤ lowest - 1 → o.height ≤ height →
          ∀ ev ∈ pendingRefunds, ev.blockHeight ≤ o.height → 2 ^ 64 - 1 ≤ ev.blockHeight.toNat := by
        intro height hceiling hht ev hev hle
        exfalso
        have hne : lowest.toNat ≠ 0 := fun h => hzero (UInt64.toNat_inj.mp h)
        have hpos : 1 ≤ lowest := UInt64.le_iff_toNat_le.mpr (Nat.one_le_iff_ne_zero.mpr hne)
        have h₁ := UInt64.le_iff_toNat_le.mp hceiling
        rw [UInt64.toNat_sub_of_le _ _ hpos] at h₁
        have h₂ := UInt64.le_iff_toNat_le.mp hht
        have h₃ := UInt64.le_iff_toNat_le.mp hle
        have h₄ := UInt64.le_iff_toNat_le.mp (hlws ev hev)
        have h₅ : (1 : UInt64).toNat = 1 := rfl
        omega
      split at h
      · rename_i hle
        cases h
        exact ⟨hdue, hbel _ hle ((honc o).mp hdue).2⟩
      · rename_i hgt
        obtain ⟨c', hc', heq⟩ := map_eq_ok.mp h
        cases heq
        obtain ⟨honc', hht⟩ := hsrc.cursorAt _ _ hc'
        obtain ⟨hmem, hle⟩ := (honc' o).mp hdue
        rw [hht] at hle
        refine ⟨(honc o).mpr ⟨hmem, ?_⟩, hbel _ (UInt64.le_refl _) hle⟩
        exact UInt64.le_trans hle (UInt64.le_of_lt (UInt64.not_le.mp hgt))

variable {later : List ChainRecordV1}

include hsrc honc hsafe in
/-- The commit that carries a cursor leaves the promise true: everything up to the cursor is the observation it
    commits, is recorded already, or is an awaited refund and so not below the cursor. -/
theorem soundRows_of_carried {cursor : Option ChainCursorV1}
    (hscd : ∀ o, Due below v scannedTo.bytes o →
      o = o₀ ∨ AwaitedRefund s.memory.pendingRefunds later o ∨ Recorded H cfg.settlementId rows o.event)
    (hclr : Commits rows (envelopeFor H cfg o₀.event) →
      ∀ o, AwaitedRefund s.memory.pendingRefunds later o → Due below v scannedTo.bytes o →
        ¬ Recorded H cfg.settlementId rows o.event →
          ∃ ev ∈ s.memory.pendingRefunds, ev.blockHeight ≤ o.height ∧ ev.blockHeight.toNat < 2 ^ 64 - 1)
    (hcrs : safeCursor src s.memory.pendingRefunds scannedTo = .ok cursor)
    (hing : Ingested H cfg.settlementId rows (envelopeFor H cfg o₀.event) (cursor.map (cursorUpdate cfg)) rows') :
    SoundRows below H cfg v rows' := by
  intro stored hsto o hdue
  rcases hing.cursors cfg.chainId with hsame | ⟨c, stored', hc, hsto', hbyt, hcommits, hjour⟩
  · rw [hsame] at hsto
    exact (hsafe.stands.holds stored hsto o hdue).grows hing.grows
  · obtain ⟨carried, rfl, rfl⟩ := Option.map_eq_some_iff.mp hc
    obtain rfl : stored' = stored := Option.some.inj (hsto'.symm.trans hsto)
    rw [hbyt] at hdue
    obtain ⟨hscan, hpend⟩ := safeCursor_below hsrc honc hcrs hdue
    rcases hscd o hscan with rfl | hawaited | hrecd
    · exact .inl hjour
    · by_contra hnot
      obtain ⟨ev, hev, hle, hlt⟩ := hclr hcommits o hawaited hscan fun h => hnot (h.grows hing.grows)
      exact absurd (hpend ev hev hle) (Nat.not_le.mpr hlt)
    · exact hrecd.grows hing.grows

/-! ## Consuming one record -/

theorem record_isRefund (h : o.record.isRefund = true) : o.kind = .refund := by
  obtain ⟨kind, evidence⟩ := o
  cases kind with
  | refund => rfl
  | funding | claim => cases h

theorem Remaining.tail (o₀ : Observation) {pendingRefunds' : List EvidenceRefV1}
    (h : Remaining below H cfg v scanCursor scannedTo rows pendingRefunds (o₀.record :: later))
    (hkeep : ∀ o, Held H cfg rows pendingRefunds o → Held H cfg rows' pendingRefunds' o)
    (hheld : Held H cfg rows' pendingRefunds' o₀) :
    Remaining below H cfg v scanCursor scannedTo rows' pendingRefunds' later := by
  obtain ⟨rest, hrest, hrecs | ⟨fromHeight, oldAnchor, hrecs, -⟩⟩ := h
  · cases rest with
    | nil => cases hrecs
    | cons first rest =>
      obtain ⟨hfst, rfl⟩ := List.cons.inj hrecs
      obtain rfl := Observation.record_injective hfst
      refine ⟨rest, ?_, .inl rfl⟩
      intro o hdue
      rcases hrest o hdue with hmem | hold
      · rcases List.mem_cons.mp hmem with rfl | hmem
        · exact .inr hheld
        · exact .inl hmem
      · exact .inr (hkeep o hold)
  · obtain ⟨kind, evidence⟩ := o₀
    cases kind <;> cases hrecs

/-- Before the last record that may carry the cursor is consumed, what the scan covers is that record, recorded, or
    an awaited refund. -/
theorem Remaining.awaited
    (h : Remaining below H cfg v scanCursor scannedTo rows pendingRefunds (o₀.record :: later))
    (hlat : ∀ record ∈ later, record.isRefund = true) : ∀ o, Due below v scannedTo.bytes o →
      o = o₀ ∨ AwaitedRefund pendingRefunds later o ∨ Recorded H cfg.settlementId rows o.event := by
  intro o hdue
  obtain ⟨rest, hrest, hrecs | ⟨fromHeight, oldAnchor, hrecs, -⟩⟩ := h
  · rcases hrest o hdue with hmem | hrecd | ⟨hkind, hpend⟩
    · have hrec : o.record ∈ o₀.record :: later := hrecs ▸ List.mem_map_of_mem hmem
      rcases List.mem_cons.mp hrec with hfst | hrec
      · exact .inl (Observation.record_injective hfst)
      · have hkind := record_isRefund (hlat _ hrec)
        refine .inr (.inl ⟨hkind, .inr ?_⟩)
        rwa [Observation.record, hkind] at hrec
    · exact .inr (.inr hrecd)
    · exact .inr (.inl ⟨hkind, .inl hpend⟩)
  · obtain ⟨kind, evidence⟩ := o₀
    cases kind <;> cases hrecs

variable {carries : Bool}

variable (below H cfg v scannedTo later) in
/-- A call that consumes one record and leaves the `later` ones. -/
def Consumes (m : EngineM Unit) (s : EngineState) : Prop :=
  m.Ensures s (fun s' => DurablySafe below H cfg v s'.db) fun r s' => ∃ rows', Safe below H cfg v s' rows' ∧
    (r = .ok () → Remaining below H cfg v s'.memory.scanCursor scannedTo rows' s'.memory.pendingRefunds later)

include hsrc honc hsafe in
/-- **A funding or claim**: once its ingest succeeds it is recorded, and the cursor its commit carries is sound. -/
theorem observe_ensures (o₀ : Observation)
    (hrem : Remaining below H cfg v s.memory.scanCursor scannedTo rows s.memory.pendingRefunds
      (o₀.record :: later)) (hlat : carries = true → ∀ record ∈ later, record.isRefund = true)
    (hclr : ObservationClear below H cfg v rows s.memory o₀.event later scannedTo carries) :
    Consumes below H cfg v scannedTo later (observe H cfg src scannedTo carries o₀.event) s := by
  have hoth : ∀ fromHeight oldAnchor, o₀.event ≠ .ReorgInvalidated fromHeight oldAnchor := by
    intro fromHeight oldAnchor h
    have := o₀.acceptedEvidence_event
    rw [h] at this
    cases this
  -- the ingest, whichever cursor it carries
  have hingest (cursor : Option ChainCursorV1) (hcrs : ∀ rows',
      Ingested H cfg.settlementId rows (envelopeFor H cfg o₀.event) (cursor.map (cursorUpdate cfg)) rows' →
        SoundRows below H cfg v rows') :
      Consumes below H cfg v scannedTo later
        (do let _ ← ingest H cfg o₀.event (cursor.map (cursorUpdate cfg))) s := by
    obtain ⟨hvis, hnone, rows₁, hkept, hrecd⟩ := ingest_ensures o₀.event stable_soundRows hsafe.stands hsafe.buffer
      (cursor.map (cursorUpdate cfg)) hcrs fun fromHeight oldAnchor h => absurd h (hoth fromHeight oldAnchor)
    refine .bind ⟨hvis, ?_, ?_⟩
    · intro result hres
      refine .pure ⟨rows₁, hsafe.kept hkept, fun _ => ?_⟩
      rw [hkept.scan, hkept.pending]
      cases result with
      | none => exact absurd hres hnone
      | some res =>
        exact hrem.tail o₀ (fun o hold => hold.grows hkept.grows) (.inl (hrecd res hres hclr.1))
    · intro e _
      exact ⟨rows₁, hsafe.kept hkept, nofun⟩
  unfold observe
  refine .bind (.query ⟨?_, nofun⟩)
  intro pendingRefunds hpend
  cases hpend
  cases carries with
  | false =>
    refine .bind (.pure ⟨?_, nofun⟩)
    intro cursor hcrs
    cases hcrs
    exact hingest none fun rows' => soundRows_of_ingested hsafe.stands.holds
  | true =>
    refine .bind (.query ⟨?_, ?_⟩)
    · intro cursor hcrs
      obtain hcrs : safeCursor src s.memory.pendingRefunds scannedTo = .ok cursor := mapError_eq_ok.mp hcrs
      exact hingest cursor fun _ => soundRows_of_carried hsrc honc hsafe (hrem.awaited (hlat rfl))
        (hclr.2 rfl) hcrs
    · intro e _
      exact ⟨rows, hsafe, nofun⟩

theorem storeCall_ensures {f : SettlementDb → Except StorePortError (α × SettlementDb)}
    {I : EngineState → Prop} {Q : Except SettlementEngineError α → EngineState → Prop}
    (hok : ∀ a db', f s.db = .ok (a, db') → I (s.setDb db') ∧ Q (.ok a) (s.setDb db'))
    (herr : ∀ e, f s.db = .error e → Q (.error (.Store e)) s) : (storeCall f).Ensures s I Q := by
  refine .zoom ?_
  unfold Durable.Ensures
  cases hf : f s.db with
  | error e =>
    rw [Durable.run_transact_error (by rw [hf]; rfl)]
    exact ⟨by simp, herr e hf⟩
  | ok p =>
    rw [Durable.run_transact_ok (by rw [hf]; rfl)]
    obtain ⟨hI, hQ⟩ := hok p.1 p.2 hf
    exact ⟨by simpa using hI, hQ⟩

/-- **A reorg**: what the scan position still shares with the chain is lower than the invalidated range, so it is
    held as before; the promise is kept by the condition on the call. -/
theorem reorg_ensures {fromHeight : UInt64} {oldAnchor : Digest32} (hsafe : Safe below H cfg v s rows)
    (hrem : Remaining below H cfg v s.memory.scanCursor scannedTo rows s.memory.pendingRefunds
      (.Reorg fromHeight oldAnchor :: later))
    (hclr : CallClear below H cfg v s (.record (.Reorg fromHeight oldAnchor) later scannedTo carries)) :
    Consumes below H cfg v scannedTo later
      (consumeRecord H cfg src scannedTo carries (.Reorg fromHeight oldAnchor)) s := by
  obtain ⟨rest, hlat, hfst, hrest⟩ : ∃ rest : List Observation, later = rest.map Observation.record ∧
      FirstInvalidated below v s.memory.scanCursor fromHeight ∧
      ∀ o, Due below v scannedTo.bytes o → o ∈ rest ∨ Due below v s.memory.scanCursor.bytes o := by
    obtain ⟨rest, -, hrecs | ⟨fromHeight', oldAnchor', hrecs, hfst, hrest⟩⟩ := hrem
    · cases rest with
      | nil => cases hrecs
      | cons first rest =>
        obtain ⟨kind, evidence⟩ := first
        cases kind <;> cases hrecs
    · cases hrecs
      exact ⟨rest, rfl, hfst, hrest⟩
  have hbel (o : Observation) (h : o.height < fromHeight) (reference : EvidenceRefV1)
      (href : acceptedEvidence o.event = some reference) : reference.blockHeight < fromHeight := by
    rw [o.acceptedEvidence_event] at href
    cases href
    exact h
  have hstd : Stands H cfg (SoundRows below H cfg v)
      (s.db.putRows cfg.settlementId (rows.invalidateFrom fromHeight)) (rows.invalidateFrom fromHeight) := by
    refine ⟨by rw [SettlementDb.settlements_putRows, if_pos rfl],
      evidenceOk_invalidateFrom hsafe.stands.ok fromHeight, ?_⟩
    intro stored hsto o hdue
    refine (hsafe.stands.holds stored hsto o hdue).invalidateFrom ?_
    rcases hclr rows stored hsafe.stands.found hsto o hdue with hjour | hlate | hlt
    · exact .inl hjour
    · exact .inr (.inl hlate)
    · exact .inr (.inr (hbel o hlt))
  refine .bind (storeCall_ensures ?_ ?_)
  · intro u db' hdb'
    obtain ⟨-, rfl⟩ := (SettlementDb.invalidateEvidenceFrom_eq_ok hsafe.stands.found).mp hdb'
    refine ⟨⟨_, hstd⟩, fun _ _ => ?_, nofun⟩
    refine .bind (.modify ⟨fun _ _ => ?_, nofun⟩)
    refine .bind (.modify ⟨fun _ _ => ?_, nofun⟩)
    -- the engine after the invalidation, before the reorg event itself is ingested
    have hsafe₁ : Safe below H cfg v (((s.setDb
        (s.db.putRows cfg.settlementId (rows.invalidateFrom fromHeight))).setPending
          (s.memory.pendingRefunds.filter (·.blockHeight < fromHeight))).setParked
            (dropFrom fromHeight s.memory.parked)) (rows.invalidateFrom fromHeight) := by
      refine ⟨hstd, ?_, ?_⟩
      · intro env henv
        exact hsafe.buffer env (List.mem_of_mem_filter henv)
      · intro o hdue
        have hlt := hfst o hdue
        rcases hsafe.covered o hdue with hrecd | ⟨hkind, hpend⟩
        · exact .inl (hrecd.invalidateFrom (.inr (.inr (hbel o hlt))))
        · exact .inr ⟨hkind, List.mem_filter.mpr ⟨hpend, decide_eq_true hlt⟩⟩
    obtain ⟨hvis, -, rows₁, hkept, -⟩ := ingest_ensures (.ReorgInvalidated fromHeight oldAnchor)
      stable_soundRows hsafe₁.stands hsafe₁.buffer none (fun _ => soundRows_of_ingested hstd.holds) (by
        intro fromHeight' oldAnchor' h a row hrow hpk
        cases h
        rw [rows.evidence_invalidateFrom] at hrow
        obtain ⟨old, -, rfl⟩ := Option.map_eq_some_iff.mp hrow
        split at hpk
        · cases hpk
        · rename_i hle
          rw [if_neg hle]
          exact UInt64.not_le.mp hle)
    have hsafe₂ := hsafe₁.kept hkept
    refine .bind ⟨hvis, fun _ _ => .pure ⟨rows₁, hsafe₂, fun _ => ?_⟩, fun e _ => ⟨rows₁, hsafe₂, nofun⟩⟩
    refine ⟨rest, ?_, .inl hlat⟩
    intro o hdue
    rcases hrest o hdue with hmem | hscan
    · exact .inl hmem
    · refine .inr (hsafe₂.covered o ?_)
      rw [hkept.scan]
      exact hscan
  · intro e _
    exact ⟨nofun, fun _ _ => ⟨rows, hsafe, nofun⟩⟩

include hsrc honc hsafe in
/-- **Consuming one record.** -/
theorem consumeRecord_ensures
    (hrem : Remaining below H cfg v s.memory.scanCursor scannedTo rows s.memory.pendingRefunds
      (record :: later)) (hlat : carries = true → ∀ r ∈ later, r.isRefund = true)
    (hclr : CallClear below H cfg v s (.record record later scannedTo carries)) :
    Consumes below H cfg v scannedTo later (consumeRecord H cfg src scannedTo carries record) s := by
  cases record with
  | Funding evidence =>
    exact observe_ensures hsrc honc hsafe ⟨.funding, evidence⟩ hrem hlat
      (hclr rows hsafe.stands.found)
  | Claim evidence =>
    exact observe_ensures hsrc honc hsafe ⟨.claim, evidence⟩ hrem hlat
      (hclr rows hsafe.stands.found)
  | Reorg fromHeight oldAnchor => exact reorg_ensures hsafe hrem hclr
  | Refund evidence =>
    -- a refund is held in memory until it is final
    have hkeep (pendingRefunds : List EvidenceRefV1) (hsub : s.memory.pendingRefunds ⊆ pendingRefunds)
        (o : Observation) (h : Held H cfg rows s.memory.pendingRefunds o) : Held H cfg rows pendingRefunds o := by
      rcases h with hrecd | ⟨hkind, hpend⟩
      · exact .inl hrecd
      · exact .inr ⟨hkind, hsub hpend⟩
    have hgoal (pendingRefunds : List EvidenceRefV1) (hsub : s.memory.pendingRefunds ⊆ pendingRefunds)
        (hmem : evidence ∈ pendingRefunds) :
        ∃ rows', Safe below H cfg v (s.setPending pendingRefunds) rows' ∧ ((.ok () : Except SettlementEngineError
          Unit) = .ok () → Remaining below H cfg v s.memory.scanCursor scannedTo rows' pendingRefunds later) := by
      refine ⟨rows, ⟨hsafe.stands, hsafe.buffer, fun o hdue => hkeep _ hsub o (hsafe.covered o hdue)⟩, fun _ => ?_⟩
      exact Remaining.tail ⟨.refund, evidence⟩ hrem (hkeep _ hsub) (.inr ⟨rfl, hmem⟩)
    refine .modify ?_
    by_cases hmem : evidence ∈ s.memory.pendingRefunds
    · rw [if_pos hmem]
      exact hgoal s.memory.pendingRefunds (List.Subset.refl _) hmem
    · rw [if_neg hmem]
      exact hgoal (s.memory.pendingRefunds ++ [evidence]) (List.subset_append_left _ _) (by simp)

/-! ## A whole tick -/

variable {records : List ChainRecordV1}

theorem isRefund_after_lastIngestible (records : List ChainRecordV1) :
    ∀ record ∈ records.drop ((lastIngestible records).elim 0 (· + 1)), record.isRefund = true := by
  induction records with
  | nil => simp
  | cons first rest ih =>
    unfold lastIngestible
    cases hrest : lastIngestible rest with
    | some i => simpa [hrest] using ih
    | none =>
      rw [hrest] at ih
      cases hfst : first.isRefund with
      | false => simpa [hfst] using ih
      | true => simpa [hfst] using ih

theorem isRefund_of_carries {pre later : List (ChainRecordV1 × Nat)}
    (hspl : records.zipIdx = pre ++ (record, index) :: later) (h : lastIngestible records = some index) :
    ∀ r ∈ later.map (·.1), r.isRefund = true := by
  obtain ⟨before, _, rfl, -, hrest⟩ := List.zipIdx_eq_append_iff.mp hspl
  obtain ⟨_, after, rfl, heq, rfl⟩ := List.zipIdx_eq_cons_iff.mp hrest.symm
  cases heq
  have hlater := isRefund_after_lastIngestible (before ++ record :: after)
  rw [h] at hlater
  simpa using hlater

theorem remaining_of_scanned (hsafe : Safe below H cfg v s rows)
    (h : Scanned below v s.memory.scanCursor records scannedTo) :
    Remaining below H cfg v s.memory.scanCursor scannedTo rows s.memory.pendingRefunds records := by
  cases h with
  | @forward rest _ hrest =>
    refine ⟨rest, ?_, .inl rfl⟩
    intro o hdue
    by_cases hscan : Due below v s.memory.scanCursor.bytes o
    · exact .inr (hsafe.covered o hscan)
    · exact .inl ((hrest.2 o).mpr ⟨hdue, hscan⟩)
  | @rewound fromHeight oldAnchor base _ rest hfst hback hrest =>
    have hcover (o : Observation) (hdue : Due below v scannedTo.bytes o) :
        o ∈ rest ∨ Due below v s.memory.scanCursor.bytes o := by
      by_cases hbase : Due below v base.bytes o
      · exact .inr (hback o hbase)
      · exact .inl ((hrest.2 o).mpr ⟨hdue, hbase⟩)
    refine ⟨rest, ?_, .inr ⟨fromHeight, oldAnchor, rfl, hfst, hcover⟩⟩
    intro o hdue
    rcases hcover o hdue with hmem | hscan
    · exact .inl hmem
    · exact .inr (hsafe.covered o hscan)

variable {tip : UInt64}

theorem nextPolicyEvent_ne_reorg {event : SettlementEvent}
    (h : nextPolicyEvent H cfg memory rows tip = some event) (fromHeight : UInt64) (oldAnchor : Digest32) :
    event ≠ .ReorgInvalidated fromHeight oldAnchor := by
  rintro rfl
  unfold nextPolicyEvent at h
  dsimp only at h
  split at h
  · cases h
  · simp only [Option.orElse_eq_or, Option.or_eq_some_iff] at h
    rcases h with h | ⟨-, h | ⟨-, h | ⟨-, h⟩⟩⟩
    · split at h
      · split at h
        · split at h
          · simp at h
          · cases h
        · cases h
      · cases h
    · split at h
      · simp at h
      · cases h
    · simp at h
    · split at h
      · cases h
      · cases h

/-- **One policy event.** -/
theorem applyPolicyOnce_ensures (hsafe : Safe below H cfg v s rows) (hclr : CallClear below H cfg v s (.policy tip)) :
    (applyPolicyOnce H cfg tip).Ensures s (fun s' => DurablySafe below H cfg v s'.db)
      fun _ s' => (∃ rows', Safe below H cfg v s' rows') ∧ s'.memory.scanCursor = s.memory.scanCursor := by
  unfold applyPolicyOnce snapshot
  refine .bind (.query ⟨?_, fun e _ => ⟨⟨rows, hsafe⟩, rfl⟩⟩)
  intro found hfnd
  obtain rfl : found = rows := by
    have := okOr_eq_ok.mp hfnd
    exact Option.some.inj (this.symm.trans hsafe.stands.found)
  refine .bind (.query ⟨?_, nofun⟩)
  intro memory hmm
  cases hmm
  cases hev : nextPolicyEvent H cfg s.memory found tip with
  | none => exact .pure ⟨⟨found, hsafe⟩, rfl⟩
  | some event =>
    obtain ⟨hvis, -, rows₁, hkept, hrecd⟩ := ingest_ensures event stable_soundRows hsafe.stands hsafe.buffer
      none (fun _ => soundRows_of_ingested hsafe.stands.holds)
      fun fromHeight oldAnchor h => absurd h (nextPolicyEvent_ne_reorg hev fromHeight oldAnchor)
    have hsafe₁ := hsafe.kept hkept
    refine .bind ⟨hvis, ?_, fun e _ => ⟨⟨rows₁, hsafe₁⟩, hkept.scan⟩⟩
    intro result hres
    cases result with
    | none => exact .pure ⟨⟨rows₁, hsafe₁⟩, hkept.scan⟩
    | some res =>
      refine .bind (.modify ⟨fun _ _ => .pure ⟨⟨rows₁, ?_⟩, ?_⟩, nofun⟩)
      · cases event with
        | RefundConfirmed evidence =>
          -- the refund leaves the memory of the engine, and is recorded
          refine ⟨hsafe₁.stands, hsafe₁.buffer, ?_⟩
          intro o hdue
          rcases hsafe₁.covered o hdue with hheld | ⟨hkind, hpend⟩
          · exact .inl hheld
          · by_cases hsame : o.evidence = evidence
            · have hnow := hrecd res hres (hclr found evidence hsafe.stands.found hev)
              refine .inl ?_
              rwa [Observation.event, hkind, hsame]
            · exact .inr ⟨hkind, List.mem_filter.mpr ⟨hpend, by simpa using hsame⟩⟩
        | _ => exact ⟨hsafe₁.stands, hsafe₁.buffer, hsafe₁.covered⟩
      · rw [← hkept.scan]
        cases event <;> rfl

theorem applyPolicy_ensures (events : Nat) (honc : OnChain below v s.memory.scanCursor)
    (hsafe : Safe below H cfg v s rows) :
    (applyPolicy H cfg tip events).Ensures (CallClear below H cfg v) (fun s' => DurablySafe below H cfg v s'.db)
      (fun _ s' => (∃ rows', Safe below H cfg v s' rows') ∧ OnChain below v s'.memory.scanCursor) s := by
  induction events generalizing s rows with
  | zero => exact .pure ⟨⟨rows, hsafe⟩, honc⟩
  | succ events ih =>
    refine .bind (.ofDurable fun hclr => (applyPolicyOnce_ensures hsafe hclr).mono ?_)
    rintro r s' ⟨⟨rows', hsafe'⟩, hscan⟩
    have honc' : OnChain below v s'.memory.scanCursor := hscan ▸ honc
    refine ⟨⟨rows', hsafe'.stands⟩, fun goOn _ => ?_, fun e _ => ⟨⟨rows', hsafe'⟩, honc'⟩⟩
    cases goOn with
    | true => exact ih honc' hsafe'
    | false => exact .pure ⟨⟨rows', hsafe'⟩, honc'⟩

theorem Safe.setDb (h : Safe below H cfg v s rows) (hdb : db.settlements = s.db.settlements) :
    Safe below H cfg v (s.setDb db) rows := by
  refine ⟨⟨?_, h.stands.ok, h.stands.holds⟩, h.buffer, h.covered⟩
  show db.settlements[cfg.settlementId]? = some rows
  rw [hdb]
  exact h.stands.found

theorem completeClaimed_ensures (hsafe : Safe below H cfg v s rows)
    (honc : OnChain below v s.memory.scanCursor) :
    (completeClaimed effect).Ensures s (fun s' => DurablySafe below H cfg v s'.db)
      fun _ s' => (∃ rows', Safe below H cfg v s' rows') ∧ OnChain below v s'.memory.scanCursor := by
  refine .bind (storeCall_ensures ?_ ?_)
  · intro u db' hdb'
    have hsafe' := hsafe.setDb (completeEffect_settlements hdb')
    refine ⟨⟨rows, hsafe'.stands⟩, fun _ _ => .modify ⟨⟨rows, ?_⟩, honc⟩, nofun⟩
    exact ⟨hsafe'.stands, hsafe'.buffer, hsafe'.covered⟩
  · intro e _
    exact ⟨nofun, fun _ _ => ⟨⟨rows, hsafe⟩, honc⟩⟩

/-- **One effect.**  A revalidation moves the scan position down the chain it is on. -/
theorem executeEffect_ensures
    (hsrc : Honest below v src) (hsafe : Safe below H cfg v s rows) (honc : OnChain below v s.memory.scanCursor) :
    (executeEffect src sink effect).Ensures s (fun s' => DurablySafe below H cfg v s'.db)
      fun _ s' => (∃ rows', Safe below H cfg v s' rows') ∧ OnChain below v s'.memory.scanCursor := by
  unfold executeEffect
  split
  · rename_i height hkind
    dsimp only
    generalize (if height = 0 then 0 else height - 1) = floor
    refine .bind (.query ⟨?_, nofun⟩)
    intro scanCursor hscan
    cases hscan
    split
    · rename_i hlt
      refine .bind (.query ⟨?_, ?_⟩)
      · intro rewound hrewound
        obtain ⟨honc', hht⟩ := hsrc.cursorAt _ _ (mapError_eq_ok.mp hrewound)
        refine .bind (.modify ⟨fun _ _ => completeClaimed_ensures ⟨hsafe.stands, hsafe.buffer, ?_⟩ honc', nofun⟩)
        intro o hdue
        obtain ⟨hmem, hle⟩ := (honc' o).mp hdue
        rw [hht] at hle
        exact hsafe.covered o ((honc o).mpr ⟨hmem, UInt64.le_trans hle (UInt64.le_of_lt hlt)⟩)
      · intro e _
        exact ⟨⟨rows, hsafe⟩, honc⟩
    · exact completeClaimed_ensures hsafe honc
  · split
    · exact completeClaimed_ensures hsafe honc
    · exact .pure ⟨⟨rows, hsafe⟩, honc⟩
    · exact .modify ⟨⟨rows, hsafe.stands, hsafe.buffer, hsafe.covered⟩, honc⟩

variable (below H cfg v) in
/-- A script that keeps the invariant as long as its calls meet their conditions; a crash finds the promise kept. -/
def KeepsSafe (script : EngineScript α) (s : EngineState) : Prop :=
  script.Ensures (CallClear below H cfg v) (fun s' => DurablySafe below H cfg v s'.db)
    (fun _ s' => ∃ rows', Safe below H cfg v s' rows') s

/-- **A tick** keeps the invariant, and a crash inside it finds the promise kept. -/
theorem tick_ensures {now : Int} (hsrc : Honest below v src) (hsafe : Safe below H cfg v s rows) :
    KeepsSafe below H cfg v (tick H cfg src sink now) s := by
  unfold tick housekeeping
  refine .bind (.ofDurable fun _ => .bind (.modify ⟨fun _ _ => ?_, nofun⟩))
  -- retrying the parked envelopes
  have hsafe₀ : Safe below H cfg v (s.setReport fun _ => {}) rows := ⟨hsafe.stands, hsafe.buffer, hsafe.covered⟩
  refine .mapError ((drainParked_ensures stable_soundRows hsafe₀.stands hsafe₀.buffer).mono ?_)
  rintro r s₁ ⟨-, rows₁, hkept₁⟩
  have hsafe₁ := hsafe₀.kept hkept₁
  refine ⟨⟨rows₁, hsafe₁.stands⟩, fun _ _ => ?_, fun e _ => ⟨rows₁, hsafe₁⟩⟩
  -- the scan
  refine .bind (.ofDurable fun _ => .bind (.query ⟨?_, nofun⟩))
  intro scanCursor hscn
  cases hscn
  refine .bind (.query ⟨?_, fun e _ => ⟨⟨rows₁, hsafe₁.stands⟩, nofun, fun _ _ => ⟨rows₁, hsafe₁⟩⟩⟩)
  rintro ⟨records, scannedTo⟩ hscan
  obtain ⟨hscd, honc⟩ := hsrc.scan _ _ _ (mapError_eq_ok.mp hscan)
  refine .bind (.modify ⟨fun _ _ => .pure ⟨⟨rows₁, hsafe₁.stands⟩, ?_, nofun⟩, nofun⟩)
  rintro p hp
  cases hp
  dsimp only
  -- the records, one call each
  refine .bind (.forEach
    (P := fun pairs s' => ∃ rows', Safe below H cfg v s' rows' ∧ (∃ pre, records.zipIdx = pre ++ pairs) ∧
      Remaining below H cfg v s'.memory.scanCursor scannedTo rows' s'.memory.pendingRefunds (pairs.map (·.1)))
    ?_ ?_ ⟨rows₁, ⟨hsafe₁.stands, hsafe₁.buffer, hsafe₁.covered⟩, ⟨[], rfl⟩, ?_⟩)
  · rintro ⟨record, index⟩ later s' ⟨rows', hsafe', ⟨pre, hpre⟩, hrem⟩
    refine .ofDurable fun hclr => (consumeRecord_ensures hsrc honc hsafe' hrem ?_ hclr).mono ?_
    · intro hcar
      exact isRefund_of_carries hpre (of_decide_eq_true hcar)
    · rintro r s'' ⟨rows'', hsafe'', hrem''⟩
      refine ⟨⟨rows'', hsafe''.stands⟩, fun hr => ⟨rows'', hsafe'', ⟨pre ++ [(record, index)], ?_⟩, hrem'' hr⟩,
        fun e _ => ⟨nofun, fun _ _ => ⟨rows'', hsafe''⟩⟩⟩
      rw [hpre, List.append_assoc]
      rfl
  · rintro s₂ ⟨rows₂, hsafe₂, -, rest, hrest, hnil⟩
    refine ⟨fun _ _ => ?_, nofun⟩
    -- everything up to the end of the scan is held, so the scan position moves there
    obtain rfl : rest = [] := by
      rcases hnil with hnil | ⟨fromHeight, oldAnchor, hnil, -⟩
      · exact List.map_eq_nil_iff.mp hnil.symm
      · cases hnil
    have hsafe₃ : Safe below H cfg v (s₂.setScan scannedTo) rows₂ := by
      refine ⟨hsafe₂.stands, hsafe₂.buffer, ?_⟩
      intro o hdue
      rcases hrest o hdue with hmem | hheld
      · cases hmem
      · exact hheld
    refine .bind (.ofDurable fun _ => .bind (.modify ⟨fun _ _ => .query ?_, nofun⟩))
    refine ⟨⟨rows₂, hsafe₃.stands⟩, fun tip _ => ?_, fun e _ => ⟨rows₂, hsafe₃⟩⟩
    -- the policy
    refine .bind ((applyPolicy_ensures maxPolicyIngestsPerTick honc hsafe₃).mono ?_)
    rintro r s₄ ⟨⟨rows₄, hsafe₄⟩, honc₄⟩
    refine ⟨fun _ _ => ?_, fun e _ => ⟨rows₄, hsafe₄⟩⟩
    -- the outbox
    refine .bind (.ofDurable fun _ => .bind (storeCall_ensures ?_ ?_))
    · intro claimed db' hdb'
      have hsafe₅ := hsafe₄.setDb (readyOutbox_settlements hdb')
      refine ⟨⟨rows₄, hsafe₅.stands⟩, fun claimed' _ => ?_, nofun⟩
      refine .bind (.modify ⟨fun _ _ => .pure ⟨⟨rows₄, hsafe₅.stands⟩, fun claimed'' _ => ?_, nofun⟩, nofun⟩)
      refine .bind (.forEach
        (P := fun _ s' => (∃ rows', Safe below H cfg v s' rows') ∧ OnChain below v s'.memory.scanCursor)
        ?_ ?_ ⟨⟨rows₄, hsafe₅.stands, hsafe₅.buffer, hsafe₅.covered⟩, honc₄⟩)
      · rintro effect later s' ⟨⟨rows', hsafe'⟩, honc'⟩
        refine .ofDurable fun _ => (executeEffect_ensures hsrc hsafe' honc').mono ?_
        rintro r s'' ⟨⟨rows'', hsafe''⟩, honc''⟩
        exact ⟨⟨rows'', hsafe''.stands⟩, fun _ => ⟨⟨rows'', hsafe''⟩, honc''⟩,
          fun e _ => ⟨nofun, fun _ _ => ⟨rows'', hsafe''⟩⟩⟩
      · rintro s₆ ⟨⟨rows₆, hsafe₆⟩, -⟩
        refine ⟨fun _ _ => .ofDurable fun _ => ?_, nofun⟩
        refine .bind (.query ⟨fun _ _ => ?_, fun e _ => ⟨⟨rows₆, hsafe₆.stands⟩, rows₆, hsafe₆⟩⟩)
        refine .bind (.modify ⟨fun _ _ => .query ⟨⟨rows₆, hsafe₆.stands⟩, rows₆, ?_⟩, nofun⟩)
        exact ⟨hsafe₆.stands, hsafe₆.buffer, hsafe₆.covered⟩
    · intro e _
      exact ⟨nofun, fun _ _ => ⟨⟨rows₄, hsafe₄.stands⟩, nofun, fun _ _ => ⟨rows₄, hsafe₄⟩⟩⟩
  · have hrecs : records.zipIdx.map (·.1) = records := by simp
    have hleft := remaining_of_scanned hsafe₁ hscd
    rw [hrecs]
    exact hleft

/-- **Arming the refund.** -/
theorem armRefund_ensures (hsafe : Safe below H cfg v s rows) : KeepsSafe below H cfg v (armRefund H cfg) s := by
  unfold armRefund housekeeping
  refine .ofDurable fun _ => .bind (.modify ⟨fun _ _ => ?_, nofun⟩)
  have hsafe₀ : Safe below H cfg v (s.setReport fun _ => {}) rows := ⟨hsafe.stands, hsafe.buffer, hsafe.covered⟩
  refine (ingest_ensures .RefundArmed stable_soundRows hsafe₀.stands hsafe₀.buffer none
    (fun _ => soundRows_of_ingested hsafe₀.stands.holds) nofun).mono ?_
  rintro r s' ⟨-, rows', hkept, -⟩
  exact ⟨⟨rows', hkept.stands⟩, rows', hsafe₀.kept hkept⟩

/-! ## Recovery -/

theorem buffered_of_parkedEnvelopes
    (h : parkedEnvelopes H cfg rows = .ok envelopes) : ∀ env ∈ envelopes, Buffered H cfg env := by
  intro env henv
  obtain ⟨p, -, hp⟩ := (mem_of_mapM_eq_ok h env).mp henv
  obtain ⟨event, hev, rfl⟩ := map_eq_ok.mp hp
  refine ⟨event, rfl, ?_⟩
  have hmem := List.mem_of_find?_eq_some (okOr_eq_ok.mp hev)
  simp only [evidenceEvents, List.mem_cons, List.not_mem_nil, or_false] at hmem
  rcases hmem with rfl | rfl | rfl | rfl | rfl <;> rfl

theorem mem_adopt {parked : List EventEnvelopeV1} (h : env ∈ adopt parked envelopes) :
    env ∈ parked ∨ env ∈ envelopes := by
  have hmem : env ∈ envelopes.foldl (fun held env => if env ∈ held then held else held ++ [env]) parked :=
    (List.mergeSort_perm _ _).mem_iff.mp h
  clear h
  induction envelopes generalizing parked with
  | nil => exact .inl hmem
  | cons first rest ih =>
    rcases ih hmem with hheld | hrest
    · dsimp only at hheld
      split at hheld
      · exact .inl hheld
      · rcases List.mem_append.mp hheld with hold | hnew
        · exact .inl hold
        · exact .inr (by rw [List.mem_singleton.mp hnew]; exact List.mem_cons_self)
    · exact .inr (List.mem_cons_of_mem _ hrest)

/-- **Recovery** resumes at the durable cursor, so what the lost memory held is scanned again or recorded. -/
theorem recover_safe (hsrc : Honest below v src)
    (hdb : DurablySafe below H cfg v db) (h : recover H cfg src db = .ok memory) :
    ∃ rows, Safe below H cfg v ⟨db, memory, {}⟩ rows := by
  obtain ⟨rows, hstd⟩ := hdb
  simp only [recover, inversion, not_not] at h
  obtain ⟨found, hfnd, hch, genesis, -, -, journal, -, replayed, -, -, -, -, scanCursor, hrsm, envelopes,
    henvs, rfl⟩ := h
  obtain rfl : found = rows := Option.some.inj (hfnd.symm.trans hstd.found)
  refine ⟨found, hstd, ?_, ?_⟩
  · intro env henv
    rcases mem_adopt henv with hnil | hmem
    · cases hnil
    · exact buffered_of_parkedEnvelopes henvs env hmem
  · intro o hdue
    unfold resumeCursor at hrsm
    rw [← hch] at hrsm
    cases hsto : found.cursors[cfg.chainId]? with
    | none =>
      rw [hsto] at hrsm
      exact absurd hdue (hsrc.genesis scanCursor (mapError_eq_ok.mp hrsm) o)
    | some stored =>
      rw [hsto] at hrsm
      dsimp only at hrsm
      split at hrsm
      · cases hrsm
        exact .inl (hstd.holds stored hsto o hdue)
      · cases hrsm

/-! ## Runs -/

variable (below H cfg v) in
/-- What holds of an engine: it is safe between its calls, and ensures to be so again after the call under way. -/
def StatusSafe (db : SettlementDb) : EngineStatus → Prop
  | .closed => True
  | .idle memory => ∃ rows, Safe below H cfg v ⟨db, memory, {}⟩ rows
  | .running memory report script =>
    script.Ensures (CallClear below H cfg v) (fun s' => DurablySafe below H cfg v s'.db)
      (fun _ s' => ∃ rows, Safe below H cfg v s' rows) ⟨db, memory, report⟩

variable (below H cfg) in
/-- **The invariant of a run.** -/
def WorldSafe (w : World) : Prop :=
  DurablySafe below H cfg w.view w.db ∧ StatusSafe below H cfg w.view w.db w.status

theorem worldSafe_initial (h : World.Initial cfg w) : WorldSafe below H cfg w := by
  obtain ⟨hclsd, sessionId, termsHash, canonicalTerms, hrows⟩ := h
  have hemp {α : Type} (a : Digest32) : (∅ : Std.ExtTreeMap Digest32 α)[a]? = none := by simp
  refine ⟨⟨_, hrows, ⟨?_, ?_⟩, ?_⟩, by rw [hclsd]; trivial⟩
  · intro a row hrow
    rw [hemp] at hrow
    cases hrow
  · intro a row hrow
    rw [hemp] at hrow
    cases hrow
  · intro stored hsto
    rw [hemp] at hsto
    cases hsto

theorem worldSafe_discard {script : EngineScript α} (h : KeepsSafe below H cfg v script s) :
    KeepsSafe below H cfg v (discard script) s :=
  .bind (Script.Ensures.mono h fun _ _ hsafe => ⟨fun _ _ => .pure hsafe, fun _ _ => hsafe⟩)

/-- **Every step that meets its condition keeps the invariant.** -/
theorem worldSafe_next {a : EngineAction} (h : WorldSafe below H cfg w)
    (halw : World.Allowed below cfg w a) (hclr : World.Clear below H cfg w a) :
    WorldSafe below H cfg (World.next H cfg w a) := by
  obtain ⟨view, db, status⟩ := w
  obtain ⟨hdb, hstat⟩ := h
  cases a with
  | chain view' =>
    obtain ⟨rows, hstd⟩ := hdb
    obtain ⟨hcrs, hscan⟩ := hclr rows hstd.found
    -- what is due at a position was due before, or was brought back
    have hstd' : Stands H cfg (SoundRows below H cfg view') db rows := by
      refine ⟨hstd.found, hstd.ok, ?_⟩
      intro stored hsto o hdue
      by_cases hold : Due below view stored.cursorBytes o
      · exact hstd.holds stored hsto o hold
      · exact hcrs stored hsto o hdue hold
    refine ⟨⟨rows, hstd'⟩, ?_⟩
    cases status with
    | closed => trivial
    | idle memory =>
      obtain ⟨rows', hsafe⟩ := hstat
      obtain rfl : rows' = rows := Option.some.inj (hsafe.stands.found.symm.trans hstd.found)
      refine ⟨rows', hstd', hsafe.buffer, ?_⟩
      intro o hdue
      by_cases hold : Due below view memory.scanCursor.bytes o
      · exact hsafe.covered o hold
      · exact hscan memory rfl o hdue hold
    | running memory report script => exact absurd rfl (halw memory report script)
  | elsewhere db' =>
    obtain ⟨rows, hstd⟩ := hdb
    obtain ⟨hidle, hsame⟩ := halw
    have hstd' : Stands H cfg (SoundRows below H cfg view) db' rows :=
      ⟨hsame.trans hstd.found, hstd.ok, hstd.holds⟩
    refine ⟨⟨rows, hstd'⟩, ?_⟩
    cases status with
    | closed => trivial
    | idle memory =>
      obtain ⟨rows', hsafe⟩ := hstat
      obtain rfl : rows' = rows := Option.some.inj (hsafe.stands.found.symm.trans hstd.found)
      exact ⟨rows', hstd', hsafe.buffer, hsafe.covered⟩
    | running memory report script => exact absurd rfl (hidle memory report script)
  | reopen src =>
    unfold World.next
    dsimp only
    cases hrcv : recover H cfg src db with
    | error e => exact ⟨hdb, hstat⟩
    | ok memory => exact ⟨hdb, recover_safe halw.2 hdb hrcv⟩
  | armRefund =>
    cases status with
    | idle memory =>
      obtain ⟨rows, hsafe⟩ := hstat
      exact ⟨hdb, worldSafe_discard (armRefund_ensures hsafe)⟩
    | _ => exact ⟨hdb, hstat⟩
  | tick src sink now =>
    cases status with
    | idle memory =>
      obtain ⟨rows, hsafe⟩ := hstat
      exact ⟨hdb, worldSafe_discard (tick_ensures halw hsafe)⟩
    | _ => exact ⟨hdb, hstat⟩
  | advance =>
    cases status with
    | closed | idle => exact ⟨hdb, hstat⟩
    | running memory report script =>
      cases script with
      | done result => exact ⟨hdb, hstat⟩
      | call label visited final next =>
        obtain ⟨-, hfin, hnext⟩ := hstat (hclr memory report label visited final next rfl)
        refine ⟨hfin, ?_⟩
        show StatusSafe below H cfg view _ (settled (final ⟨db, memory, report⟩) (next ⟨db, memory, report⟩))
        cases hscr : next ⟨db, memory, report⟩ with
        | done result =>
          rw [hscr] at hnext
          obtain ⟨rows, hsafe⟩ := hnext
          exact ⟨rows, hsafe.stands, hsafe.buffer, hsafe.covered⟩
        | call label' visited' final' next' =>
          rw [hscr] at hnext
          exact hnext
  | crash transactions =>
    cases status with
    | closed | idle => exact ⟨hdb, trivial⟩
    | running memory report script =>
      cases script with
      | done result => exact ⟨hdb, trivial⟩
      | call label visited final next =>
        refine ⟨?_, trivial⟩
        show DurablySafe below H cfg view
          (((visited ⟨db, memory, report⟩).take transactions).getLastD ⟨db, memory, report⟩).db
        cases hlast : ((visited ⟨db, memory, report⟩).take transactions).getLast? with
        | none =>
          rw [List.getLastD_eq_getLast?, hlast]
          exact hdb
        | some s' =>
          rw [List.getLastD_eq_getLast?, hlast]
          have hmem := List.mem_of_getLast? hlast
          have hpos : 0 < transactions := by
            rcases Nat.eq_zero_or_pos transactions with rfl | hpos
            · simp at hmem
            · exact hpos
          obtain ⟨hvis, -⟩ := hstat (hclr hpos memory report label visited final next rfl)
          exact hvis s' (List.mem_of_mem_take hmem)

end Tick

variable {observations : List Observation}

namespace Miniature

/-- Two inputs of the digest that differ in two bytes of one place have different digests: the modulus is odd. -/
theorem digest_ne_of_kind {prefixed body : List UInt8} {kind kind' : Nat} (hkind : kind < 2 ^ 16)
    (hkind' : kind' < 2 ^ 16) (hne : kind ≠ kind') :
    digest (prefixed ++ (beBytes 2 kind ++ body)) ≠ digest (prefixed ++ (beBytes 2 kind' ++ body)) := by
  intro h
  have hlt (n : Nat) : n % (2 ^ 256 - 189) < 2 ^ 256 := (Nat.mod_lt n (by decide)).trans (by decide)
  have hmod := congrArg BitVec.toNat h
  simp only [digest, BitVec.toNat_ofNat, Nat.mod_eq_of_lt (hlt _), ofBeBytes_append, List.length_append,
    length_beBytes, ofBeBytes_beBytes (n := 2) hkind, ofBeBytes_beBytes (n := 2) hkind'] at hmod
  have hcancel := Nat.ModEq.add_left_cancel' _ hmod
  have hcoprime : Nat.Coprime (2 ^ 256 - 189) (256 ^ body.length) := Nat.Coprime.pow_right _ (by decide)
  have hkds := Nat.ModEq.cancel_right_of_coprime hcoprime (Nat.ModEq.add_right_cancel' _ hcancel)
  exact hne (Nat.ModEq.eq_of_lt_of_lt hkds (hkind.trans (by decide)) (hkind'.trans (by decide)))

def engine : EngineConfig where
  settlementId := 1
  sessionId := 2
  termsHash := 3
  chainId := 1
  policy := ⟨1, 100⟩

theorem kindsDistinct_engine : KindsDistinct digest engine := by
  intro reference
  simp only [evidenceEvents, List.pairwise_cons, List.mem_cons, List.not_mem_nil, or_false, forall_eq_or_imp,
    forall_eq, List.Pairwise.nil, and_true, deriveEventId, encodeEvent, eventBody, eventKind, IsEmpty.forall_iff,
    implies_true, ← List.append_assoc (strBytes eventIdDomain)]
  refine ⟨⟨?_, ?_, ?_, ?_⟩, ⟨?_, ?_, ?_⟩, ⟨?_, ?_⟩, ?_⟩ <;> exact digest_ne_of_kind (by decide) (by decide) (by decide)

/-- Blocks are numbered, and a position is the number of the last block scanned. -/
def atOrBelow (position : List UInt8) (anchor : Digest32) : Bool := anchor.toNat ≤ (position.headD 0).toNat

def position (height : UInt8) : ChainCursorV1 :=
  ⟨[height], UInt64.ofNat height.toNat, BitVec.ofNat 256 height.toNat⟩

/-- A source that answers one scan, of the first twelve blocks. -/
def source (observations : List Observation) : ChainSourceV1 where
  chainId := 1
  genesisCursor := .ok (position 0)
  cursorAt _ := .error .Unavailable
  scan start :=
    if start = position 0 then .ok (observations.map Observation.record, position 12) else .error .Unavailable
  tipHeight := .error .Unavailable

theorem honest_source (hnd : observations.Nodup)
    (hhts : ∀ o ∈ observations, 0 < o.evidence.blockAnchor.toNat ∧ o.evidence.blockAnchor.toNat ≤ 12 ∧
      o.height ≤ 12) : Honest atOrBelow ⟨observations⟩ (source observations) where
  genesis c hc o hdue := by
    cases hc
    have hzero : o.evidence.blockAnchor.toNat ≤ 0 := of_decide_eq_true hdue.2
    exact absurd (hhts o hdue.1).1 (Nat.not_lt.mpr hzero)
  cursorAt height c hc := by cases hc
  scan start records scannedTo hscan := by
    unfold source at hscan
    dsimp only at hscan
    split at hscan
    · rename_i hstart
      cases hscan
      have hupto (o : Observation) (ho : o ∈ observations) : Due atOrBelow ⟨observations⟩ (position 12).bytes o :=
        ⟨ho, decide_eq_true (hhts o ho).2.1⟩
      refine ⟨.forward ⟨hnd, ?_⟩, ?_⟩
      · intro o
        refine ⟨fun ho => ⟨hupto o ho, ?_⟩, fun h => h.1.1⟩
        rw [hstart]
        intro hdue
        have hzero : o.evidence.blockAnchor.toNat ≤ 0 := of_decide_eq_true hdue.2
        exact absurd (hhts o ho).1 (Nat.not_lt.mpr hzero)
      · intro o
        exact ⟨fun hdue => ⟨hdue.1, (hhts o hdue.1).2.2⟩, fun h => hupto o h.1⟩
    · cases hscan

def created (observations : List Observation) : World :=
  ⟨⟨observations⟩, SettlementDb.empty.putRows 1 ⟨2, 3, [], .new, 0, [], ∅, ∅, none, ∅⟩, .closed⟩

/-- An engine is opened, arms the refund, and ticks: retry, scan, and the first record. -/
def actions (observations : List Observation) : List EngineAction :=
  [.reopen (source observations), .armRefund, .advance, .tick (source observations) (fun _ => .RetryLater) 0,
    .advance, .advance, .advance]

/-- The world after the first `n` actions. -/
def after (observations : List Observation) (n : Nat) : World :=
  ((actions observations).take n).foldl (World.next digest engine) (created observations)

/-- The call an engine is about to make, and the refunds it holds. -/
def underWay : EngineStatus → Option (EngineCall × List EvidenceRefV1)
  | .running memory _ (.call label _ _ _) => some (label, memory.pendingRefunds)
  | _ => none

theorem underWay_eq {status : EngineStatus} {report : TickReportV1} {label : EngineCall}
    {visited : EngineState → List EngineState} {final : EngineState → EngineState}
    {next : EngineState → EngineScript Unit} (h : status = .running memory report (.call label visited final next)) :
    underWay status = some (label, memory.pendingRefunds) := by
  rw [h]
  rfl

/-- Funding in block 10, and a refund in block 12. -/
def funding : Observation := ⟨.funding, evidence 1 10⟩
def refund : Observation := ⟨.refund, evidence 2 12⟩

theorem view_after (observations : List Observation) (n : Nat) : (after observations n).view = ⟨observations⟩ := by
  have hnext (w : World) (a : EngineAction) (h : a ∈ actions observations) :
      (World.next digest engine w a).view = w.view := by
    simp only [actions, List.mem_cons, List.not_mem_nil, or_false] at h
    rcases h with rfl | rfl | rfl | rfl | rfl | rfl | rfl <;> unfold World.next <;> dsimp only <;> split <;> rfl
  have hfold : ∀ (l : List EngineAction) (w : World), (∀ a ∈ l, a ∈ actions observations) →
      (l.foldl (World.next digest engine) w).view = w.view := by
    intro l
    induction l with
    | nil => exact fun w _ => rfl
    | cons a l ih =>
      intro w h
      rw [List.foldl_cons, ih _ fun b hb => h b (List.mem_cons_of_mem _ hb), hnext w a (h a List.mem_cons_self)]
  rw [after, hfold _ _ fun a ha => List.mem_of_mem_take ha]
  rfl

theorem reach_after {guard : World → EngineAction → Prop}
    (hopen : guard (after observations 0) (.reopen (source observations)))
    (harm : guard (after observations 1) .armRefund)
    (htick : guard (after observations 3) (.tick (source observations) (fun _ => .RetryLater) 0))
    (hadvance : ∀ n ∈ [2, 4, 5, 6], guard (after observations n) .advance) :
    Reach (World.Initial engine) guard (World.next digest engine) (after observations 7) := by
  have hcrt : World.Initial engine (after observations 0) := by
    refine ⟨rfl, 2, 3, [], ?_⟩
    show (SettlementDb.putRows _ _ _).settlements[(1 : Digest32)]? = _
    rw [SettlementDb.settlements_putRows, if_pos rfl]
  have hopd : Reach _ guard _ (after observations 1) := .step (.start hcrt) _ hopen
  have harming : Reach _ guard _ (after observations 2) := .step hopd _ harm
  have harmed : Reach _ guard _ (after observations 3) := .step harming _ (hadvance 2 (by decide))
  have hticking : Reach _ guard _ (after observations 4) := .step harmed _ htick
  have hretried : Reach _ guard _ (after observations 5) := .step hticking _ (hadvance 4 (by decide))
  have hscd : Reach _ guard _ (after observations 6) := .step hretried _ (hadvance 5 (by decide))
  exact .step hscd _ (hadvance 6 (by decide))

end Miniature

end DomProtocol
