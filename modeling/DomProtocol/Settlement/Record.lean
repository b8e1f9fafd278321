import DomProtocol.Settlement.Engine

/-!
# `Settlement.Record` — what the store remembers of an event

An event is recorded when it is journalled, recorded as late, or held in a parked evidence row.  Everything an
ingest writes only adds to that, except the invalidation of a reorg, which takes parked rows at or above its height
away.  `Grows` says so for the rows, and `ingestEvent_ensures` and its like for the programs of the engine: each
state they pass through has grown, and the durable cursor has moved only with a commit.
-/

namespace DomProtocol

open Lib SettlementDb

/-! ## Tables after each write -/

namespace SettlementRows

variable (rows : SettlementRows) (id a : Digest32)

theorem evidence_setStatus (status : EvidenceStatus) : (rows.setStatus id status).evidence[a]? =
      if id = a then rows.evidence[a]?.map fun row => { row with status } else rows.evidence[a]? := by
  unfold setStatus
  by_cases h : id = a
  · subst h
    cases hrow : rows.evidence[id]? <;> simp [hrow]
  · cases rows.evidence[id]? <;> simp [getElem?_insert, h]

theorem setStatus_eq (status : EvidenceStatus) :
    rows.setStatus id status = { rows with evidence := (rows.setStatus id status).evidence } := by
  unfold setStatus
  split <;> rfl

theorem evidence_applyEvidence (reference : EvidenceRefV1) (seq : Nat) :
    (rows.applyEvidence id reference seq).evidence[a]? =
      if id = a then some ((rows.evidence[a]?.map fun row => { row with status := .Applied }).getD
        ⟨reference, .Applied, seq⟩) else rows.evidence[a]? := by
  unfold applyEvidence
  by_cases h : id = a
  · subst h
    cases hrow : rows.evidence[id]? <;> simp [evidence_setStatus, hrow]
  · cases rows.evidence[id]? <;> simp [evidence_setStatus, getElem?_insert, h]

theorem applyEvidence_eq (reference : EvidenceRefV1) (seq : Nat) : rows.applyEvidence id reference seq =
      { rows with evidence := (rows.applyEvidence id reference seq).evidence } := by
  unfold applyEvidence
  split
  · exact setStatus_eq rows id .Applied
  · rfl

theorem evidence_invalidateFrom (fromHeight : UInt64) :
    (rows.invalidateFrom fromHeight).evidence[a]? = rows.evidence[a]?.map fun row =>
      if fromHeight ≤ row.reference.blockHeight then { row with status := .Invalidated } else row :=
  Std.ExtTreeMap.getElem?_map

variable (H : List UInt8 → Digest32) (journalId : Digest32) (env : EventEnvelopeV1) (t : Transition)

variable (cursor : Option CursorUpdateV1)

theorem journal_writeTransition : ∃ row : SettlementJournalRow, row.eventId = journalId ∧
      (writeTransition H rows journalId env t cursor).journal = rows.journal ++ [row] := by
  refine ⟨⟨rows.lastEventSeq + 1, rows.context.revision, t.next.revision, journalId, eventKind env.event,
    env.canonicalBytes, contextHash H t.next⟩, rfl, ?_⟩
  unfold writeTransition
  cases acceptedEvidence env.event with
  | none => rfl
  | some evidence =>
    dsimp only
    rw [applyEvidence_eq]

theorem late_writeTransition : (writeTransition H rows journalId env t cursor).late = rows.late := by
  unfold writeTransition
  cases acceptedEvidence env.event with
  | none => rfl
  | some evidence =>
    dsimp only
    rw [applyEvidence_eq]

theorem evidence_writeTransition : (writeTransition H rows journalId env t cursor).evidence[a]? =
      if env.eventId = a ∧ (acceptedEvidence env.event).isSome then
        (acceptedEvidence env.event).map fun reference =>
          (rows.evidence[a]?.map fun row => { row with status := .Applied }).getD
            ⟨reference, .Applied, rows.lastEventSeq + 1⟩
      else rows.evidence[a]? := by
  unfold writeTransition
  cases acceptedEvidence env.event with
  | none => simp
  | some reference =>
    dsimp only
    rw [evidence_applyEvidence]
    simp

theorem cursors_writeTransition : (writeTransition H rows journalId env t cursor).cursors[a]? =
      match cursor with
      | some c => if c.chainId = a then some ⟨c.cursorBytes, c.anchorHeight.filter (·.toNat < i64Bound),
          c.anchorHash, t.next.revision⟩ else rows.cursors[a]?
      | none => rows.cursors[a]? := by
  unfold writeTransition
  cases acceptedEvidence env.event with
  | none =>
    cases cursor with
    | none => rfl
    | some c => exact getElem?_insert ..
  | some reference =>
    dsimp only
    rw [applyEvidence_eq]
    cases cursor with
    | none => rfl
    | some c => exact getElem?_insert ..

theorem reaffirm_eq : rows.reaffirm id = { rows with evidence := (rows.reaffirm id).evidence } := by
  unfold reaffirm
  split
  · exact setStatus_eq rows id .Applied
  · rfl

theorem evidence_reaffirm : (rows.reaffirm id).evidence[a]? =
      if id = a ∧ rows.isInvalidated id = true then rows.evidence[a]?.map fun row => { row with status := .Applied }
      else rows.evidence[a]? := by
  unfold reaffirm
  split
  · rename_i h
    rw [evidence_setStatus]
    simp [h]
  · rename_i h
    simp [h]

end SettlementRows

/-! ## Recorded events -/

variable {event : SettlementEvent} {fromHeight : UInt64}

section Recorded

variable (H : List UInt8 → Digest32) (id : Digest32)

/-- The event is journalled, recorded as late, or held in a parked evidence row. -/
def Recorded (rows : SettlementRows) (event : SettlementEvent) : Prop :=
  (rows.journalled (deriveEventId H id event)).isSome ∨ (rows.late[deriveEventId H id event]?).isSome ∨
    ∃ row, rows.evidence[deriveEventId H id event]? = some row ∧ row.status = .Parked ∧
      acceptedEvidence event = some row.reference

/-- What is remembered in `rows` is remembered in `rows'`. -/
structure Grows (rows rows' : SettlementRows) : Prop where
  journalled : ∀ a, (rows.journalled a).isSome → (rows'.journalled a).isSome
  late : ∀ a : Digest32, (rows.late[a]?).isSome → (rows'.late[a]?).isSome
  parked : ∀ (a : Digest32) (row : EvidenceRow), rows.evidence[a]? = some row → row.status = .Parked →
    rows'.evidence[a]? = some row ∨ (rows'.journalled a).isSome

/-- What is remembered in `rows` is remembered in `rows'`, also if a reorg has invalidated it since. -/
structure Remembers (rows rows' : SettlementRows) : Prop where
  journalled : ∀ a, (rows.journalled a).isSome → (rows'.journalled a).isSome
  late : ∀ a : Digest32, (rows.late[a]?).isSome → (rows'.late[a]?).isSome
  evidence : ∀ (a : Digest32) (row : EvidenceRow), rows.evidence[a]? = some row →
    ∃ row' : EvidenceRow, rows'.evidence[a]? = some row' ∧ row'.reference = row.reference

variable {H id} {rows rows' rows'' : SettlementRows}

theorem Remembers.refl (rows : SettlementRows) : Remembers rows rows :=
  ⟨fun _ h => h, fun _ h => h, fun _ row h => ⟨row, h, rfl⟩⟩

theorem Remembers.trans (h : Remembers rows rows') (h' : Remembers rows' rows'') : Remembers rows rows'' := by
  refine ⟨fun a ha => h'.journalled a (h.journalled a ha), fun a ha => h'.late a (h.late a ha), ?_⟩
  intro a row hrow
  obtain ⟨row', hrow', href⟩ := h.evidence a row hrow
  obtain ⟨row'', hrow'', href'⟩ := h'.evidence a row' hrow'
  exact ⟨row'', hrow'', href'.trans href⟩

theorem Grows.refl (rows : SettlementRows) : Grows rows rows :=
  ⟨fun _ h => h, fun _ h => h, fun _ _ h _ => .inl h⟩

theorem Grows.trans (h : Grows rows rows') (h' : Grows rows' rows'') : Grows rows rows'' where
  journalled a ha := h'.journalled a (h.journalled a ha)
  late a ha := h'.late a (h.late a ha)
  parked a row hrow hpk := by
    rcases h.parked a row hrow hpk with hrow' | hjour
    · exact h'.parked a row hrow' hpk
    · exact .inr (h'.journalled a hjour)

theorem Recorded.grows (h : Recorded H id rows event) (hgrw : Grows rows rows') :
    Recorded H id rows' event := by
  rcases h with hjour | hlate | ⟨row, hrow, hpk, href⟩
  · exact .inl (hgrw.journalled _ hjour)
  · exact .inr (.inl (hgrw.late _ hlate))
  · rcases hgrw.parked _ row hrow hpk with hrow' | hjour
    · exact .inr (.inr ⟨row, hrow', hpk, href⟩)
    · exact .inl hjour

theorem Recorded.invalidateFrom (h : Recorded H id rows event)
    (hbel : (rows.journalled (deriveEventId H id event)).isSome ∨ (rows.late[deriveEventId H id event]?).isSome ∨
      ∀ reference, acceptedEvidence event = some reference → reference.blockHeight < fromHeight) :
    Recorded H id (rows.invalidateFrom fromHeight) event := by
  rcases hbel with hjour | hlate | hbel
  · exact .inl hjour
  · exact .inr (.inl hlate)
  · rcases h with hjour | hlate | ⟨row, hrow, hpk, href⟩
    · exact .inl hjour
    · exact .inr (.inl hlate)
    · refine .inr (.inr ⟨row, ?_, hpk, href⟩)
      rw [SettlementRows.evidence_invalidateFrom, hrow, Option.map_some,
        if_neg (UInt64.not_le.mpr (hbel _ href))]

theorem journalled_append {row : SettlementJournalRow} (h : rows'.journal = rows.journal ++ [row]) (a : Digest32) :
    (rows'.journalled a).isSome ↔ (rows.journalled a).isSome ∨ row.eventId = a := by
  simp [SettlementRows.journalled, h, List.find?_append, List.find?_isSome]

theorem remembers_writeTransition (rows : SettlementRows) (journalId : Digest32) (env : EventEnvelopeV1)
    (t : Transition) (cursor : Option CursorUpdateV1) :
    Remembers rows (writeTransition H rows journalId env t cursor) := by
  obtain ⟨row, -, hjour⟩ := rows.journal_writeTransition H journalId env t cursor
  refine ⟨fun a ha => (journalled_append hjour a).mpr (.inl ha), ?_, ?_⟩
  · intro a ha
    rw [rows.late_writeTransition]
    exact ha
  · intro a found hfnd
    rw [rows.evidence_writeTransition]
    split
    · rename_i hcond
      obtain ⟨reference, href⟩ := Option.isSome_iff_exists.mp hcond.2
      refine ⟨{ found with status := .Applied }, ?_, rfl⟩
      rw [href, hfnd]
      rfl
    · exact ⟨found, hfnd, rfl⟩

theorem remembers_reaffirm (rows : SettlementRows) (id : Digest32) : Remembers rows (rows.reaffirm id) := by
  refine ⟨?_, ?_, ?_⟩
  · intro a ha
    rw [rows.reaffirm_eq]
    exact ha
  · intro a ha
    rw [rows.reaffirm_eq]
    exact ha
  · intro a row hrow
    rw [rows.evidence_reaffirm]
    split
    · exact ⟨{ row with status := .Applied }, by rw [hrow]; rfl, rfl⟩
    · exact ⟨row, hrow, rfl⟩

theorem remembers_invalidateFrom (rows : SettlementRows) (fromHeight : UInt64) :
    Remembers rows (rows.invalidateFrom fromHeight) := by
  refine ⟨fun _ h => h, fun _ h => h, ?_⟩
  intro a row hrow
  rw [rows.evidence_invalidateFrom, hrow]
  refine ⟨_, rfl, ?_⟩
  dsimp only
  split <;> rfl

theorem remembers_late (rows : SettlementRows) (id : Digest32) (state : SettlementState) :
    Remembers rows { rows with late := rows.late.insertIfNew id state } := by
  refine ⟨fun _ h => h, ?_, fun _ row h => ⟨row, h, rfl⟩⟩
  intro a ha
  show ((rows.late.insertIfNew id state)[a]?).isSome
  rw [Std.ExtTreeMap.getElem?_insertIfNew]
  split
  · rfl
  · exact ha

theorem evidence_park (habs : rows.evidence[id]? = none) {row found : EvidenceRow} {a : Digest32}
    (hfnd : rows.evidence[a]? = some found) : (rows.evidence.insert id row)[a]? = some found := by
  rw [getElem?_insert, if_neg ?_]
  · exact hfnd
  · rintro rfl
    rw [habs] at hfnd
    cases hfnd

theorem remembers_park (habs : rows.evidence[id]? = none) (row : EvidenceRow) :
    Remembers rows { rows with evidence := rows.evidence.insert id row } :=
  ⟨fun _ h => h, fun _ h => h, fun _ found hfnd => ⟨found, evidence_park habs hfnd, rfl⟩⟩

/-! ## Well-formed evidence rows -/

/-- Every evidence row belongs to an event, and the event of an applied row is journalled. -/
structure EvidenceOk (H : List UInt8 → Digest32) (id : Digest32) (rows : SettlementRows) : Prop where
  fromEvent : ∀ (a : Digest32) (row : EvidenceRow), rows.evidence[a]? = some row →
    ∃ event, acceptedEvidence event = some row.reference ∧ deriveEventId H id event = a
  applied : ∀ (a : Digest32) (row : EvidenceRow), rows.evidence[a]? = some row → row.status = .Applied →
    (rows.journalled a).isSome

variable {env : EventEnvelopeV1} {t : Transition} {cursor : Option CursorUpdateV1}

variable {journalId : Digest32}

theorem journalled_writeTransition (hid : journalId = env.eventId ∨ (rows.journalled env.eventId).isSome) :
    ((writeTransition H rows journalId env t cursor).journalled env.eventId).isSome := by
  obtain ⟨row, hrow, hjour⟩ := rows.journal_writeTransition H journalId env t cursor
  rw [journalled_append hjour, hrow]
  exact hid.symm

/-- A written transition adds to what is remembered, when the event's own identity is journalled by it. -/
theorem grows_writeTransition (hid : journalId = env.eventId ∨ (rows.journalled env.eventId).isSome) :
    Grows rows (writeTransition H rows journalId env t cursor) := by
  refine ⟨(remembers_writeTransition ..).journalled, (remembers_writeTransition ..).late, ?_⟩
  intro a found hfnd hpk
  by_cases h : env.eventId = a ∧ (acceptedEvidence env.event).isSome
  · -- the row becomes an applied one, and its event is journalled
    right
    rw [← h.1]
    exact journalled_writeTransition hid
  · left
    rw [rows.evidence_writeTransition, if_neg h]
    exact hfnd

theorem evidenceOk_writeTransition (hid : journalId = env.eventId ∨ (rows.journalled env.eventId).isSome)
    (hev : env.eventId = deriveEventId H id env.event) (h : EvidenceOk H id rows) :
    EvidenceOk H id (writeTransition H rows journalId env t cursor) := by
  refine ⟨?_, ?_⟩
  · intro a found hfnd
    rw [rows.evidence_writeTransition] at hfnd
    split at hfnd
    · rename_i hcond
      obtain ⟨rfl, -⟩ := hcond
      obtain ⟨reference, href, hfnd⟩ := Option.map_eq_some_iff.mp hfnd
      cases hold : rows.evidence[env.eventId]? with
      | none =>
        rw [hold] at hfnd
        cases hfnd
        exact ⟨env.event, href, hev.symm⟩
      | some old =>
        rw [hold] at hfnd
        cases hfnd
        exact h.fromEvent _ old hold
    · exact h.fromEvent a found hfnd
  · intro a found hfnd hapl
    rw [rows.evidence_writeTransition] at hfnd
    split at hfnd
    · rename_i hcond
      rw [← hcond.1]
      exact journalled_writeTransition hid
    · exact (remembers_writeTransition ..).journalled a (h.applied a found hfnd hapl)

theorem evidenceOk_invalidateFrom (h : EvidenceOk H id rows) (fromHeight : UInt64) :
    EvidenceOk H id (rows.invalidateFrom fromHeight) := by
  refine ⟨?_, ?_⟩
  · intro a row hrow
    rw [rows.evidence_invalidateFrom] at hrow
    obtain ⟨old, hold, rfl⟩ := Option.map_eq_some_iff.mp hrow
    obtain ⟨event, href, hev⟩ := h.fromEvent a old hold
    refine ⟨event, ?_, hev⟩
    rw [href]
    split <;> rfl
  · intro a row hrow hapl
    rw [rows.evidence_invalidateFrom] at hrow
    obtain ⟨old, hold, rfl⟩ := Option.map_eq_some_iff.mp hrow
    split at hapl
    · cases hapl
    · exact h.applied a old hold hapl

theorem grows_invalidateFrom
    (hbel : ∀ (a : Digest32) (row : EvidenceRow), rows.evidence[a]? = some row → row.status = .Parked →
      row.reference.blockHeight < fromHeight) : Grows rows (rows.invalidateFrom fromHeight) := by
  refine ⟨fun _ h => h, fun _ h => h, ?_⟩
  intro a row hrow hpk
  left
  rw [rows.evidence_invalidateFrom, hrow, Option.map_some, if_neg (UInt64.not_le.mpr (hbel a row hrow hpk))]

/-! ## One ingest -/

/-- The machine takes the event, and it is new or its evidence was invalidated: it will be committed. -/
def Commits (rows : SettlementRows) (env : EventEnvelopeV1) : Prop :=
  (∃ t, transition rows.context env.event = .ok t) ∧
    ((rows.journalled env.eventId).isSome → rows.isInvalidated env.eventId = true)

/-- If a reorg invalidated the evidence of the event, it is journalled or the machine takes it: parking would leave
    the invalidated row as it is. -/
def Revivable (rows : SettlementRows) (env : EventEnvelopeV1) : Prop :=
  rows.isInvalidated env.eventId = true →
    (rows.journalled env.eventId).isSome ∨ ¬ Refused rows.context env.event

/-- What one ingest does to the rows: they grow, and a cursor is written with a commit only. -/
structure Ingested (H : List UInt8 → Digest32) (id : Digest32) (rows : SettlementRows) (env : EventEnvelopeV1)
    (cursor : Option CursorUpdateV1) (rows' : SettlementRows) : Prop where
  grows : Grows rows rows'
  ok : EvidenceOk H id rows'
  cursors : ∀ chain : Digest32, rows'.cursors[chain]? = rows.cursors[chain]? ∨
    ∃ c stored, cursor = some c ∧ rows'.cursors[chain]? = some stored ∧ stored.cursorBytes = c.cursorBytes ∧
      Commits rows env ∧ (rows'.journalled env.eventId).isSome

theorem ingested_writeTransition (hid : journalId = env.eventId ∨ (rows.journalled env.eventId).isSome)
    (hev : env.eventId = deriveEventId H id env.event) (hok : EvidenceOk H id rows) (hcommits : Commits rows env) :
    Ingested H id rows env cursor (writeTransition H rows journalId env t cursor) where
  grows := grows_writeTransition hid
  ok := evidenceOk_writeTransition hid hev hok
  cursors chain := by
    rw [rows.cursors_writeTransition]
    cases cursor with
    | none => exact .inl rfl
    | some c =>
      dsimp only
      split
      · exact .inr ⟨c, _, rfl, rfl, rfl, hcommits, journalled_writeTransition hid⟩
      · exact .inl rfl

theorem Ingested.of_cursors (hgrw : Grows rows rows') (hok : EvidenceOk H id rows')
    (hcursors : rows'.cursors = rows.cursors) : Ingested H id rows env cursor rows' :=
  ⟨hgrw, hok, fun chain => .inl (by rw [hcursors])⟩

theorem Ingested.cursors_kept (h : Ingested H id rows env none rows') (chain : Digest32) :
    rows'.cursors[chain]? = rows.cursors[chain]? := by
  rcases h.cursors chain with hsame | ⟨c, stored, hcrs, -⟩
  · exact hsame
  · cases hcrs

/-- A reorg reaches no parked evidence. -/
def NoneParkedAbove (rows : SettlementRows) (event : SettlementEvent) : Prop :=
  ∀ fromHeight oldAnchor, event = .ReorgInvalidated fromHeight oldAnchor → ∀ (a : Digest32) (row : EvidenceRow),
    rows.evidence[a]? = some row → row.status = .Parked → row.reference.blockHeight < fromHeight

/-- **Everything an ingest writes** is an `Ingested` step, as long as a reorg finds no parked row in its range. -/
theorem Written.ingested (h : Written H rows env cursor rows') (hev : env.eventId = deriveEventId H id env.event)
    (hok : EvidenceOk H id rows) (hrg : NoneParkedAbove rows env.event) : Ingested H id rows env cursor rows' := by
  cases h with
  | same => exact .of_cursors (.refl _) hok rfl
  | reaffirmed hjour =>
    have hrmb := remembers_reaffirm rows env.eventId
    refine .of_cursors ⟨hrmb.journalled, hrmb.late, ?_⟩ ⟨?_, ?_⟩ (by rw [rows.reaffirm_eq])
    · intro a row hrow hpk
      left
      rw [rows.evidence_reaffirm, if_neg ?_]
      · exact hrow
      · -- a parked row is not an invalidated one
        rintro ⟨rfl, hinv⟩
        simp [SettlementRows.isInvalidated, hrow, hpk] at hinv
    · intro a row hrow
      rw [rows.evidence_reaffirm] at hrow
      split at hrow
      · obtain ⟨old, hold, rfl⟩ := Option.map_eq_some_iff.mp hrow
        exact hok.fromEvent a old hold
      · exact hok.fromEvent a row hrow
    · intro a row hrow hapl
      refine hrmb.journalled a ?_
      rw [rows.evidence_reaffirm] at hrow
      split at hrow
      · rename_i hcond
        rw [← hcond.1]
        exact hjour
      · exact hok.applied a row hrow hapl
  | refreshed hjour hinv hacc hevd =>
    exact ingested_writeTransition (.inr hjour) hev hok ⟨⟨_, hacc⟩, fun _ => hinv⟩
  | late hterm =>
    exact .of_cursors ⟨fun _ h => h, (remembers_late ..).late, fun _ _ h _ => .inl h⟩ ⟨hok.fromEvent, hok.applied⟩ rfl
  | committed hnew hacc hoth =>
    exact ingested_writeTransition (.inl rfl) hev hok ⟨⟨_, hacc⟩, fun h => by simp [hnew] at h⟩
  | invalidated hreorged =>
    exact .of_cursors (grows_invalidateFrom (hrg _ _ hreorged)) (evidenceOk_invalidateFrom hok _) rfl
  | @reorged fromHeight oldAnchor t hnew hreorged hacc =>
    have hgrw := grows_invalidateFrom (hrg _ _ hreorged)
    have hfr (h : (rows.journalled env.eventId).isSome) : rows.isInvalidated env.eventId = true := by
      simp [hnew] at h
    have hstep : Ingested H id (rows.invalidateFrom fromHeight) env cursor
        (writeTransition H (rows.invalidateFrom fromHeight) env.eventId env t cursor) := by
      refine ingested_writeTransition (.inl rfl) hev (evidenceOk_invalidateFrom hok fromHeight) ⟨⟨t, hacc⟩, ?_⟩
      intro h
      have hjour : (rows.journalled env.eventId).isSome := h
      simp [hnew] at hjour
    refine ⟨hgrw.trans hstep.grows, hstep.ok, ?_⟩
    intro chain
    rcases hstep.cursors chain with hsame | ⟨c, stored, hcrs, hsto, hbyt, -, hjour⟩
    · exact .inl hsame
    · exact .inr ⟨c, stored, hcrs, hsto, hbyt, ⟨⟨t, hacc⟩, hfr⟩, hjour⟩
  | @parked evidence hnew hevd habs =>
    have hread (a : Digest32) : (rows.evidence.insert env.eventId ⟨evidence, .Parked, rows.lastEventSeq⟩)[a]? =
        if env.eventId = a then some ⟨evidence, .Parked, rows.lastEventSeq⟩ else rows.evidence[a]? :=
      getElem?_insert ..
    refine .of_cursors ⟨fun _ h => h, fun _ h => h, fun _ _ hrow _ => .inl (evidence_park habs hrow)⟩ ⟨?_, ?_⟩ rfl
    · intro a row hrow
      have hrow : (rows.evidence.insert env.eventId _)[a]? = some row := hrow
      rw [hread] at hrow
      split at hrow
      · rename_i ha
        cases hrow
        exact ⟨env.event, hevd, by rw [← hev, ha]⟩
      · exact hok.fromEvent a row hrow
    · intro a row hrow hapl
      have hrow : (rows.evidence.insert env.eventId _)[a]? = some row := hrow
      rw [hread] at hrow
      split at hrow
      · cases hrow
        cases hapl
      · exact hok.applied a row hrow hapl

variable {out : RunOf SettlementDb EngineError IngestResult} {db : SettlementDb}

/-- **An ingest that succeeds records its event**, unless the event is parked over an invalidated row. -/
theorem Ingests.recorded (h : Ingests H db rows env cursor out)
    (hrows : db.settlements[env.settlementId]? = some rows) (hev : env.eventId = deriveEventId H id env.event)
    (hok : EvidenceOk H id rows) (hclr : Revivable rows env) {r : IngestResult} (hr : out.result = .ok r) :
    ∃ rows', out.final.settlements[env.settlementId]? = some rows' ∧ Recorded H id rows' env.event := by
  unfold Recorded
  rw [← hev]
  have hput (rows' : SettlementRows) :
      (db.putRows env.settlementId rows').settlements[env.settlementId]? = some rows' := by
    rw [settlements_putRows, if_pos rfl]
  have hapd {db : SettlementDb} {rows : SettlementRows} {t : Transition} {db' : SettlementDb} {journalId : Digest32}
      (hid : journalId = env.eventId ∨ (rows.journalled env.eventId).isSome)
      (happ : SettlementDb.Appended H db rows journalId env t cursor db') :
      ∃ rows', db'.settlements[env.settlementId]? = some rows' ∧ (rows'.journalled env.eventId).isSome :=
    ⟨_, by rw [happ.onlyRows, if_pos rfl], journalled_writeTransition hid⟩
  cases h with
  | failed | interrupted => cases hr
  | duplicate hjour hvis => exact ⟨rows, hrows, .inl hjour⟩
  | reaffirmed hjour hdb' =>
    refine ⟨_, by rw [hdb', hput], .inl ?_⟩
    rw [rows.reaffirm_eq]
    exact hjour
  | refreshed hjour hinv hacc hevd happ =>
    obtain ⟨rows', hrows', hjour'⟩ := hapd (.inr hjour) happ
    exact ⟨rows', hrows', .inl hjour'⟩
  | late hnew hterm hdb' =>
    refine ⟨_, by rw [hdb', hput], .inr (.inl ?_)⟩
    show ((rows.late.insertIfNew env.eventId rows.context.state)[env.eventId]?).isSome
    rw [Std.ExtTreeMap.getElem?_insertIfNew]
    split
    · rfl
    · rename_i h
      simpa using h
  | committed hnew hacc hrg happ | reorged hnew hev' hacc hinvd happ =>
    obtain ⟨rows', hrows', hjour'⟩ := hapd (.inl rfl) happ
    exact ⟨rows', hrows', .inl hjour'⟩
  | @parked db' evidence hnew hrfd hevd habs hdb' =>
    refine ⟨_, by rw [hdb', hput], .inr (.inr ⟨⟨evidence, .Parked, rows.lastEventSeq⟩, ?_, rfl, hevd⟩)⟩
    show (rows.evidence.insert env.eventId _)[env.eventId]? = _
    rw [getElem?_insert, if_pos rfl]
  | @present evidence row hnew hrfd hevd hrow hsame =>
    refine ⟨rows, hrows, .inr (.inr ⟨row, hrow, ?_, by rw [hsame, hevd]⟩)⟩
    cases hstat : row.status with
    | Parked => rfl
    | Applied =>
      have := hok.applied _ row hrow hstat
      simp [hnew] at this
    | Invalidated =>
      rcases hclr (by simp [SettlementRows.isInvalidated, hrow, hstat]) with hjour | hnot
      · simp [hnew] at hjour
      · exact absurd hrfd hnot

theorem Ingests.ne_conflict (h : Ingests H db rows env cursor out) :
    out.result ≠ .error (.Store .RevisionConflict) := by
  cases h with
  | failed e hrace | interrupted e hrace => exact fun h => hrace (Except.error.inj h)
  | _ => simp

theorem Ingests.evidence_of_parked (h : Ingests H db rows env cursor out)
    (hr : out.result = .ok .ParkedForReorder) : (acceptedEvidence env.event).isSome := by
  cases h with
  | parked _ _ hevd | present _ _ hevd => simp [hevd]
  | _ => cases hr

end Recorded

theorem readyOutbox_settlements {now leaseMs : Int} {max : Nat} {db db' : SettlementDb}
    {claimed : List ClaimedEffectV1} (h : readyOutbox now leaseMs max db = .ok (claimed, db')) :
    db'.settlements = db.settlements := by
  simp only [readyOutbox, inversion, Prod.mk.injEq] at h
  obtain ⟨-, -, -, rfl⟩ := h
  rfl

theorem completeEffect_settlements {effectId payloadHash : Digest32} {db db' : SettlementDb} {u : Unit}
    (h : completeEffect effectId payloadHash db = .ok (u, db')) : db'.settlements = db.settlements := by
  unfold completeEffect at h
  split at h
  · cases h
  · split at h
    · cases h
    · split at h <;> cases h <;> rfl

/-! ## The engine's programs -/

variable {envs : List EventEnvelopeV1}

section Programs

variable (H : List UInt8 → Digest32) (cfg : EngineConfig)

/-- The envelopes a buffer may hold: those of the engine's own events that carry evidence. -/
def Buffered (env : EventEnvelopeV1) : Prop :=
  ∃ event, env = envelopeFor H cfg event ∧ (acceptedEvidence event).isSome

/-- The rows of the settlement have grown from `rows` to `rows'`, and the durable cursors are as they were. -/
structure Grown (rows : SettlementRows) (db : SettlementDb) (rows' : SettlementRows) : Prop where
  found : db.settlements[cfg.settlementId]? = some rows'
  grows : Grows rows rows'
  ok : EvidenceOk H cfg.settlementId rows'
  cursors : ∀ chain : Digest32, rows'.cursors[chain]? = rows.cursors[chain]?

variable {H cfg} {db : SettlementDb} {rows rows' rows'' : SettlementRows}

variable {db' : SettlementDb}

theorem Grown.trans (h : Grown H cfg rows db rows') (h' : Grown H cfg rows' db' rows'') :
    Grown H cfg rows db' rows'' :=
  ⟨h'.found, h.grows.trans h'.grows, h'.ok, fun chain => (h'.cursors chain).trans (h.cursors chain)⟩

theorem Ingested.grown (hfnd : db'.settlements[cfg.settlementId]? = some rows')
    (h : Ingested H cfg.settlementId rows (envelopeFor H cfg event) none rows') : Grown H cfg rows db' rows' :=
  ⟨hfnd, h.grows, h.ok, h.cursors_kept⟩

variable (hfnd : db.settlements[cfg.settlementId]? = some rows) (hok : EvidenceOk H cfg.settlementId rows)

include hfnd hok

theorem Grown.refl : Grown H cfg rows db rows := ⟨hfnd, .refl _, hok, fun _ => rfl⟩

theorem ingestEvent_ensures (event : SettlementEvent) (cursor : Option CursorUpdateV1)
    (hrg : NoneParkedAbove rows event) : (ingestEvent H (envelopeFor H cfg event) cursor).Ensures db
      (fun db' => ∃ rows', db'.settlements[cfg.settlementId]? = some rows' ∧
        Ingested H cfg.settlementId rows (envelopeFor H cfg event) cursor rows')
      fun r db' => r ≠ .error (.Store .RevisionConflict) ∧ ∃ rows', db'.settlements[cfg.settlementId]? = some rows' ∧
          Ingested H cfg.settlementId rows (envelopeFor H cfg event) cursor rows' ∧
          ∀ res, r = .ok res → Revivable rows (envelopeFor H cfg event) →
            Recorded H cfg.settlementId rows' event := by
  have hcs : Ingests H db rows (envelopeFor H cfg event) cursor
      (ingestEvent H (envelopeFor H cfg event) cursor db) := ingestEvent_cases hfnd
  have hpassed : ∀ db' ∈ (ingestEvent H (envelopeFor H cfg event) cursor db).final ::
      (ingestEvent H (envelopeFor H cfg event) cursor db).visited,
      ∃ rows', db'.settlements[cfg.settlementId]? = some rows' ∧
        Ingested H cfg.settlementId rows (envelopeFor H cfg event) cursor rows' := by
    intro db' hdb'
    obtain ⟨rows', hwrt, honly⟩ := hcs.written hfnd db' hdb'
    refine ⟨rows', ?_, hwrt.ingested rfl hok hrg⟩
    have := honly cfg.settlementId
    rwa [if_pos (show (envelopeFor H cfg event).settlementId = cfg.settlementId from rfl)] at this
  refine ⟨fun db' hdb' => hpassed db' (List.mem_cons_of_mem _ hdb'), hcs.ne_conflict, ?_⟩
  obtain ⟨rows', hfnd', hing⟩ := hpassed _ List.mem_cons_self
  refine ⟨rows', hfnd', hing, ?_⟩
  intro res hres hclr
  obtain ⟨found, hfnd'', hrecd⟩ := hcs.recorded hfnd rfl hok hclr hres
  obtain rfl : found = rows' := Option.some.inj (hfnd''.symm.trans hfnd')
  exact hrecd

theorem drainPass_ensures (hbuf : ∀ env ∈ envs, Buffered H cfg env) :
    (drainPass H envs).Ensures db (fun db' => ∃ rows', Grown H cfg rows db' rows')
      fun r db' => r ≠ .error (.Store .RevisionConflict) ∧ (∃ rows', Grown H cfg rows db' rows') ∧
        ∀ p, r = .ok p → p.2 ⊆ envs := by
  induction envs generalizing db rows with
  | nil =>
    refine .pure ⟨by simp, ⟨rows, .refl hfnd hok⟩, ?_⟩
    intro p hp
    cases hp
    exact List.Subset.refl _
  | cons env rest ih =>
    obtain ⟨event, rfl, hevd⟩ := hbuf env List.mem_cons_self
    have hoth : ∀ fromHeight oldAnchor, event ≠ .ReorgInvalidated fromHeight oldAnchor := by
      rintro fromHeight oldAnchor rfl
      cases hevd
    obtain ⟨hvis, hrace, rows₁, hfnd₁, hing₁, -⟩ := ingestEvent_ensures hfnd hok event none
      fun fromHeight oldAnchor h => absurd h (hoth fromHeight oldAnchor)
    have hgrn₁ := hing₁.grown hfnd₁
    refine .bind ⟨fun db' hdb' => ?_, ?_, ?_⟩
    · obtain ⟨rows', hfnd', hing'⟩ := hvis db' hdb'
      exact ⟨rows', hing'.grown hfnd'⟩
    · intro result hres
      obtain ⟨hvis', hrace', ⟨rows₂, hgrn₂⟩, hsub⟩ := ih hfnd₁ hgrn₁.ok
        fun env henv => hbuf env (List.mem_cons_of_mem _ henv)
      refine .bind ⟨fun db' hdb' => ?_, ?_, ?_⟩
      · obtain ⟨rows', hgrn'⟩ := hvis' db' hdb'
        exact ⟨rows', hgrn₁.trans hgrn'⟩
      · intro p hp
        have hp₂ := hsub p hp
        dsimp only
        split
        · refine .pure ⟨by simp, ⟨rows₂, hgrn₁.trans hgrn₂⟩, ?_⟩
          intro q hq
          cases hq
          exact List.cons_subset_cons _ hp₂
        · refine .pure ⟨by simp, ⟨rows₂, hgrn₁.trans hgrn₂⟩, ?_⟩
          intro q hq
          cases hq
          exact fun env henv => List.mem_cons_of_mem _ (hp₂ henv)
      · intro e he
        refine ⟨fun h => hrace' (he.trans (by cases h; rfl)), ⟨rows₂, hgrn₁.trans hgrn₂⟩, nofun⟩
    · intro e he
      exact ⟨fun h => hrace (he.trans (by cases h; rfl)), ⟨rows₁, hgrn₁⟩, nofun⟩

theorem drainLoop_ensures (passes : Nat) (hbuf : ∀ env ∈ envs, Buffered H cfg env) :
    (drainLoop H passes envs).Ensures db (fun db' => ∃ rows', Grown H cfg rows db' rows')
      fun r db' => r ≠ .error (.Store .RevisionConflict) ∧ (∃ rows', Grown H cfg rows db' rows') ∧
        ∀ still, r = .ok still → still ⊆ envs := by
  induction passes generalizing db rows envs with
  | zero =>
    refine .pure ⟨by simp, ⟨rows, .refl hfnd hok⟩, ?_⟩
    intro still hstill
    cases hstill
    exact List.Subset.refl _
  | succ passes ih =>
    obtain ⟨hvis, hrace, ⟨rows₁, hgrn₁⟩, hsub⟩ := drainPass_ensures hfnd hok hbuf
    refine .bind ⟨hvis, ?_, ?_⟩
    · intro p hp
      have hp₁ := hsub p hp
      dsimp only
      split
      · refine .pure ⟨by simp, ⟨rows₁, hgrn₁⟩, ?_⟩
        intro still hstill
        cases hstill
        exact hp₁
      · obtain ⟨hvis', hrace', ⟨rows₂, hgrn₂⟩, hsub'⟩ := ih hgrn₁.found hgrn₁.ok
          fun env henv => hbuf env (hp₁ henv)
        refine ⟨fun db' hdb' => ?_, hrace', ⟨rows₂, hgrn₁.trans hgrn₂⟩, ?_⟩
        · obtain ⟨rows', hgrn'⟩ := hvis' db' hdb'
          exact ⟨rows', hgrn₁.trans hgrn'⟩
        · intro still hstill
          exact fun env henv => hp₁ (hsub' still hstill henv)
    · intro e he
      exact ⟨fun h => hrace (he.trans (by cases h; rfl)), ⟨rows₁, hgrn₁⟩, nofun⟩

omit hfnd hok

/-- A fact about the rows that lasts as long as they grow and the durable cursors stay. -/
def Stable (S : SettlementRows → Prop) : Prop :=
  ∀ rows rows', Grows rows rows' → (∀ chain : Digest32, rows'.cursors[chain]? = rows.cursors[chain]?) →
    S rows → S rows'

variable (H cfg) in
/-- The rows of the settlement are there, well formed, and satisfy `S`. -/
structure Stands (S : SettlementRows → Prop) (db : SettlementDb) (rows : SettlementRows) : Prop where
  found : db.settlements[cfg.settlementId]? = some rows
  ok : EvidenceOk H cfg.settlementId rows
  holds : S rows

variable (H cfg) in
/-- From `s` to `s'` the rows have grown and still satisfy `S`; scan position and waiting refunds are the same. -/
structure RowsKept (S : SettlementRows → Prop) (s : EngineState) (rows : SettlementRows) (s' : EngineState)
    (rows' : SettlementRows) : Prop where
  stands : Stands H cfg S s'.db rows'
  grows : Grows rows rows'
  scan : s'.memory.scanCursor = s.memory.scanCursor
  pending : s'.memory.pendingRefunds = s.memory.pendingRefunds
  buffer : ∀ env ∈ s'.memory.parked, Buffered H cfg env

variable {S : SettlementRows → Prop} {s s' s'' : EngineState}

theorem Stands.grown (hstb : Stable S) (h : Stands H cfg S db rows) (hgrn : Grown H cfg rows db' rows') :
    Stands H cfg S db' rows' :=
  ⟨hgrn.found, hgrn.ok, hstb _ _ hgrn.grows hgrn.cursors h.holds⟩

theorem RowsKept.trans (h : RowsKept H cfg S s rows s' rows') (h' : RowsKept H cfg S s' rows' s'' rows'') :
    RowsKept H cfg S s rows s'' rows'' :=
  ⟨h'.stands, h.grows.trans h'.grows, h'.scan.trans h.scan, h'.pending.trans h.pending, h'.buffer⟩

variable (hstb : Stable S) (hs : Stands H cfg S s.db rows) (hbuf : ∀ env ∈ s.memory.parked, Buffered H cfg env)

include hstb hs hbuf

theorem drainParked_ensures : (drainParked H).Ensures s (fun s' => ∃ rows', Stands H cfg S s'.db rows')
      fun r s' => r ≠ .error (.Store .RevisionConflict) ∧ ∃ rows', RowsKept H cfg S s rows s' rows' := by
  obtain ⟨hvis, hrace, ⟨rows₁, hgrn₁⟩, hsub⟩ :=
    drainLoop_ensures hs.found hs.ok (s.memory.parked.length + 1) hbuf
  have hstd₁ := hs.grown hstb hgrn₁
  refine .bind (.query ⟨?_, nofun⟩)
  intro parked hpk
  cases hpk
  refine .bind (.modify ⟨?_, nofun⟩)
  intro _ _
  refine .bind (.zoom ⟨fun db' hdb' => ?_, ?_, ?_⟩)
  · obtain ⟨rows', hgrn'⟩ := hvis db' hdb'
    exact ⟨rows', hs.grown hstb hgrn'⟩
  · intro still hstill
    refine .modify ⟨by simp, rows₁, hstd₁, hgrn₁.grows, rfl, rfl, ?_⟩
    intro env henv
    exact hbuf env (hsub still hstill henv)
  · intro e he
    refine ⟨fun h => hrace (he.trans (by cases h; rfl)), rows₁, hstd₁, hgrn₁.grows, rfl, rfl, ?_⟩
    intro env henv
    cases henv

variable (event) (cursor : Option CursorUpdateV1)
  (hcrs : ∀ rows', Ingested H cfg.settlementId rows (envelopeFor H cfg event) cursor rows' → S rows')
  (hrg : NoneParkedAbove rows event)

include hcrs hrg

theorem bufferIngest_ensures : (bufferIngest H (envelopeFor H cfg event) cursor).Ensures s (fun s' => ∃ rows', Stands H cfg S s'.db rows')
      fun r s' => r ≠ .error (.Store .RevisionConflict) ∧ ∃ rows', RowsKept H cfg S s rows s' rows' ∧
        ∀ res, r = .ok res → Revivable rows (envelopeFor H cfg event) →
          Recorded H cfg.settlementId rows' event := by
  have hcs : Ingests H s.db rows (envelopeFor H cfg event) cursor
      (ingestEvent H (envelopeFor H cfg event) cursor s.db) := ingestEvent_cases hs.found
  obtain ⟨hvis, hrace, rows₁, hfnd₁, hing₁, hrecd₁⟩ :=
    ingestEvent_ensures hs.found hs.ok event cursor hrg
  have hstd₁ : Stands H cfg S (ingestEvent H (envelopeFor H cfg event) cursor s.db).final rows₁ :=
    ⟨hfnd₁, hing₁.ok, hcrs _ hing₁⟩
  have hkept₁ : RowsKept H cfg S s rows
      (s.setDb (ingestEvent H (envelopeFor H cfg event) cursor s.db).final) rows₁ :=
    ⟨hstd₁, hing₁.grows, rfl, rfl, hbuf⟩
  refine .bind (.zoom ⟨fun db' hdb' => ?_, ?_, ?_⟩)
  · obtain ⟨rows', hfnd', hing'⟩ := hvis db' hdb'
    exact ⟨rows', hfnd', hing'.ok, hcrs _ hing'⟩
  · intro res hres
    have hrecd := hrecd₁ res hres
    cases hkind : res with
    | ParkedForReorder =>
      refine .bind (.modify ⟨fun _ _ => ?_, nofun⟩)
      -- the envelope is parked only when it carries evidence
      have hevd : (acceptedEvidence event).isSome := hcs.evidence_of_parked (hkind ▸ hres)
      refine .pure ⟨by simp, rows₁, ⟨?_, ?_, ?_, ?_, ?_⟩, fun _ _ => hrecd⟩
      · split
        · exact hstd₁
        · exact hstd₁
      · exact hing₁.grows
      · split <;> rfl
      · split <;> rfl
      · split
        · exact hbuf
        · intro env henv
          have hmem : env ∈ s.memory.parked ++ [envelopeFor H cfg event] :=
            (List.mergeSort_perm _ _).mem_iff.mp henv
          rcases List.mem_append.mp hmem with henv | henv
          · exact hbuf env henv
          · rw [List.mem_singleton.mp henv]
            exact ⟨event, rfl, hevd⟩
    | Committed revision =>
      obtain ⟨hvis', hrace', rows₂, hkept₂⟩ := drainParked_ensures hstb hkept₁.stands hkept₁.buffer
      have hkept := hkept₁.trans hkept₂
      refine .bind ⟨hvis', fun _ _ => ?_, fun e he => ?_⟩
      · exact .pure ⟨by simp, rows₂, hkept, fun _ _ hclr => (hrecd hclr).grows hkept₂.grows⟩
      · exact ⟨fun h => hrace' (he.trans (by cases h; rfl)), rows₂, hkept, nofun⟩
    | Duplicate | LateNoEconomicEffect =>
      exact .pure ⟨by simp, rows₁, hkept₁, fun _ _ => hrecd⟩
  · intro e he
    exact ⟨fun h => hrace (he.trans (by cases h; rfl)), rows₁, hkept₁, nofun⟩

/-- **Ingesting one event.**  With one writer the race for the revision is never lost, so the event is recorded when
    the ingest succeeds; the rows grow, and whatever `S` a commit under this cursor keeps is kept. -/
theorem ingest_ensures : (ingest H cfg event cursor).Ensures s (fun s' => ∃ rows', Stands H cfg S s'.db rows')
      fun r s' => r ≠ .ok none ∧ ∃ rows', RowsKept H cfg S s rows s' rows' ∧
        ∀ res, r = .ok (some res) → Revivable rows (envelopeFor H cfg event) →
          Recorded H cfg.settlementId rows' event := by
  obtain ⟨hvis, hrace, rows₁, hkept₁, hrecd⟩ :=
    bufferIngest_ensures event hstb hs hbuf cursor hcrs hrg
  refine .bind (.attempt ⟨hvis, ?_, nofun⟩)
  intro outcome houtcome
  cases houtcome
  cases hr : (bufferIngest H (envelopeFor H cfg event) cursor s).result with
  | ok res =>
    refine .bind (.modify ⟨fun _ _ => ?_, nofun⟩)
    exact .pure ⟨by simp, rows₁, ⟨hkept₁.stands, hkept₁.grows, hkept₁.scan, hkept₁.pending, hkept₁.buffer⟩,
      fun _ _ => hrecd res hr⟩
  | error e =>
    have hne : e ≠ .Store .RevisionConflict := fun h => hrace (by rw [hr, h])
    dsimp only
    rw [if_neg hne]
    exact .fail ⟨nofun, rows₁, hkept₁, nofun⟩

end Programs

end DomProtocol
