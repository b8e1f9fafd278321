import DomProtocol.Lib.Durable
import DomProtocol.Lib.Table
import DomProtocol.Settlement.Encoding

/-!
# `Settlement.Store` — the durable settlement store

The rows of the settlement tables and the operations on them.  Each operation is one transaction, so it is a
function from the database to its result and the database after it; an error leaves the database as it was.
The rows of one settlement are kept together, the outbox is shared by all settlements.
-/

namespace DomProtocol

open Lib

/-! ## Rows -/

/-- Exclusive bound of the integers a column holds. -/
def i64Bound : Nat := 2 ^ 63

inductive EvidenceStatus where
  | Parked
  | Applied
  | Invalidated
  deriving DecidableEq, Repr

structure EvidenceRow where
  reference : EvidenceRefV1
  status : EvidenceStatus
  firstSeenSeq : Nat
  deriving DecidableEq, Repr

structure SettlementJournalRow where
  seq : Nat
  expectedRevision : UInt64
  resultingRevision : UInt64
  eventId : Digest32
  eventKind : Nat
  eventBytes : List UInt8
  contextHash : Digest32
  deriving DecidableEq, Repr

structure StoredCursor where
  cursorBytes : List UInt8
  anchorHeight : Option UInt64
  anchorHash : Option Digest32
  revision : UInt64
  deriving DecidableEq, Repr

/-- The rows of one settlement.  The snapshot's context column is kept decoded. -/
structure SettlementRows where
  sessionId : Digest32
  termsHash : Digest32
  canonicalTerms : List UInt8
  context : SettlementContext
  lastEventSeq : Nat
  journal : List SettlementJournalRow
  evidence : Table Digest32 EvidenceRow
  cursors : Table Digest32 StoredCursor
  terminal : Option (SettlementState × Digest32 × UInt64)
  late : Table Digest32 SettlementState

structure OutboxRow where
  settlementId : Digest32
  effect : OutboxEffectV1
  sourceSeq : Nat
  completed : Bool
  attempts : Nat
  leaseUntil : Option Int
  deriving DecidableEq

structure ClaimedEffectV1 where
  settlementId : Digest32
  effectId : Digest32
  kind : Effect
  payload : List UInt8
  payloadHash : Digest32
  attempts : Nat
  deriving DecidableEq

def OutboxRow.claimed (row : OutboxRow) : ClaimedEffectV1 :=
  ⟨row.settlementId, row.effect.effectId, row.effect.kind, row.effect.payload, row.effect.payloadHash,
    row.attempts + 1⟩

structure SettlementDb where
  settlements : Table Digest32 SettlementRows
  outbox : List OutboxRow

def SettlementDb.empty : SettlementDb := ⟨∅, []⟩

inductive StoreError where
  | IdempotencyConflict
  | RevisionConflict
  | NotFound
  | CorruptState
  | CounterOverflow
  | Sqlite
  deriving DecidableEq, Repr

inductive StorePortError where
  | Storage (e : StoreError)
  | UnknownVersion
  | Equivocation
  | RevisionConflict
  | CorruptContext
  | CorruptEvent
  | Overflow
  deriving DecidableEq, Repr

def fitsI64 (n : Nat) : Except StorePortError Unit :=
  rejectIf (¬ n < i64Bound) (.Storage .CounterOverflow)

namespace SettlementRows

/-! ## Reads -/

variable (rows : SettlementRows)

/-- The journal row of an event identifier. -/
def journalled (eventId : Digest32) : Option SettlementJournalRow :=
  rows.journal.find? fun row => row.eventId = eventId

/-- The evidence row of an identifier, when a reorg has invalidated it. -/
def isInvalidated (evidenceId : Digest32) : Bool :=
  rows.evidence[evidenceId]?.any fun row => row.status = .Invalidated

/-- Order of evidence on its chain: block height, index in the block, transaction. -/
def chainKeyLe (a b : UInt64 × UInt32 × Digest32) : Bool :=
  a.1 < b.1 || (a.1 == b.1 && (a.2.1 < b.2.1 || (a.2.1 == b.2.1 && a.2.2.toNat ≤ b.2.2.toNat)))

/-- The evidence rows with one status, in chain order. -/
def evidenceWith (status : EvidenceStatus) : List (Digest32 × EvidenceRefV1) :=
  ((rows.evidence.toList.filter fun entry => entry.2.status = status).map
    fun entry => (entry.1, entry.2.reference)).mergeSort fun a b =>
      chainKeyLe (a.2.blockHeight, a.2.eventIndex, a.2.txId) (b.2.blockHeight, b.2.eventIndex, b.2.txId)

/-! ## Updates of the evidence table -/

def setStatus (evidenceId : Digest32) (status : EvidenceStatus) : SettlementRows :=
  match rows.evidence[evidenceId]? with
  | some row => { rows with evidence := rows.evidence.insert evidenceId { row with status := status } }
  | none => rows

/-- Back from invalidated to applied; any other row stays. -/
def reaffirm (evidenceId : Digest32) : SettlementRows :=
  if rows.isInvalidated evidenceId then rows.setStatus evidenceId .Applied else rows

/-- Every row at or above `fromHeight` becomes invalidated. -/
def invalidateFrom (fromHeight : UInt64) : SettlementRows :=
  { rows with evidence := rows.evidence.map fun _ row =>
      if fromHeight ≤ row.reference.blockHeight then { row with status := .Invalidated } else row }

/-- Record evidence as applied: a new row, or the status of the one that is there. -/
def applyEvidence (evidenceId : Digest32) (reference : EvidenceRefV1) (seq : Nat) : SettlementRows :=
  match rows.evidence[evidenceId]? with
  | some _ => rows.setStatus evidenceId .Applied
  | none => { rows with evidence := rows.evidence.insert evidenceId ⟨reference, .Applied, seq⟩ }

end SettlementRows

/-! ## Transactions -/

variable {u : Unit} {fromHeight expectedRevision : UInt64} {evidence : EvidenceRefV1}
  {evidenceId journalId : Digest32} {reapplying : Bool} {r : CommitResult}

namespace SettlementDb

def putRows (db : SettlementDb) (id : Digest32) (rows : SettlementRows) : SettlementDb :=
  { db with settlements := db.settlements.insert id rows }

/-- Create a settlement; presenting the same binding again is accepted and changes nothing. -/
def create (settlementId sessionId termsHash : Digest32) (canonicalTerms : List UInt8) (db : SettlementDb) :
    Except StorePortError (Unit × SettlementDb) :=
  match db.settlements[settlementId]? with
  | some rows =>
    if rows.sessionId ≠ sessionId ∨ rows.termsHash ≠ termsHash ∨ rows.canonicalTerms ≠ canonicalTerms then
      .error .Equivocation
    else .ok ((), db)
  | none =>
    if db.settlements.toList.any fun entry => entry.2.sessionId = sessionId then .error (.Storage .Sqlite)
    else .ok ((), db.putRows settlementId
      ⟨sessionId, termsHash, canonicalTerms, .new, 0, [], ∅, ∅, none, ∅⟩)

/-- Mark evidence at or above `fromHeight` invalidated by a reorg. -/
def invalidateEvidenceFrom (settlementId : Digest32) (fromHeight : UInt64) (db : SettlementDb) :
    Except StorePortError (Unit × SettlementDb) := do
  fitsI64 fromHeight.toNat
  match db.settlements[settlementId]? with
  | some rows => return ((), db.putRows settlementId (rows.invalidateFrom fromHeight))
  | none => return ((), db)

/-- Mark an invalidated evidence row as applied again. -/
def reaffirmEvidence (settlementId evidenceId : Digest32) (db : SettlementDb) :
    Except StorePortError (Unit × SettlementDb) :=
  match db.settlements[settlementId]? with
  | some rows => .ok ((), db.putRows settlementId (rows.reaffirm evidenceId))
  | none => .ok ((), db)

/-- Record evidence that came after the end, by identifier only; a second record is ignored. -/
def recordLateEvidence (settlementId evidenceId : Digest32) (terminal : SettlementState) (db : SettlementDb) :
    Except StorePortError (Unit × SettlementDb) :=
  match db.settlements[settlementId]? with
  | some rows => .ok ((), db.putRows settlementId { rows with late := rows.late.insertIfNew evidenceId terminal })
  | none => .error (.Storage .Sqlite)

inductive ParkResult where
  | Parked
  | AlreadyParked
  deriving DecidableEq, Repr

/-- Park evidence for reordering.  A row that is there already stays as it is, whatever its status. -/
def parkEvidence (settlementId evidenceId : Digest32) (evidence : EvidenceRefV1) (db : SettlementDb) :
    Except StorePortError (ParkResult × SettlementDb) :=
  match db.settlements[settlementId]? with
  | none => .error (.Storage .NotFound)
  | some rows =>
    match rows.evidence[evidenceId]? with
    | some row => if row.reference = evidence then .ok (.AlreadyParked, db) else .error .Equivocation
    | none => do
        fitsI64 evidence.blockHeight.toNat
        return (.Parked, db.putRows settlementId
          { rows with evidence := rows.evidence.insert evidenceId ⟨evidence, .Parked, rows.lastEventSeq⟩ })

/-! ## The commit of a transition -/

inductive CommitResult where
  | Committed (revision : UInt64)
  | DuplicateSameBytes
  deriving DecidableEq, Repr

variable (H : List UInt8 → Digest32)

/-- The rows with the transition written: journal, snapshot, evidence, cursor and terminal outcome. -/
def writeTransition (rows : SettlementRows) (journalId : Digest32) (env : EventEnvelopeV1) (t : Transition)
    (cursor : Option CursorUpdateV1) : SettlementRows :=
  let seq := rows.lastEventSeq + 1
  let written : SettlementRows :=
    { rows with
      journal := rows.journal ++ [⟨seq, rows.context.revision, t.next.revision, journalId, eventKind env.event,
        env.canonicalBytes, contextHash H t.next⟩]
      context := t.next
      lastEventSeq := seq }
  let evidenced : SettlementRows :=
    match acceptedEvidence env.event with
    | some evidence => written.applyEvidence env.eventId evidence seq
    | none => written
  { evidenced with
    cursors :=
      match cursor with
      | some c => evidenced.cursors.insert c.chainId
          ⟨c.cursorBytes, c.anchorHeight.filter (·.toNat < i64Bound), c.anchorHash, t.next.revision⟩
      | none => evidenced.cursors
    terminal := if t.next.state.isTerminal then some (t.next.state, env.eventId, t.next.revision)
      else evidenced.terminal }

/-- Append the effects of a transition to the outbox.  A refresh keeps the rows that are there. -/
def writeOutbox (outbox : List OutboxRow) (settlementId : Digest32) (seq : Nat) (reapplying : Bool) :
    List OutboxEffectV1 → Except StorePortError (List OutboxRow)
  | [] => .ok outbox
  | effect :: effects =>
    if outbox.any fun row => row.settlementId = settlementId ∧ row.effect.effectId = effect.effectId then
      if reapplying then writeOutbox outbox settlementId seq reapplying effects else .error (.Storage .Sqlite)
    else writeOutbox (outbox ++ [⟨settlementId, effect, seq, false, 0, none⟩]) settlementId seq reapplying effects

/-- The height of the evidence an event carries fits its column. -/
def evidenceFits (event : SettlementEvent) : Except StorePortError Unit :=
  match acceptedEvidence event with
  | some evidence => fitsI64 evidence.blockHeight.toNat
  | none => .ok ()

/-- Write an accepted transition under the journal identity `journalId`. -/
def appendTransition (db : SettlementDb) (rows : SettlementRows) (expectedRevision : UInt64) (journalId : Digest32)
    (reapplying : Bool) (env : EventEnvelopeV1) (t : Transition) (effects : List OutboxEffectV1)
    (cursor : Option CursorUpdateV1) : Except StorePortError (CommitResult × SettlementDb) := do
  rejectIf (rows.context.revision ≠ expectedRevision) StorePortError.RevisionConflict
  fitsI64 (rows.lastEventSeq + 1)
  fitsI64 expectedRevision.toNat
  fitsI64 t.next.revision.toNat
  rejectIf ((rows.journalled journalId).isSome) (StorePortError.Storage .Sqlite)
  evidenceFits env.event
  let outbox ← writeOutbox db.outbox env.settlementId (rows.lastEventSeq + 1) reapplying effects
  rejectIf (t.next.state.isTerminal = true ∧ rows.terminal.isSome = true) (StorePortError.Storage .Sqlite)
  return (.Committed t.next.revision,
    { db.putRows env.settlementId (writeTransition H rows journalId env t cursor) with outbox := outbox })

/-- Commit one accepted transition.  An event that is journalled already is a duplicate, unless it carries
    evidence a reorg had invalidated: then the same bytes are applied once more, as a refresh. -/
def commitTransition (expectedRevision : UInt64) (env : EventEnvelopeV1) (t : Transition)
    (effects : List OutboxEffectV1) (cursor : Option CursorUpdateV1) (db : SettlementDb) :
    Except StorePortError (CommitResult × SettlementDb) := do
  rejectIf (env.protocolVersion ≠ protocolVersion) StorePortError.UnknownVersion
  let rows ← okOr db.settlements[env.settlementId]? (StorePortError.Storage .NotFound)
  match rows.journalled env.eventId with
  | none => appendTransition H db rows expectedRevision env.eventId false env t effects cursor
  | some row =>
    rejectIf (row.eventBytes ≠ env.canonicalBytes) StorePortError.Equivocation
    if (acceptedEvidence env.event).isSome && rows.isInvalidated env.eventId then
      appendTransition H db rows expectedRevision (refreshEventId H env.eventId t.next.revision) true env t
        effects cursor
    else return (.DuplicateSameBytes, db)

/-! ## The outbox -/

/-- Claim up to `max` entries of any settlement that are not completed and not under a running lease. -/
def readyOutbox (now leaseMs : Int) (max : Nat) (db : SettlementDb) :
    Except StorePortError (List ClaimedEffectV1 × SettlementDb) := do
  let ready := ((db.outbox.filter fun row => row.completed = false ∧ row.leaseUntil.all (· ≤ now)).mergeSort
    fun a b => a.sourceSeq ≤ b.sourceSeq).take max
  rejectIf (¬ (-(i64Bound : Int) ≤ now + leaseMs ∧ now + leaseMs < i64Bound)) (StorePortError.Storage .CounterOverflow)
  return (ready.map OutboxRow.claimed,
    { db with outbox := db.outbox.map fun row =>
        if ready.any fun r => r.settlementId = row.settlementId ∧ r.effect.effectId = row.effect.effectId then
          { row with leaseUntil := some (now + leaseMs), attempts := row.attempts + 1 }
        else row })

/-- Mark an entry completed; a second completion changes nothing. -/
def completeEffect (effectId expectedPayloadHash : Digest32) (db : SettlementDb) :
    Except StorePortError (Unit × SettlementDb) :=
  match db.outbox.find? fun row => row.effect.effectId = effectId with
  | none => .error (.Storage .NotFound)
  | some row =>
    if row.effect.payloadHash ≠ expectedPayloadHash then .error .Equivocation
    else if row.completed then .ok ((), db)
    else .ok ((), { db with outbox := db.outbox.map fun r =>
      if r.effect.effectId = effectId then { r with completed := true, leaseUntil := none } else r })

/-! ## What each transaction writes -/

section Specs

variable {H} {db db' : SettlementDb} {id : Digest32} {rows : SettlementRows}

theorem settlements_putRows (db : SettlementDb) (id a : Digest32) (rows : SettlementRows) :
    (db.putRows id rows).settlements[a]? = if id = a then some rows else db.settlements[a]? :=
  getElem?_insert db.settlements id a rows

theorem fitsI64_eq_ok {n : Nat} : fitsI64 n = .ok u ↔ n < i64Bound := by
  simp [fitsI64]

theorem fitsI64_ne_conflict (n : Nat) : fitsI64 n ≠ .error .RevisionConflict := by
  simp [fitsI64, rejectIf_eq_error]

variable (hrows : db.settlements[id]? = some rows)
include hrows

theorem invalidateEvidenceFrom_eq_ok : invalidateEvidenceFrom id fromHeight db = .ok (u, db') ↔
      fromHeight.toNat < i64Bound ∧ db' = db.putRows id (rows.invalidateFrom fromHeight) := by
  simp [invalidateEvidenceFrom, fitsI64_eq_ok, hrows, @eq_comm _ db']

theorem invalidateEvidenceFrom_ne_conflict : invalidateEvidenceFrom id fromHeight db ≠ .error .RevisionConflict := by
  simp [invalidateEvidenceFrom, bind_eq_error, hrows, fitsI64_ne_conflict, pure, Except.pure]

theorem reaffirmEvidence_eq (evidenceId : Digest32) :
    reaffirmEvidence id evidenceId db = .ok ((), db.putRows id (rows.reaffirm evidenceId)) := by
  simp [reaffirmEvidence, hrows]

theorem recordLateEvidence_eq (evidenceId : Digest32) (state : SettlementState) :
    recordLateEvidence id evidenceId state db =
      .ok ((), db.putRows id { rows with late := rows.late.insertIfNew evidenceId state }) := by
  simp [recordLateEvidence, hrows]

theorem parkEvidence_eq_ok {r : ParkResult} : parkEvidence id evidenceId evidence db = .ok (r, db') ↔
      (r = .AlreadyParked ∧ db' = db ∧ ∃ row, rows.evidence[evidenceId]? = some row ∧ row.reference = evidence) ∨
      (r = .Parked ∧ rows.evidence[evidenceId]? = none ∧ evidence.blockHeight.toNat < i64Bound ∧ db' = db.putRows id
          { rows with evidence := rows.evidence.insert evidenceId ⟨evidence, .Parked, rows.lastEventSeq⟩ }) := by
  cases hrow : rows.evidence[evidenceId]? with
  | none =>
    simp only [parkEvidence, hrows, hrow, inversion, fitsI64_eq_ok, Prod.mk.injEq]
    grind
  | some row =>
    by_cases href : row.reference = evidence
    · simp [parkEvidence, hrows, hrow, href, eq_comm]
    · simp [parkEvidence, hrows, hrow, href]

omit hrows

theorem parkEvidence_ne_conflict : parkEvidence id evidenceId evidence db ≠ .error .RevisionConflict := by
  unfold parkEvidence
  split
  · simp
  · split
    · split <;> simp
    · simp [map_eq_error, fitsI64_ne_conflict]

/-- What an append writes, and what it has checked. -/
structure Appended (H : List UInt8 → Digest32) (db : SettlementDb) (rows : SettlementRows) (journalId : Digest32)
    (env : EventEnvelopeV1) (t : Transition) (cursor : Option CursorUpdateV1) (db' : SettlementDb) : Prop where
  unjournalled : rows.journalled journalId = none
  notFinal : t.next.state.isTerminal = true → rows.terminal = none
  seqFits : rows.lastEventSeq + 1 < i64Bound
  settlements : db'.settlements =
    db.settlements.insert env.settlementId (writeTransition H rows journalId env t cursor)

variable {env : EventEnvelopeV1} {t : Transition} {effects : List OutboxEffectV1} {cursor : Option CursorUpdateV1}

theorem appended_of_ok
    (h : appendTransition H db rows expectedRevision journalId reapplying env t effects cursor = .ok (r, db')) :
    r = .Committed t.next.revision ∧ Appended H db rows journalId env t cursor db' := by
  simp only [appendTransition, inversion, fitsI64_eq_ok, Prod.mk.injEq]
    at h
  obtain ⟨-, hseq, -, -, hjour, -, outbox, -, hterm, rfl, rfl⟩ := h
  refine ⟨rfl, by simpa using hjour, fun ht => ?_, hseq, rfl⟩
  simpa [ht] using hterm

theorem writeOutbox_ne_conflict (outbox : List OutboxRow) (id : Digest32) (seq : Nat) (reapplying : Bool)
    (effects : List OutboxEffectV1) : writeOutbox outbox id seq reapplying effects ≠ .error .RevisionConflict := by
  induction effects generalizing outbox with
  | nil => simp [writeOutbox]
  | cons effect effects ih =>
    unfold writeOutbox
    split
    · split
      · exact ih outbox
      · simp
    · exact ih _

theorem appendTransition_ne_conflict :
    appendTransition H db rows rows.context.revision journalId reapplying env t effects cursor ≠
      .error .RevisionConflict := by
  have hevd : evidenceFits env.event ≠ .error .RevisionConflict := by
    unfold evidenceFits
    split
    · exact fitsI64_ne_conflict _
    · simp
  simp [appendTransition, bind_eq_error, map_eq_error, rejectIf_eq_error, fitsI64_ne_conflict,
    writeOutbox_ne_conflict, hevd]

theorem commitTransition_ne_conflict (hrows : db.settlements[env.settlementId]? = some rows) :
    commitTransition H rows.context.revision env t effects cursor db ≠ .error .RevisionConflict := by
  intro h
  simp only [commitTransition, bind_eq_error, rejectIf_eq_error, rejectIf_eq_ok, okOr_eq_error, okOr_eq_ok, hrows,
    exists_unit, Option.some.injEq, exists_eq_left'] at h
  obtain ⟨-, h⟩ | ⟨-, ⟨h, -⟩ | h⟩ := h
  · cases h
  · cases h
  · split at h
    · exact appendTransition_ne_conflict h
    · simp only [bind_eq_error, rejectIf_eq_error, exists_unit] at h
      obtain ⟨-, h⟩ | ⟨-, h⟩ := h
      · cases h
      · split at h
        · exact appendTransition_ne_conflict h
        · cases h

/-- **The commit of a transition**: either the event is a duplicate and nothing is written, or the transition is
    appended, under the event's own identity the first time and as a refresh of invalidated evidence after. -/
theorem commitTransition_cases (hrows : db.settlements[env.settlementId]? = some rows) (h : commitTransition H expectedRevision env t effects cursor db = .ok (r, db')) :
    (r = .DuplicateSameBytes ∧ db' = db ∧ (rows.journalled env.eventId).isSome) ∨ r = .Committed t.next.revision ∧
        (Appended H db rows env.eventId env t cursor db' ∨
          Appended H db rows (refreshEventId H env.eventId t.next.revision) env t cursor db' ∧
            rows.isInvalidated env.eventId = true ∧ (rows.journalled env.eventId).isSome) := by
  simp only [commitTransition, inversion, hrows, Option.some.injEq, exists_eq_left'] at h
  obtain ⟨-, h⟩ := h
  cases hjour : rows.journalled env.eventId with
  | none =>
    rw [hjour] at h
    obtain ⟨rfl, happ⟩ := appended_of_ok h
    exact .inr ⟨rfl, .inl happ⟩
  | some row =>
    simp only [hjour, inversion] at h
    obtain ⟨-, h⟩ := h
    split at h
    · rename_i hinv
      obtain ⟨rfl, happ⟩ := appended_of_ok h
      refine .inr ⟨rfl, .inr ⟨happ, ?_, rfl⟩⟩
      exact (Bool.and_eq_true_iff.mp hinv).2
    · cases h
      exact .inl ⟨rfl, rfl, rfl⟩

end Specs

end SettlementDb

end DomProtocol
