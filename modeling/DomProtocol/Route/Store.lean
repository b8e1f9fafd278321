import Mathlib.Data.List.Sort
import DomProtocol.Route.Codec

/-!
# `Route.Store` — the durable route store

Snapshots, leases, the event journal, the outbox of effects and the timers of the routes.  Every table is keyed by the
route first and every statement names its route, so the store keeps the rows of each route together.  An operation is
one transaction: it returns the rows it commits, or an error and no rows.
-/

namespace DomProtocol.Route

open Lib

/-! ## Rows -/

inductive RouteStoreErrorV1 where
  | StorageUnavailable
  | InvalidMaterial
  | TransitionRejected
  | RouteNotFound
  | RouteAlreadyExists
  | RevisionConflict
  | IdempotencyConflict
  | LeaseHeld
  | StaleFencing
  | LeaseExpired
  | InvalidBound
  | CorruptState
  | EffectNotFound
  | TimerNotFound
  | DispatchLeaseMismatch
  deriving DecidableEq, Repr

structure SnapshotRow where
  initialSnapshotBytes : List UInt8
  initialSnapshotHash : Digest32
  snapshotBytes : List UInt8
  snapshotHash : Digest32
  revision : UInt64
  lastEventSeq : UInt64
  deriving DecidableEq, Repr

structure LeaseRow where
  ownerId : Digest32
  fencingEpoch : UInt64
  leaseUntilUnixMs : UInt64
  deriving DecidableEq, Repr

structure JournalRow where
  sequence : UInt64
  eventId : Digest32
  eventBytes : List UInt8
  eventHash : Digest32
  expectedRevision : UInt64
  resultingRevision : UInt64
  fencingEpoch : UInt64
  snapshotHash : Digest32
  previousEntryHash : Digest32
  entryHash : Digest32
  deriving DecidableEq, Repr

/-- `status_tag`: of effects 0, 1, 2 are pending, completed and superseded, of timers pending, completed and cancelled. -/
inductive RowStatus where
  | Pending
  | Completed
  | Withdrawn
  deriving DecidableEq, Repr

inductive DispatchClass where
  | Runner
  | ExternalCustody
  deriving DecidableEq, Repr

/-- The two dispatch columns, which are null together. -/
structure DispatchLease where
  owner : Digest32
  untilUnixMs : UInt64
  deriving DecidableEq, Repr

structure OutboxRow where
  effectId : Digest32
  sourceSequence : UInt64
  fencingEpoch : UInt64
  priorityRank : Nat
  dispatchClass : DispatchClass
  effectBytes : List UInt8
  effectHash : Digest32
  status : RowStatus
  attempts : UInt64
  dispatchLease : Option DispatchLease
  deriving DecidableEq, Repr

structure TimerRow where
  timerId : Digest32
  sourceSequence : UInt64
  fencingEpoch : UInt64
  deadlineUnixMs : UInt64
  timerBytes : List UInt8
  timerHash : Digest32
  status : RowStatus
  attempts : UInt64
  dispatchLease : Option DispatchLease
  deriving DecidableEq, Repr

structure RouteRows where
  snapshot : Option SnapshotRow
  lease : Option LeaseRow
  journal : List JournalRow
  outbox : List OutboxRow
  timers : List TimerRow
  deriving DecidableEq, Repr

def RouteRows.none : RouteRows := ⟨.none, .none, [], [], []⟩

/-- Exact route lease and signer fencing capability. -/
structure RouteLeaseV1 where
  routeId : Digest32
  ownerId : Digest32
  fencingEpoch : UInt64
  leaseUntilUnixMs : UInt64
  deriving DecidableEq, Repr

inductive LeaseAcquireOutcomeV1 where
  | Acquired (lease : RouteLeaseV1)
  | AlreadyOwned (lease : RouteLeaseV1)
  deriving DecidableEq, Repr

/-- Outcome of one idempotent route event commit. -/
inductive CommitOutcomeV1 where
  | Committed (revision : UInt64) (effectsCreated timersCreated : Nat)
  | DuplicateSameBytes (revision : UInt64)
  deriving DecidableEq, Repr

structure ClaimedRouteEffectV1 where
  effect : RouteEffectV1
  effectHash : Digest32
  attempts : UInt64
  dispatchLeaseUntilUnixMs : UInt64
  deriving DecidableEq, Repr

/-- Claimed external-custody request: public identities and commitments only. -/
structure ClaimedExternalCustodyEffectV1 where
  routeId : Digest32
  effectId : Digest32
  fencingEpoch : UInt64
  leg : LegIdV1
  kind : ActionKindV1
  priority : EffectPriorityV1
  semanticDigest : Digest32
  containsRouteSecret : Bool
  custodyDigest : Digest32
  transactionId : Digest32
  attempts : UInt64
  dispatchLeaseUntilUnixMs : UInt64
  deriving DecidableEq, Repr

/-- Exactly one claimed item from the unified route outbox. -/
inductive ClaimedRouteWorkV1 where
  | Runner (claimed : ClaimedRouteEffectV1)
  | ExternalCustody (claimed : ClaimedExternalCustodyEffectV1)
  deriving DecidableEq, Repr

namespace ClaimedRouteWorkV1

def effectId : ClaimedRouteWorkV1 → Digest32
  | Runner claimed => claimed.effect.effectId
  | ExternalCustody claimed => claimed.effectId

def fencingEpoch : ClaimedRouteWorkV1 → UInt64
  | Runner claimed => claimed.effect.fencingEpoch
  | ExternalCustody claimed => claimed.fencingEpoch

def leg : ClaimedRouteWorkV1 → LegIdV1
  | Runner claimed => claimed.effect.leg
  | ExternalCustody claimed => claimed.leg

def kind : ClaimedRouteWorkV1 → ActionKindV1
  | Runner claimed => claimed.effect.kind
  | ExternalCustody claimed => claimed.kind

end ClaimedRouteWorkV1

structure ClaimedRouteTimerV1 where
  timer : RouteTimerV1
  timerHash : Digest32
  attempts : UInt64
  dispatchLeaseUntilUnixMs : UInt64
  deriving DecidableEq, Repr

inductive CompletionOutcomeV1 where
  | Completed
  | AlreadyCompleted
  deriving DecidableEq, Repr

/-! ## Bounds and statements -/

abbrev StoreM := Except RouteStoreErrorV1

def coded {α : Type} (x : Except CodecErrorV1 α) : StoreM α := x.mapError fun _ => .InvalidMaterial

/-- A value that fits into an SQL integer. -/
def toSqlU64 (value : UInt64) : StoreM Unit := rejectIf (2 ^ 63 ≤ value.toNat) .InvalidBound

def validateIdentity (value : Digest32) : StoreM Unit := rejectIf (value = 0) .InvalidMaterial

def maxLeaseDurationMs : UInt64 := 86400000

def maxClaimBatch : Nat := 64

def validateClaimLimit (limit : Nat) : StoreM Unit := rejectIf (limit = 0 ∨ maxClaimBatch < limit) .InvalidBound

def leaseDeadline (now duration : UInt64) : StoreM UInt64 := do
  rejectIf (duration = 0 ∨ maxLeaseDurationMs < duration) .InvalidBound
  rejectIf (u64Bound ≤ now.toNat + duration.toNat) .InvalidBound
  toSqlU64 (now + duration)
  return now + duration

def dispatchDeadline (lease : RouteLeaseV1) (now duration : UInt64) : StoreM UInt64 := do
  let deadline ← leaseDeadline now duration
  rejectIf (lease.leaseUntilUnixMs < deadline) .InvalidBound
  return deadline

/-- An update that has to change exactly one row. -/
def updateOne {α : Type} (wanted : α → Bool) (f : α → α) (e : RouteStoreErrorV1) (rows : List α) : StoreM (List α) := do
  rejectIf (rows.countP wanted ≠ 1) e
  return rows.map fun row => if wanted row then f row else row

/-- Whether no dispatch lease of a row is running. -/
def isFree (lease : Option DispatchLease) (now : UInt64) : Bool := lease.all (·.untilUnixMs < now)

/-! ## Hashes -/

variable (H : List UInt8 → Digest32)

def snapshotHash (bytes : List UInt8) : Digest32 := domainDigest H "DOM-ROUTE-SNAPSHOT-V1" [bytes]

def effectHashValue (bytes : List UInt8) : Digest32 := domainDigest H "DOM-ROUTE-EFFECT-V1" [bytes]

def timerHashValue (bytes : List UInt8) : Digest32 := domainDigest H "DOM-ROUTE-TIMER-V1" [bytes]

def initialJournalHash (routeId initialSnapshotHash : Digest32) : Digest32 :=
  domainDigest H "DOM-ROUTE-JOURNAL-GENESIS-V1" [hashBytes routeId, hashBytes initialSnapshotHash]

structure JournalEntryHashInputV1 where
  previous : Digest32
  routeId : Digest32
  sequence : UInt64
  expectedRevision : UInt64
  resultingRevision : UInt64
  eventId : Digest32
  eventHash : Digest32
  resultingSnapshotHash : Digest32
  fencingEpoch : UInt64

def journalEntryHash (input : JournalEntryHashInputV1) : Digest32 :=
  domainDigest H "DOM-ROUTE-JOURNAL-ENTRY-V1"
    [hashBytes input.previous, hashBytes input.routeId, encodeU64 input.sequence, encodeU64 input.expectedRevision,
      encodeU64 input.resultingRevision, hashBytes input.eventId, hashBytes input.eventHash,
      hashBytes input.resultingSnapshotHash, encodeU64 input.fencingEpoch]

/-! ## Routes and leases -/

/-- Create the sole valid initial snapshot for a route. -/
def createRoute (routeId : Digest32) (now : UInt64) (rows : RouteRows) : StoreM (RouteSnapshotV1 × RouteRows) := do
  let snapshot ← coded (RouteSnapshotV1.new routeId)
  let bytes ← coded snapshot.encodeCanonical
  toSqlU64 now
  rejectIf rows.snapshot.isSome .RouteAlreadyExists
  let hash := snapshotHash H bytes
  return (snapshot, { rows with snapshot := some ⟨bytes, hash, bytes, hash, 0, 0⟩ })

/-- Acquire an absent or expired route lease; every takeover increments the fencing generation. -/
def acquireLease (routeId ownerId : Digest32) (now duration : UInt64) (rows : RouteRows) :
    StoreM (LeaseAcquireOutcomeV1 × RouteRows) := do
  validateIdentity ownerId
  let leaseUntil ← leaseDeadline now duration
  toSqlU64 now
  toSqlU64 leaseUntil
  rejectIf rows.snapshot.isNone .RouteNotFound
  match rows.lease with
  | none =>
    return (.Acquired ⟨routeId, ownerId, 1, leaseUntil⟩, { rows with lease := some ⟨ownerId, 1, leaseUntil⟩ })
  | some current =>
    if now ≤ current.leaseUntilUnixMs then do
      rejectIf (current.ownerId ≠ ownerId) .LeaseHeld
      return (.AlreadyOwned ⟨routeId, ownerId, current.fencingEpoch, current.leaseUntilUnixMs⟩, rows)
    else do
      let nextEpoch ← okOr (checkedSucc64 current.fencingEpoch) .InvalidBound
      toSqlU64 nextEpoch
      return (.Acquired ⟨routeId, ownerId, nextEpoch, leaseUntil⟩,
        { rows with lease := some ⟨ownerId, nextEpoch, leaseUntil⟩ })

def validateLease (rows : RouteRows) (lease : RouteLeaseV1) (now : UInt64) : StoreM Unit := do
  validateIdentity lease.routeId
  validateIdentity lease.ownerId
  rejectIf (lease.fencingEpoch = 0) .StaleFencing
  let current ← okOr rows.lease .StaleFencing
  rejectIf (current.ownerId ≠ lease.ownerId ∨ current.fencingEpoch ≠ lease.fencingEpoch) .StaleFencing
  rejectIf (current.leaseUntilUnixMs < now ∨ lease.leaseUntilUnixMs ≠ current.leaseUntilUnixMs) .LeaseExpired

/-- Extend exactly the current unexpired lease without changing its epoch. -/
def renewLease (lease : RouteLeaseV1) (now duration : UInt64) (rows : RouteRows) :
    StoreM (RouteLeaseV1 × RouteRows) := do
  let leaseUntil ← leaseDeadline now duration
  toSqlU64 now
  toSqlU64 leaseUntil
  validateLease rows lease now
  return ({ lease with leaseUntilUnixMs := leaseUntil },
    { rows with lease := some ⟨lease.ownerId, lease.fencingEpoch, leaseUntil⟩ })

def validateSnapshotRow (routeId : Digest32) (row : SnapshotRow) : StoreM RouteSnapshotV1 := do
  rejectIf (row.snapshotHash ≠ snapshotHash H row.snapshotBytes) .CorruptState
  let snapshot ← coded (RouteSnapshotV1.decodeCanonical row.snapshotBytes)
  rejectIf (snapshot.routeId ≠ routeId ∨ snapshot.revision ≠ row.revision ∨
    snapshot.lastEventSequence ≠ row.lastEventSeq) .CorruptState
  return snapshot

/-- Load and validate the current materialized snapshot. -/
def loadSnapshot (routeId : Digest32) (rows : RouteRows) : StoreM RouteSnapshotV1 := do
  let row ← okOr rows.snapshot .RouteNotFound
  validateSnapshotRow H routeId row

/-! ## The outbox -/

def priorityRank : EffectPriorityV1 → Nat
  | .Normal => 0
  | .Recovery => 1
  | .SecretPublicUrgent => 2

def EffectDispatchV1.dispatchClass : EffectDispatchV1 → DispatchClass
  | RunnerPayload _ _ => .Runner
  | ExternalCustody _ _ => .ExternalCustody

/-- The row of an effect that has just been authorized. -/
def effectRow (sequence : UInt64) (effect : RouteEffectV1) (bytes : List UInt8) : OutboxRow where
  effectId := effect.effectId
  sourceSequence := sequence
  fencingEpoch := effect.fencingEpoch
  priorityRank := priorityRank effect.priority
  dispatchClass := effect.dispatch.dispatchClass
  effectBytes := bytes
  effectHash := effectHashValue H bytes
  status := .Pending
  attempts := 0
  dispatchLease := none

def insertEffect (sequence : UInt64) (outbox : List OutboxRow) (effect : RouteEffectV1) : StoreM (List OutboxRow) := do
  let bytes ← coded (effect.encodeCanonical H)
  toSqlU64 sequence
  toSqlU64 effect.fencingEpoch
  -- the primary key
  rejectIf (outbox.any (·.effectId = effect.effectId)) .StorageUnavailable
  return outbox ++ [effectRow H sequence effect bytes]

/-- `status_tag = status`, with the dispatch lease given back. -/
def OutboxRow.finish (status : RowStatus) (row : OutboxRow) : OutboxRow := { row with status, dispatchLease := none }

/-- The row of a pending effect is closed. -/
def closeEffect (effectId : Digest32) (status : RowStatus) (e : RouteStoreErrorV1) (outbox : List OutboxRow) :
    StoreM (List OutboxRow) :=
  updateOne (fun row => row.effectId = effectId ∧ row.status = .Pending) (OutboxRow.finish status) e outbox

def supersedeEffect (routeId : Digest32) (replacements : List RouteEffectV1) (now : UInt64) (outbox : List OutboxRow)
    (priorEffectId : Digest32) : StoreM (List OutboxRow) := do
  let row ← okOr (outbox.find? (·.effectId = priorEffectId)) .EffectNotFound
  rejectIf (row.effectHash ≠ effectHashValue H row.effectBytes ∨ row.status ≠ .Pending) .IdempotencyConflict
  rejectIf (isFree row.dispatchLease now = false) .DispatchLeaseMismatch
  let prior ← coded (RouteEffectV1.decodeCanonical H row.effectBytes)
  rejectIf (prior.routeId ≠ routeId ∨ prior.effectId ≠ priorEffectId) .CorruptState
  let replacement ← okOr (replacements.find? fun candidate => candidate.leg = prior.leg ∧ candidate.kind = prior.kind ∧
    candidate.semanticDigest = prior.semanticDigest) .IdempotencyConflict
  rejectIf (replacement.fencingEpoch ≤ prior.fencingEpoch ∨
    replacement.containsRouteSecret ≠ prior.containsRouteSecret ∨ replacement.dispatch ≠ prior.dispatch)
    .IdempotencyConflict
  closeEffect priorEffectId .Withdrawn .IdempotencyConflict outbox

/-- A custody transaction other than the one the effect was committed to. -/
def EffectDispatchV1.contradicts (transactionId : Digest32) : EffectDispatchV1 → Bool
  | RunnerPayload _ _ => false
  | ExternalCustody _ expected => expected ≠ transactionId

def reconcileExternalizedEffect (routeId effectId transactionId : Digest32) (outbox : List OutboxRow) :
    StoreM (List OutboxRow) := do
  let row ← okOr (outbox.find? (·.effectId = effectId)) .EffectNotFound
  let effect ← coded (RouteEffectV1.decodeCanonical H row.effectBytes)
  rejectIf (effect.routeId ≠ routeId ∨ effect.effectId ≠ effectId) .CorruptState
  rejectIf (effect.dispatch.contradicts transactionId) .IdempotencyConflict
  match row.status with
  | .Completed => return outbox
  | .Withdrawn => throw .CorruptState
  | .Pending => closeEffect effectId .Completed .CorruptState outbox

section Lease

variable (lease : RouteLeaseV1) (expectedRevision : UInt64) (eventId : Digest32) (event : RouteEventV1)
  (eventBytes : List UInt8) (now : UInt64)

/-- Whether the lease may report progress of an effect with this dispatch lease. -/
def mayReportProgress (fencingEpoch : UInt64) : Option DispatchLease → Bool
  | some held =>
    if fencingEpoch = lease.fencingEpoch then held.owner = lease.ownerId else held.untilUnixMs < now
  | none => fencingEpoch < lease.fencingEpoch

def reconcilePartialCustodyProgress (effectId : Digest32) (now : UInt64)
    (outbox : List OutboxRow) : StoreM (List OutboxRow) := do
  let row ← okOr (outbox.find? (·.effectId = effectId)) .EffectNotFound
  rejectIf (row.status ≠ .Pending ∨ row.dispatchClass ≠ .ExternalCustody ∨
    row.effectHash ≠ effectHashValue H row.effectBytes) .CorruptState
  let effect ← coded (RouteEffectV1.decodeCanonical H row.effectBytes)
  rejectIf (effect.routeId ≠ lease.routeId ∨ effect.effectId ≠ effectId ∨ effect.dispatch.isCustody = false ∨
    lease.fencingEpoch < effect.fencingEpoch) .CorruptState
  rejectIf (mayReportProgress lease now effect.fencingEpoch row.dispatchLease = false) .DispatchLeaseMismatch
  updateOne (fun row => row.effectId = effectId ∧ row.status = .Pending ∧ row.dispatchClass = .ExternalCustody)
    (fun row => { row with dispatchLease := none }) .CorruptState outbox

/-- What the outbox records of the event itself. -/
def reconcileReport (outbox : List OutboxRow) : StoreM (List OutboxRow) :=
  match event with
  | .ActionExternalized _ _ effectId transactionId _ =>
    reconcileExternalizedEffect H lease.routeId effectId transactionId outbox
  | .CustodyProgressRecorded _ _ effectId _ _ => reconcilePartialCustodyProgress H lease effectId now outbox
  | _ => return outbox

/-! ## Timers -/

def insertTimer (sequence : UInt64) (timers : List TimerRow) (timer : RouteTimerV1) : StoreM (List TimerRow) := do
  let bytes ← coded timer.encodeCanonical
  toSqlU64 sequence
  toSqlU64 timer.fencingEpoch
  toSqlU64 timer.deadlineUnixMs
  rejectIf (timers.any (·.timerId = timer.timerId)) .StorageUnavailable
  return timers ++ [⟨timer.timerId, sequence, timer.fencingEpoch, timer.deadlineUnixMs, bytes, timerHashValue H bytes,
    .Pending, 0, none⟩]

def applyTimerMutation (sequence : UInt64) (timers : List TimerRow) : RouteTimerMutationV1 → StoreM (List TimerRow)
  | .Schedule timer => insertTimer H sequence timers timer
  | .Cancel timerId =>
    updateOne (fun row => row.timerId = timerId ∧ row.status = .Pending)
      (fun row => { row with status := .Withdrawn, dispatchLease := none }) .TimerNotFound timers

def RouteTimerMutationV1.isSchedule : RouteTimerMutationV1 → Bool
  | Schedule _ => true
  | Cancel _ => false

/-! ## Events -/

/-- The journal of a route in sequence order. -/
def journalInOrder (rows : RouteRows) : List JournalRow := rows.journal.insertionSort fun a b => a.sequence ≤ b.sequence

/-- The hash the next journal row continues from. -/
def previousEntryHash (routeId : Digest32) (rows : RouteRows) : StoreM Digest32 :=
  match (journalInOrder rows).getLast? with
  | some entry => return entry.entryHash
  | none => do
      let row ← okOr rows.snapshot .RouteNotFound
      return initialJournalHash H routeId row.initialSnapshotHash

def journalRow (previous : Digest32) (next : RouteSnapshotV1) (resultingHash : Digest32) : JournalRow where
  sequence := next.lastEventSequence
  eventId := eventId
  eventBytes := eventBytes
  eventHash := eventDigest H eventBytes
  expectedRevision := expectedRevision
  resultingRevision := next.revision
  fencingEpoch := lease.fencingEpoch
  snapshotHash := resultingHash
  previousEntryHash := previous
  entryHash := journalEntryHash H ⟨previous, lease.routeId, next.lastEventSequence, expectedRevision, next.revision,
    eventId, eventDigest H eventBytes, resultingHash, lease.fencingEpoch⟩

def insertJournal (journal : List JournalRow) (row : JournalRow) : StoreM (List JournalRow) := do
  toSqlU64 row.sequence
  toSqlU64 row.expectedRevision
  toSqlU64 row.resultingRevision
  toSqlU64 row.fencingEpoch
  -- the primary key and the unique event identity
  rejectIf (journal.any fun other => other.sequence = row.sequence ∨ other.eventId = row.eventId) .StorageUnavailable
  return journal ++ [row]

def reduced {α : Type} (x : Except ReduceErrorV1 α) : StoreM α := x.mapError fun _ => .TransitionRejected

/-- A new event: the reducer's complete write set. -/
def commitEvent (rows : RouteRows) : StoreM (CommitOutcomeV1 × RouteRows) := do
  let row ← okOr rows.snapshot .RouteNotFound
  let current ← validateSnapshotRow H lease.routeId row
  rejectIf (current.revision ≠ expectedRevision) .RevisionConflict
  let decision ← reduced (reduceRoute H current eventId event lease.fencingEpoch)
  let next := decision.snapshot
  let resultingBytes ← coded next.encodeCanonical
  let resultingHash := snapshotHash H resultingBytes
  let sequence := next.lastEventSequence
  let previous ← previousEntryHash H lease.routeId rows
  let journal ← insertJournal rows.journal
    (journalRow H lease expectedRevision eventId eventBytes previous next resultingHash)
  rejectIf (row.revision ≠ expectedRevision) .RevisionConflict
  let outbox ← decision.supersededEffects.foldlM (supersedeEffect H lease.routeId decision.effects now) rows.outbox
  let outbox ← decision.effects.foldlM (insertEffect H sequence) outbox
  let outbox ← reconcileReport H lease event now outbox
  let timers ← decision.timers.foldlM (applyTimerMutation H sequence) rows.timers
  return (.Committed next.revision decision.effects.length (decision.timers.countP (·.isSchedule)),
    { rows with
      snapshot := some { row with
        snapshotBytes := resultingBytes, snapshotHash := resultingHash, revision := next.revision, lastEventSeq := sequence }
      journal, outbox, timers })

/-- An event that was committed before: the same bytes are answered, and repeated progress gives its claim back. -/
def duplicateEvent (stored : JournalRow) (rows : RouteRows) : StoreM (CommitOutcomeV1 × RouteRows) := do
  rejectIf (stored.eventBytes ≠ eventBytes) .IdempotencyConflict
  match event with
  | .CustodyProgressRecorded _ _ effectId _ _ => do
      let outbox ← reconcilePartialCustodyProgress H lease effectId now rows.outbox
      return (.DuplicateSameBytes stored.resultingRevision, { rows with outbox })
  | _ => return (.DuplicateSameBytes stored.resultingRevision, rows)

/-- Run the pure reducer and atomically commit its complete write set. -/
def applyEvent (rows : RouteRows) : StoreM (CommitOutcomeV1 × RouteRows) := do
  validateIdentity eventId
  let eventBytes ← coded (event.encodeCanonical H)
  toSqlU64 now
  validateLease rows lease now
  match rows.journal.find? (·.eventId = eventId) with
  | some stored => duplicateEvent H lease event eventBytes now stored rows
  | none => commitEvent H lease expectedRevision eventId event eventBytes now rows

structure RouteJournalEntryV1 where
  sequence : UInt64
  eventId : Digest32
  event : RouteEventV1
  expectedRevision : UInt64
  resultingRevision : UInt64
  fencingEpoch : UInt64
  snapshotHash : Digest32
  previousEntryHash : Digest32
  entryHash : Digest32
  deriving DecidableEq, Repr

def journalEntry (row : JournalRow) : StoreM RouteJournalEntryV1 := do
  rejectIf (row.eventHash ≠ eventDigest H row.eventBytes) .CorruptState
  let event ← coded (RouteEventV1.decodeCanonical H row.eventBytes)
  return ⟨row.sequence, row.eventId, event, row.expectedRevision, row.resultingRevision, row.fencingEpoch,
    row.snapshotHash, row.previousEntryHash, row.entryHash⟩

/-- Validated journal entries in sequence order. -/
def journal (rows : RouteRows) : StoreM (List RouteJournalEntryV1) := (journalInOrder rows).mapM (journalEntry H)

/-- One step of the replay: the entry has to continue the snapshot and the hash chain. -/
def replayEntry (routeId : Digest32) (state : RouteSnapshotV1 × Digest32) (entry : RouteJournalEntryV1) :
    StoreM (RouteSnapshotV1 × Digest32) := do
  rejectIf (entry.sequence ≠ state.1.lastEventSequence + 1 ∨ entry.expectedRevision ≠ state.1.revision ∨
    entry.previousEntryHash ≠ state.2) .CorruptState
  let eventBytes ← coded (entry.event.encodeCanonical H)
  let decision ← reduced (reduceRoute H state.1 entry.eventId entry.event entry.fencingEpoch)
  let replayedBytes ← coded decision.snapshot.encodeCanonical
  let replayedHash := snapshotHash H replayedBytes
  let expected := journalEntryHash H ⟨state.2, routeId, entry.sequence, entry.expectedRevision, entry.resultingRevision,
    entry.eventId, eventDigest H eventBytes, replayedHash, entry.fencingEpoch⟩
  rejectIf (decision.snapshot.revision ≠ entry.resultingRevision ∨ replayedHash ≠ entry.snapshotHash ∨
    expected ≠ entry.entryHash) .CorruptState
  return (decision.snapshot, entry.entryHash)

/-- Replay the full journal from the immutable initial snapshot and compare with the materialized row. -/
def verifyReplay (routeId : Digest32) (rows : RouteRows) : StoreM RouteSnapshotV1 := do
  let row ← okOr rows.snapshot .RouteNotFound
  rejectIf (row.initialSnapshotHash ≠ snapshotHash H row.initialSnapshotBytes) .CorruptState
  let initial ← coded (RouteSnapshotV1.decodeCanonical row.initialSnapshotBytes)
  rejectIf (initial.routeId ≠ routeId ∨ initial.revision ≠ 0) .CorruptState
  let entries ← journal H rows
  let replayed ← entries.foldlM (replayEntry H routeId)
    (initial, initialJournalHash H routeId (snapshotHash H row.initialSnapshotBytes))
  let stored ← loadSnapshot H routeId rows
  rejectIf (replayed.1 ≠ stored) .CorruptState
  return replayed.1

/-! ## Claims -/

/-- `ORDER BY priority_rank DESC, source_sequence ASC, effect_id ASC`. -/
def DispatchOrder (a b : OutboxRow) : Prop :=
  b.priorityRank < a.priorityRank ∨ (a.priorityRank = b.priorityRank ∧
    (a.sourceSequence < b.sourceSequence ∨ (a.sourceSequence = b.sourceSequence ∧ a.effectId ≤ b.effectId)))

instance : DecidableRel DispatchOrder := fun _ _ => inferInstanceAs (Decidable (_ ∨ _))

/-- The pending rows of the lease's generation that nobody works on, in dispatch order. -/
def selectEffects (wanted : OutboxRow → Bool) (limit : Nat) (outbox : List OutboxRow) : List OutboxRow :=
  ((outbox.filter fun row => row.fencingEpoch = lease.fencingEpoch ∧ row.status = .Pending ∧ wanted row ∧
    isFree row.dispatchLease now).insertionSort DispatchOrder).take limit

/-- The effect of a selected row, checked against its columns and the lease. -/
def openRow (row : OutboxRow) : StoreM RouteEffectV1 := do
  rejectIf (row.effectHash ≠ effectHashValue H row.effectBytes) .CorruptState
  let effect ← coded (RouteEffectV1.decodeCanonical H row.effectBytes)
  rejectIf (effect.routeId ≠ lease.routeId ∨ effect.effectId ≠ row.effectId ∨
    effect.fencingEpoch ≠ lease.fencingEpoch) .CorruptState
  return effect

variable (deadline dispatchLeaseMs : UInt64)

/-- The row of a claimed effect gets its dispatch lease; the new number of attempts is returned. -/
def takeRow (wanted : OutboxRow → Bool) (row : OutboxRow)
    (outbox : List OutboxRow) : StoreM (UInt64 × List OutboxRow) := do
  let attempts ← okOr (checkedSucc64 row.attempts) .InvalidBound
  toSqlU64 attempts
  let outbox ← updateOne
    (fun other => other.effectId = row.effectId ∧ other.status = .Pending ∧ wanted other ∧
      isFree other.dispatchLease now)
    (fun other => { other with attempts, dispatchLease := some ⟨lease.ownerId, deadline⟩ })
    .DispatchLeaseMismatch outbox
  return (attempts, outbox)

/-- The claim of an effect from the runner queue. -/
def runnerClaim (effect : RouteEffectV1) (effectHash : Digest32) : StoreM (UInt64 → ClaimedRouteEffectV1) :=
  return fun attempts => ⟨effect, effectHash, attempts, deadline⟩

/-- The claim of an external-custody effect, without its bytes. -/
def custodyClaim (effect : RouteEffectV1) (_ : Digest32) : StoreM (UInt64 → ClaimedExternalCustodyEffectV1) :=
  match effect.dispatch with
  | .ExternalCustody custodyDigest transactionId =>
    return fun attempts => ⟨effect.routeId, effect.effectId, effect.fencingEpoch, effect.leg, effect.kind,
      effect.priority, effect.semanticDigest, effect.containsRouteSecret, custodyDigest, transactionId, attempts,
      deadline⟩
  | .RunnerPayload _ _ => throw .CorruptState

/-- Claim the dispatchable ones of the selected rows, in order. -/
def claimRows {γ : Type} (lease : RouteLeaseV1) (now deadline : UInt64) (wanted : OutboxRow → Bool)
    (describe : RouteEffectV1 → Digest32 → StoreM (UInt64 → γ)) (snapshot : RouteSnapshotV1) :
    List OutboxRow → List OutboxRow → StoreM (List γ × List OutboxRow)
  | [], outbox => return ([], outbox)
  | row :: rest, outbox => do
      let effect ← openRow H lease row
      if effectIsDispatchable snapshot effect then do
        let claimed ← describe effect row.effectHash
        let (attempts, outbox) ← takeRow lease now deadline wanted row outbox
        let (others, outbox) ← claimRows lease now deadline wanted describe snapshot rest outbox
        return (claimed attempts :: others, outbox)
      else claimRows lease now deadline wanted describe snapshot rest outbox

def claimClass {γ : Type} (dispatchClass : DispatchClass) (wanted : OutboxRow → Bool)
    (describe : UInt64 → RouteEffectV1 → Digest32 → StoreM (UInt64 → γ)) (lease : RouteLeaseV1)
    (now dispatchLeaseMs : UInt64) (limit : Nat) (rows : RouteRows) : StoreM (List γ × RouteRows) := do
  validateClaimLimit limit
  validateLease rows lease now
  let snapshot ← loadSnapshot H lease.routeId rows
  let deadline ← dispatchDeadline lease now dispatchLeaseMs
  toSqlU64 now
  toSqlU64 deadline
  let selected := selectEffects lease now (·.dispatchClass = dispatchClass) limit rows.outbox
  let (claimed, outbox) ← claimRows H lease now deadline wanted (describe deadline) snapshot selected rows.outbox
  return (claimed, { rows with outbox })

/-- Claim pending effects created by this exact fencing generation. -/
def claimEffects : RouteLeaseV1 → UInt64 → UInt64 → Nat → RouteRows → StoreM (List ClaimedRouteEffectV1 × RouteRows) :=
  claimClass H .Runner (fun _ => true) runnerClaim

/-- Claim external-custody effects without returning any retained action bytes. -/
def claimExternalCustodyEffects :
    RouteLeaseV1 → UInt64 → UInt64 → Nat → RouteRows → StoreM (List ClaimedExternalCustodyEffectV1 × RouteRows) :=
  claimClass H .ExternalCustody (·.dispatchClass = .ExternalCustody) custodyClaim

/-- The claim of one item from the unified queue. -/
def workClaim (effect : RouteEffectV1) (effectHash : Digest32) (attempts : UInt64) : ClaimedRouteWorkV1 :=
  match effect.dispatch with
  | .RunnerPayload _ _ => .Runner ⟨effect, effectHash, attempts, deadline⟩
  | .ExternalCustody custodyDigest transactionId =>
    .ExternalCustody ⟨effect.routeId, effect.effectId, effect.fencingEpoch, effect.leg, effect.kind, effect.priority,
      effect.semanticDigest, effect.containsRouteSecret, custodyDigest, transactionId, attempts, deadline⟩

/-- Claim the first dispatchable one of the selected rows. -/
def claimFirst (lease : RouteLeaseV1) (now deadline : UInt64) (snapshot : RouteSnapshotV1) (outbox : List OutboxRow) :
    List OutboxRow → StoreM (Option ClaimedRouteWorkV1 × List OutboxRow)
  | [] => return (none, outbox)
  | row :: rest => do
      let effect ← openRow H lease row
      rejectIf (effect.dispatch.dispatchClass ≠ row.dispatchClass) .CorruptState
      if effectIsDispatchable snapshot effect then do
        let (attempts, outbox) ← takeRow lease now deadline
          (fun other => other.fencingEpoch = lease.fencingEpoch ∧ other.dispatchClass = row.dispatchClass) row outbox
        return (some (workClaim deadline effect row.effectHash attempts), outbox)
      else claimFirst lease now deadline snapshot outbox rest

/-- Claims at most one dispatchable effect across both classes in their shared priority order. -/
def claimNextEffect (rows : RouteRows) : StoreM (Option ClaimedRouteWorkV1 × RouteRows) := do
  validateLease rows lease now
  let snapshot ← loadSnapshot H lease.routeId rows
  let deadline ← dispatchDeadline lease now dispatchLeaseMs
  toSqlU64 now
  toSqlU64 deadline
  let selected := selectEffects lease now (fun _ => true) maxClaimBatch rows.outbox
  let (claimed, outbox) ← claimFirst H lease now deadline snapshot rows.outbox selected
  return (claimed, { rows with outbox })

/-- Claim one exact external-custody effect of the urgent lane; `none` when it is in flight already. -/
def claimExternalCustodyEffectById (effectId : Digest32) (now dispatchLeaseMs : UInt64)
    (rows : RouteRows) : StoreM (Option ClaimedExternalCustodyEffectV1 × RouteRows) := do
  validateIdentity effectId
  validateLease rows lease now
  let snapshot ← loadSnapshot H lease.routeId rows
  let deadline ← dispatchDeadline lease now dispatchLeaseMs
  toSqlU64 now
  toSqlU64 deadline
  let row ← okOr (rows.outbox.find? (·.effectId = effectId)) .EffectNotFound
  rejectIf (row.fencingEpoch ≠ lease.fencingEpoch ∨ row.status ≠ .Pending ∨ row.dispatchClass ≠ .ExternalCustody)
    .CorruptState
  let effect ← openRow H lease row
  rejectIf (effect.priority ≠ .SecretPublicUrgent) .CorruptState
  if isFree row.dispatchLease now then do
    rejectIf (effectIsDispatchable snapshot effect = false) .CorruptState
    let claimed ← custodyClaim deadline effect row.effectHash
    let (attempts, outbox) ← takeRow lease now deadline
      (fun other => other.fencingEpoch = lease.fencingEpoch ∧ other.dispatchClass = .ExternalCustody ∧
        other.priorityRank = priorityRank .SecretPublicUrgent) row rows.outbox
    return (some (claimed attempts), { rows with outbox })
  else return (none, rows)

/-- `ORDER BY deadline_unix_ms ASC, source_sequence ASC, timer_id ASC`. -/
def DueOrder (a b : TimerRow) : Prop :=
  a.deadlineUnixMs < b.deadlineUnixMs ∨ (a.deadlineUnixMs = b.deadlineUnixMs ∧
    (a.sourceSequence < b.sourceSequence ∨ (a.sourceSequence = b.sourceSequence ∧ a.timerId ≤ b.timerId)))

instance : DecidableRel DueOrder := fun _ _ => inferInstanceAs (Decidable (_ ∨ _))

def claimTimers (lease : RouteLeaseV1) (now deadline : UInt64) :
    List TimerRow → List TimerRow → StoreM (List ClaimedRouteTimerV1 × List TimerRow)
  | [], timers => return ([], timers)
  | row :: rest, timers => do
      rejectIf (row.timerHash ≠ timerHashValue H row.timerBytes) .CorruptState
      let timer ← coded (RouteTimerV1.decodeCanonical row.timerBytes)
      rejectIf (timer.routeId ≠ lease.routeId ∨ timer.timerId ≠ row.timerId ∨ lease.fencingEpoch < timer.fencingEpoch)
        .CorruptState
      let attempts ← okOr (checkedSucc64 row.attempts) .InvalidBound
      toSqlU64 attempts
      let timers ← updateOne
        (fun other => other.timerId = row.timerId ∧ other.status = .Pending ∧ isFree other.dispatchLease now)
        (fun other => { other with attempts, dispatchLease := some ⟨lease.ownerId, deadline⟩ })
        .DispatchLeaseMismatch timers
      let (others, timers) ← claimTimers lease now deadline rest timers
      return (⟨timer, row.timerHash, attempts, deadline⟩ :: others, timers)

/-- Claim due timers under the current route lease, of whatever generation they are. -/
def claimDueTimers (limit : Nat) (rows : RouteRows) : StoreM (List ClaimedRouteTimerV1 × RouteRows) := do
  validateClaimLimit limit
  validateLease rows lease now
  let deadline ← dispatchDeadline lease now dispatchLeaseMs
  toSqlU64 now
  toSqlU64 deadline
  let due := ((rows.timers.filter fun row => row.status = .Pending ∧ row.deadlineUnixMs ≤ now ∧
    isFree row.dispatchLease now).insertionSort DueOrder).take limit
  let (claimed, timers) ← claimTimers H lease now deadline due rows.timers
  return (claimed, { rows with timers })

/-- Complete one claimed timer under the current route and dispatch leases. -/
def completeTimer (timerId timerHash : Digest32) (now : UInt64) (rows : RouteRows) :
    StoreM (CompletionOutcomeV1 × RouteRows) := do
  validateIdentity timerId
  validateIdentity timerHash
  toSqlU64 now
  validateLease rows lease now
  let row ← okOr (rows.timers.find? (·.timerId = timerId)) .TimerNotFound
  rejectIf (row.timerHash ≠ timerHash ∨ lease.fencingEpoch < row.fencingEpoch) .IdempotencyConflict
  if row.status = .Completed then return (.AlreadyCompleted, rows)
  else do
    rejectIf (row.status ≠ .Pending ∨ row.dispatchLease.all (fun held => held.owner ≠ lease.ownerId ∨
      held.untilUnixMs < now)) .DispatchLeaseMismatch
    let timers ← updateOne (fun other => other.timerId = timerId ∧ other.status = .Pending)
      (fun other => { other with status := .Completed, dispatchLease := none }) .DispatchLeaseMismatch rows.timers
    return (.Completed, { rows with timers })

end Lease

/-! ## The store and its operations -/

abbrev RouteStore := Digest32 → RouteRows

/-- One operation of the store, by any caller. -/
inductive StoreCall where
  | CreateRoute (routeId : Digest32) (now : UInt64)
  | AcquireLease (routeId ownerId : Digest32) (now duration : UInt64)
  | RenewLease (lease : RouteLeaseV1) (now duration : UInt64)
  | ApplyEvent (lease : RouteLeaseV1) (expectedRevision : UInt64) (eventId : Digest32) (event : RouteEventV1)
      (now : UInt64)
  | ClaimNextEffect (lease : RouteLeaseV1) (now dispatchLeaseMs : UInt64)
  | ClaimEffects (lease : RouteLeaseV1) (now dispatchLeaseMs : UInt64) (limit : Nat)
  | ClaimExternalCustodyEffects (lease : RouteLeaseV1) (now dispatchLeaseMs : UInt64) (limit : Nat)
  | ClaimExternalCustodyEffectById (lease : RouteLeaseV1) (effectId : Digest32) (now dispatchLeaseMs : UInt64)
  | ClaimDueTimers (lease : RouteLeaseV1) (now dispatchLeaseMs : UInt64) (limit : Nat)
  | CompleteTimer (lease : RouteLeaseV1) (timerId timerHash : Digest32) (now : UInt64)
  deriving DecidableEq, Repr

namespace StoreCall

def routeId : StoreCall → Digest32
  | CreateRoute routeId _ | AcquireLease routeId _ _ _ => routeId
  | RenewLease lease _ _ | ApplyEvent lease _ _ _ _ | ClaimNextEffect lease _ _ | ClaimEffects lease _ _ _
  | ClaimExternalCustodyEffects lease _ _ _ | ClaimExternalCustodyEffectById lease _ _ _ | ClaimDueTimers lease _ _ _
  | CompleteTimer lease _ _ _ => lease.routeId

def now : StoreCall → UInt64
  | CreateRoute _ now | AcquireLease _ _ now _ | RenewLease _ now _ | ApplyEvent _ _ _ _ now | ClaimNextEffect _ now _
  | ClaimEffects _ now _ _ | ClaimExternalCustodyEffects _ now _ _ | ClaimExternalCustodyEffectById _ _ now _
  | ClaimDueTimers _ now _ _ | CompleteTimer _ _ _ now => now

/-- An operation on the rows of its route: the work it hands out, and the rows it commits. -/
def run (call : StoreCall) (rows : RouteRows) : StoreM (List ClaimedRouteWorkV1 × RouteRows) :=
  match call with
  | CreateRoute routeId now => do return ([], (← createRoute H routeId now rows).2)
  | AcquireLease routeId ownerId now duration => do return ([], (← acquireLease routeId ownerId now duration rows).2)
  | RenewLease lease now duration => do return ([], (← renewLease lease now duration rows).2)
  | ApplyEvent lease expectedRevision eventId event now => do
      return ([], (← applyEvent H lease expectedRevision eventId event now rows).2)
  | ClaimNextEffect lease now dispatchLeaseMs => do
      let (claimed, rows) ← claimNextEffect H lease now dispatchLeaseMs rows
      return (claimed.toList, rows)
  | ClaimEffects lease now dispatchLeaseMs limit => do
      let (claimed, rows) ← claimEffects H lease now dispatchLeaseMs limit rows
      return (claimed.map .Runner, rows)
  | ClaimExternalCustodyEffects lease now dispatchLeaseMs limit => do
      let (claimed, rows) ← claimExternalCustodyEffects H lease now dispatchLeaseMs limit rows
      return (claimed.map .ExternalCustody, rows)
  | ClaimExternalCustodyEffectById lease effectId now dispatchLeaseMs => do
      let (claimed, rows) ← claimExternalCustodyEffectById H lease effectId now dispatchLeaseMs rows
      return (claimed.toList.map .ExternalCustody, rows)
  | ClaimDueTimers lease now dispatchLeaseMs limit => do
      return ([], (← claimDueTimers H lease now dispatchLeaseMs limit rows).2)
  | CompleteTimer lease timerId timerHash now => do return ([], (← completeTimer lease timerId timerHash now rows).2)

end StoreCall

/-- An operation on the store; a failed one leaves it as it is. -/
def RouteStore.call (store : RouteStore) (call : StoreCall) : RouteStore :=
  match call.run H (store call.routeId) with
  | .ok (_, rows) => fun routeId => if routeId = call.routeId then rows else store routeId
  | .error _ => store

/-- The stores of all runs from an empty one. -/
def StoreReachable : RouteStore → Prop :=
  Reach (fun store => store = fun _ => RouteRows.none) (fun _ _ => True) (RouteStore.call H)

end DomProtocol.Route
