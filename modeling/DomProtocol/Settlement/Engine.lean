import DomProtocol.Lib.Script
import DomProtocol.Settlement.Ingest

/-!
# `Settlement.Engine` — the durable settlement engine

One engine drives one settlement: it feeds the machine what the chain source observed, derives the policy events
and dispatches the outbox.  Its memory — scan position, refunds that wait for finality, envelopes that wait for
order — is lost in a crash and rebuilt by `recover`.  A tick is a `Script` over the database and that memory, one
call for each record, policy event and effect.  The chain source and the effect sink are outside: a tick is given
the answers they would give.
-/

namespace DomProtocol

open Lib Durable

/-! ## The chain source -/

/-- Opaque scanner position; `height` and `anchor` are the source's own description of it. -/
structure ChainCursorV1 where
  bytes : List UInt8
  height : UInt64
  anchor : Digest32
  deriving DecidableEq, Repr

/-- One record produced by the chain source for this settlement. -/
inductive ChainRecordV1 where
  | Funding (evidence : EvidenceRefV1)
  | Claim (evidence : EvidenceRefV1)
  | Refund (evidence : EvidenceRefV1)
  | Reorg (fromHeight : UInt64) (oldAnchor : Digest32)
  deriving DecidableEq, Repr

def ChainRecordV1.isRefund : ChainRecordV1 → Bool
  | .Refund _ => true
  | _ => false

inductive ChainSourceErrorV1 where
  | Unavailable
  | InvalidEvidence
  | StaleCursor
  | BoundsExceeded
  | IdentityMismatch
  deriving DecidableEq, Repr

structure ChainSourceV1 where
  chainId : Digest32
  genesisCursor : Except ChainSourceErrorV1 ChainCursorV1
  cursorAt : UInt64 → Except ChainSourceErrorV1 ChainCursorV1
  scan : ChainCursorV1 → Except ChainSourceErrorV1 (List ChainRecordV1 × ChainCursorV1)
  tipHeight : Except ChainSourceErrorV1 UInt64

inductive EffectOutcome where
  | Completed
  | RetryLater
  | Rejected
  deriving DecidableEq, Repr

/-! ## State and errors of the engine -/

structure EnginePolicyV1 where
  minConfirmations : UInt64
  refundNotBeforeHeight : UInt64
  deriving DecidableEq, Repr

/-- What an engine reads from the frozen terms, and its dispatch limits. -/
structure EngineConfig where
  settlementId : Digest32
  sessionId : Digest32
  termsHash : Digest32
  chainId : Digest32
  policy : EnginePolicyV1
  leaseMs : Int := 30000
  maxEffectsPerTick : Nat := 32
  deriving DecidableEq, Repr

structure TickReportV1 where
  recordsSeen : Nat := 0
  committed : Nat := 0
  duplicates : Nat := 0
  parked : Nat := 0
  late : Nat := 0
  effectsDispatched : Nat := 0
  effectsCompleted : Nat := 0
  effectsRejected : Nat := 0
  conflicts : Nat := 0
  state : Option SettlementState := none
  deriving DecidableEq, Repr

inductive SettlementEngineError where
  | UnknownSettlement
  | ChainMismatch
  | ChainSource (e : ChainSourceErrorV1)
  | RecoveryDivergence (message : String)
  | UnreconstructableParkedEvidence
  | Ingest (e : EngineError)
  | Store (e : StorePortError)
  deriving DecidableEq, Repr

structure EngineMemory where
  scanCursor : ChainCursorV1
  pendingRefunds : List EvidenceRefV1
  parked : List EventEnvelopeV1
  timelockCommitted : Bool
  deriving DecidableEq, Repr

/-- The database together with what the engine holds in memory. -/
structure EngineState where
  db : SettlementDb
  memory : EngineMemory
  report : TickReportV1

abbrev EngineM := Durable EngineState SettlementEngineError

namespace EngineState

variable (s : EngineState)

def setDb (db : SettlementDb) : EngineState := { s with db }

def setParked (parked : List EventEnvelopeV1) : EngineState :=
  { s with memory := { s.memory with parked } }

def setPending (pendingRefunds : List EvidenceRefV1) : EngineState :=
  { s with memory := { s.memory with pendingRefunds } }

def setScan (scanCursor : ChainCursorV1) : EngineState :=
  { s with memory := { s.memory with scanCursor } }

def setReport (f : TickReportV1 → TickReportV1) : EngineState := { s with report := f s.report }

end EngineState

/-- A transaction of the store called by the engine itself. -/
def storeCall {α : Type} (f : SettlementDb → Except StorePortError (α × SettlementDb)) : EngineM α :=
  (transact fun db => (f db).mapError .Store).zoom EngineState.db EngineState.setDb

def snapshot (cfg : EngineConfig) : EngineM SettlementRows :=
  query fun s => okOr s.db.settlements[cfg.settlementId]? .UnknownSettlement

def fromSource {α : Type} (answer : Except ChainSourceErrorV1 α) : EngineM α :=
  query fun _ => answer.mapError .ChainSource

variable (H : List UInt8 → Digest32) (cfg : EngineConfig)

/-! ## Envelopes -/

/-- The canonical envelope of one event, a function of the settlement and the event alone. -/
def envelopeFor (event : SettlementEvent) : EventEnvelopeV1 where
  protocolVersion := protocolVersion
  settlementId := cfg.settlementId
  sessionId := cfg.sessionId
  termsHash := cfg.termsHash
  sourceChain := cfg.chainId
  eventId := deriveEventId H cfg.settlementId event
  sourceSequence :=
    match event with
    | .FundingObserved evidence | .FundingConfirmed evidence | .ClaimEvidenceVerified evidence
    | .ClaimConfirmed evidence | .RefundConfirmed evidence => evidence.blockHeight
    | .FundingAbsent revalidationFrom => revalidationFrom
    | .ReorgInvalidated fromHeight _ => fromHeight
    | .RefundArmed | .TimelockExpired => 0
  event := event

def cursorUpdate (cursor : ChainCursorV1) : CursorUpdateV1 :=
  ⟨cfg.chainId, cursor.bytes, some cursor.height, some cursor.anchor⟩

/-! ## The reorder buffer -/

def canonicalKey (env : EventEnvelopeV1) : Option (UInt64 × UInt32 × Digest32) :=
  (acceptedEvidence env.event).map fun ev => (ev.blockHeight, ev.eventIndex, ev.txId)

/-- Envelopes in chain order, those without evidence last. -/
def sortParked (parked : List EventEnvelopeV1) : List EventEnvelopeV1 :=
  let key (env : EventEnvelopeV1) := (canonicalKey env).getD (UInt64.ofNat (2 ^ 64 - 1), UInt32.ofNat (2 ^ 32 - 1),
    BitVec.allOnes 256)
  parked.mergeSort fun a b => SettlementRows.chainKeyLe (key a) (key b)

def adopt (parked envelopes : List EventEnvelopeV1) : List EventEnvelopeV1 :=
  sortParked (envelopes.foldl (fun held env => if env ∈ held then held else held ++ [env]) parked)

/-- Envelopes at or above a reorged height are not retried. -/
def dropFrom (fromHeight : UInt64) (parked : List EventEnvelopeV1) : List EventEnvelopeV1 :=
  parked.filter fun env => (canonicalKey env).all fun key => key.1 < fromHeight

/-- One pass over the parked envelopes: whether any left the buffer, and those that are still parked. -/
def drainPass : List EventEnvelopeV1 → Durable SettlementDb EngineError (Bool × List EventEnvelopeV1)
  | [] => return (false, [])
  | env :: rest => do
      let result ← ingestEvent H env none
      let (progressed, stillParked) ← drainPass rest
      match result with
      | .ParkedForReorder => return (progressed, env :: stillParked)
      | _ => return (true, stillParked)

/-- Passes until one makes no progress.  A pass that makes progress shortens the list, so as many passes as there
    are envelopes, and one more, are enough. -/
def drainLoop : Nat → List EventEnvelopeV1 → Durable SettlementDb EngineError (List EventEnvelopeV1)
  | 0, parked => return parked
  | passes + 1, parked => do
      let (progressed, stillParked) ← drainPass H parked
      if progressed = false ∨ stillParked = [] then return stillParked
      else drainLoop passes stillParked

/-- Retry the parked envelopes.  They are taken out of the buffer first and are gone if a retry fails. -/
def drainParked : Durable EngineState EngineError Unit := do
  let parked ← query fun s => .ok s.memory.parked
  modify fun s => s.setParked []
  let stillParked ← (drainLoop H (parked.length + 1) parked).zoom EngineState.db EngineState.setDb
  modify fun s => s.setParked stillParked

/-- Ingest one envelope; after a commit the parked ones are retried. -/
def bufferIngest (env : EventEnvelopeV1) (cursor : Option CursorUpdateV1) :
    Durable EngineState EngineError IngestResult := do
  let result ← (ingestEvent H env cursor).zoom EngineState.db EngineState.setDb
  match result with
  | .ParkedForReorder =>
    modify fun s =>
      if env ∈ s.memory.parked then s else s.setParked (sortParked (s.memory.parked ++ [env]))
  | .Committed _ => drainParked H
  | _ => pure ()
  return result

def TickReportV1.count (report : TickReportV1) : IngestResult → TickReportV1
  | .Committed _ => { report with committed := report.committed + 1 }
  | .Duplicate => { report with duplicates := report.duplicates + 1 }
  | .ParkedForReorder => { report with parked := report.parked + 1 }
  | .LateNoEconomicEffect => { report with late := report.late + 1 }

/-- Attempts to ingest one event, one more after each lost race, and `none` when all are lost. -/
def ingestAttempts (event : SettlementEvent) (cursor : Option CursorUpdateV1) : Nat → EngineM (Option IngestResult)
  | 0 => return none
  | attempts + 1 => do
      match ← (bufferIngest H (envelopeFor H cfg event) cursor).attempt with
      | .ok result =>
        modify fun s => s.setReport (·.count result)
        return some result
      | .error e =>
        if e = .Store .RevisionConflict then
          modify fun s => s.setReport fun report => { report with conflicts := report.conflicts + 1 }
          ingestAttempts event cursor attempts
        else fail (.Ingest e)

variable (src : ChainSourceV1) (scannedTo : ChainCursorV1) (carries : Bool) (event : SettlementEvent)
  (cursor : Option CursorUpdateV1) (sink : ClaimedEffectV1 → EffectOutcome)

/-- Ingest one event, retrying once if a concurrent writer wins. -/
def ingest : EngineM (Option IngestResult) :=
  ingestAttempts H cfg event cursor 2

/-! ## Records -/

/-- Highest position whose consequences are all durable: below the lowest refund that waits for finality. -/
def safeCursor (pendingRefunds : List EvidenceRefV1) (scannedTo : ChainCursorV1) :
    Except ChainSourceErrorV1 (Option ChainCursorV1) :=
  let lowestPending := pendingRefunds.foldl (fun lowest ev => min lowest ev.blockHeight) (UInt64.ofNat (2 ^ 64 - 1))
  if lowestPending = UInt64.ofNat (2 ^ 64 - 1) then .ok (some scannedTo)
  else if lowestPending = 0 then .ok none
  else
    let ceiling := lowestPending - 1
    if scannedTo.height ≤ ceiling then .ok (some scannedTo) else some <$> src.cursorAt ceiling

/-- Index of the last record that may carry the cursor forward. -/
def lastIngestible : List ChainRecordV1 → Option Nat
  | [] => none
  | record :: rest =>
    match lastIngestible rest with
    | some index => some (index + 1)
    | none => if record.isRefund then none else some 0

/-- Ingest an observation, with the cursor if the record may carry it. -/
def observe : EngineM Unit := do
  let pendingRefunds ← query fun s => .ok s.memory.pendingRefunds
  let cursor ← if carries then fromSource (safeCursor src pendingRefunds scannedTo) else pure none
  let _ ← ingest H cfg event (cursor.map (cursorUpdate cfg))

def consumeRecord : ChainRecordV1 → EngineM Unit
  | .Reorg fromHeight oldAnchor => do
      storeCall (SettlementDb.invalidateEvidenceFrom cfg.settlementId fromHeight)
      modify fun s => s.setPending (s.memory.pendingRefunds.filter (·.blockHeight < fromHeight))
      modify fun s => s.setParked (dropFrom fromHeight s.memory.parked)
      let _ ← ingest H cfg (.ReorgInvalidated fromHeight oldAnchor) none
  | .Funding evidence => observe H cfg src scannedTo carries (.FundingObserved evidence)
  | .Claim evidence => observe H cfg src scannedTo carries (.ClaimEvidenceVerified evidence)
  | .Refund evidence =>
    modify fun s =>
      if evidence ∈ s.memory.pendingRefunds then s else s.setPending (s.memory.pendingRefunds ++ [evidence])

/-! ## Policy -/

/-- `min_confirmations` blocks from `height` on, its own included, are on the chain. -/
def isFinal (height tip : UInt64) : Bool :=
  height ≤ tip && cfg.policy.minConfirmations.toNat ≤ min (tip.toNat - height.toNat + 1) (2 ^ 64 - 1)

/-- The latest applied evidence row produced by the event `construct` builds, at one height if one is given. -/
def appliedEvidenceOf (rows : SettlementRows) (construct : EvidenceRefV1 → SettlementEvent)
    (atHeight : Option UInt64) : Option EvidenceRefV1 :=
  (((rows.evidenceWith .Applied).reverse.filter fun row => atHeight.all (row.2.blockHeight = ·)).find?
    fun row => deriveEventId H cfg.settlementId (construct row.2) = row.1).map (·.2)

/-- First applicable policy event: funding confirmation, absence of the funding after a reorg, claim confirmation,
    refund confirmation, timelock expiry. -/
def nextPolicyEvent (memory : EngineMemory) (rows : SettlementRows) (tip : UInt64) : Option SettlementEvent :=
  let ctx := rows.context
  let funding :=
    if ctx.state = .Confirming then
      match ctx.lastObservedHeight with
      | some height =>
        if isFinal cfg height tip then
          (appliedEvidenceOf H cfg rows .FundingObserved (some height)).map .FundingConfirmed
        else none
      | none => some (.FundingAbsent memory.scanCursor.height)
    else none
  let claim :=
    if ctx.state = .Settling ∧ ctx.claimEvidenceVerified = true then
      ((appliedEvidenceOf H cfg rows .ClaimEvidenceVerified none).filter
        fun evidence => isFinal cfg evidence.blockHeight tip).map .ClaimConfirmed
    else none
  let refund := (memory.pendingRefunds.find? fun ev => isFinal cfg ev.blockHeight tip).map .RefundConfirmed
  let timelock :=
    if memory.timelockCommitted = false ∧ (ctx.state = .Confirming ∨ ctx.state = .Settling) ∧
        cfg.policy.refundNotBeforeHeight.toNat ≤ min (tip.toNat + 1) (2 ^ 64 - 1) then some .TimelockExpired
    else none
  if ctx.state.isTerminal then none else funding.orElse fun _ => claim.orElse fun _ => refund.orElse fun _ => timelock

/-- What the engine forgets once a policy event was ingested, whatever the answer. -/
def settlePolicy (s : EngineState) : EngineState :=
  match event with
  | .TimelockExpired => { s with memory := { s.memory with timelockCommitted := true } }
  | .RefundConfirmed evidence => s.setPending (s.memory.pendingRefunds.filter (· ≠ evidence))
  | _ => s

/-- One policy event, if any applies; whether to go on with the next one. -/
def applyPolicyOnce (tip : UInt64) : EngineM Bool := do
  let rows ← snapshot cfg
  let memory ← query fun s => .ok s.memory
  match nextPolicyEvent H cfg memory rows tip with
  | none => return false
  | some event =>
    match ← ingest H cfg event none with
    | none => return false
    | some _ =>
      modify (settlePolicy event)
      return true

/-! ## Effects -/

/-- Complete an executed effect in the outbox. -/
def completeClaimed (effect : ClaimedEffectV1) : EngineM Unit := do
  storeCall (SettlementDb.completeEffect effect.effectId effect.payloadHash)
  modify fun s => s.setReport fun report => { report with effectsCompleted := report.effectsCompleted + 1 }

/-- Execute one claimed effect.  A revalidation is the engine's own: it moves the scan position back. -/
def executeEffect (effect : ClaimedEffectV1) : EngineM Unit := do
  match effect.kind with
  | .RevalidateFrom height =>
    let floor := if height = 0 then 0 else height - 1
    let scanCursor ← query fun s => .ok s.memory.scanCursor
    if floor < scanCursor.height then
      let rewound ← fromSource (src.cursorAt floor)
      modify fun s => s.setScan rewound
    completeClaimed effect
  | _ =>
    match sink effect with
    | .Completed => completeClaimed effect
    | .RetryLater => pure ()
    | .Rejected =>
      modify fun s => s.setReport fun report =>
        { report with effectsRejected := report.effectsRejected + 1 }

/-! ## A tick -/

/-- The calls of an engine, with what a call is about to work on. -/
inductive EngineCall where
  | housekeeping
  | record (record : ChainRecordV1) (later : List ChainRecordV1) (scannedTo : ChainCursorV1) (carries : Bool)
  | policy (tip : UInt64)
  | effect (effect : ClaimedEffectV1)
  deriving DecidableEq

abbrev EngineScript := Script EngineState EngineCall SettlementEngineError

/-- Calls without a record, a policy event or an effect of their own. -/
def housekeeping {α : Type} (m : EngineM α) : EngineScript α := .ofDurable .housekeeping m

/-- Policy events until none applies, a bounded number of them. -/
def applyPolicy (tip : UInt64) : Nat → EngineScript Unit
  | 0 => return ()
  | events + 1 => do
      if ← .ofDurable (.policy tip) (applyPolicyOnce H cfg tip) then applyPolicy tip events

def maxPolicyIngestsPerTick : Nat := 16

/-- One engine step: retry the parked envelopes, scan, consume the records, apply the policy, dispatch the outbox. -/
def tick (now : Int) : EngineScript TickReportV1 := do
  housekeeping do
    modify fun s => s.setReport fun _ => {}
    (drainParked H).mapError .Ingest
  let (records, scannedTo) ← housekeeping do
    let scanCursor ← query fun s => .ok s.memory.scanCursor
    let (records, scannedTo) ← fromSource (src.scan scanCursor)
    modify fun s => s.setReport fun report => { report with recordsSeen := records.length }
    return (records, scannedTo)
  let last := lastIngestible records
  Script.forEach (fun (record, index) later =>
    .ofDurable (.record record (later.map (·.1)) scannedTo (last = some index))
      (consumeRecord H cfg src scannedTo (last = some index) record)) records.zipIdx
  let tip ← housekeeping do
    modify fun s => s.setScan scannedTo
    fromSource src.tipHeight
  applyPolicy H cfg tip maxPolicyIngestsPerTick
  let claimed ← housekeeping do
    let claimed ← storeCall (SettlementDb.readyOutbox now cfg.leaseMs cfg.maxEffectsPerTick)
    modify fun s => s.setReport fun report =>
      { report with effectsDispatched := report.effectsDispatched + claimed.length }
    return claimed
  Script.forEach (fun effect _ => .ofDurable (.effect effect) (executeEffect src sink effect)) claimed
  housekeeping do
    let rows ← snapshot cfg
    modify fun s => s.setReport fun report => { report with state := some rows.context.state }
    query fun s => .ok s.report

def armRefund : EngineScript (Option IngestResult) :=
  housekeeping do
    modify fun s => s.setReport fun _ => {}
    ingest H cfg .RefundArmed none

/-! ## Recovery -/

/-- The events that could have left an evidence row. -/
def evidenceEvents (reference : EvidenceRefV1) : List SettlementEvent :=
  [.FundingObserved reference, .FundingConfirmed reference, .ClaimEvidenceVerified reference,
    .ClaimConfirmed reference, .RefundConfirmed reference]

/-- Which event produced a durable evidence row. -/
def invertEvidenceEvent (evidenceId : Digest32) (reference : EvidenceRefV1) :
    Except SettlementEngineError SettlementEvent :=
  okOr ((evidenceEvents reference).find? fun event => deriveEventId H cfg.settlementId event = evidenceId)
    .UnreconstructableParkedEvidence

def parkedEnvelopes (rows : SettlementRows) : Except SettlementEngineError (List EventEnvelopeV1) :=
  (rows.evidenceWith .Parked).mapM fun (evidenceId, reference) =>
    envelopeFor H cfg <$> invertEvidenceEvent H cfg evidenceId reference

/-- Strict big-endian reads: a read past the end fails. -/
abbrev DecodeM := StateT (List UInt8) (Except StorePortError)

def take (n : Nat) : DecodeM (List UInt8) := fun bytes =>
  if bytes.length < n then .error .CorruptEvent else .ok (bytes.take n, bytes.drop n)

def takeDigest : DecodeM Digest32 := do return BitVec.ofNat 256 (ofBeBytes (← take 32))

def takeU64 : DecodeM UInt64 := do return UInt64.ofNat (ofBeBytes (← take 8))

def takeEvidence : DecodeM EvidenceRefV1 := do
  let chainId ← takeDigest
  let txId ← takeDigest
  let eventIndex ← take 4
  let blockHeight ← takeU64
  let blockAnchor ← takeDigest
  return ⟨chainId, txId, UInt32.ofNat (ofBeBytes eventIndex), blockHeight, blockAnchor⟩

def decodeEvent : DecodeM SettlementEvent := do
  match ofBeBytes (← take 2) with
  | 1 => return .RefundArmed
  | 2 => return .FundingObserved (← takeEvidence)
  | 3 => return .FundingConfirmed (← takeEvidence)
  | 4 => return .FundingAbsent (← takeU64)
  | 5 => return .ClaimEvidenceVerified (← takeEvidence)
  | 6 => return .ClaimConfirmed (← takeEvidence)
  | 7 => return .TimelockExpired
  | 8 => return .RefundConfirmed (← takeEvidence)
  | 9 =>
    let fromHeight ← takeU64
    let oldAnchor ← takeDigest
    return .ReorgInvalidated fromHeight oldAnchor
  | _ => throw .CorruptEvent

def takeEnvelope : DecodeM EventEnvelopeV1 := do
  let version := UInt16.ofNat (ofBeBytes (← take 2))
  if version ≠ protocolVersion then throw .UnknownVersion
  let settlementId ← takeDigest
  let sessionId ← takeDigest
  let termsHash ← takeDigest
  let sourceChain ← takeDigest
  let eventId ← takeDigest
  let sourceSequence ← takeU64
  let event ← decodeEvent
  return ⟨version, settlementId, sessionId, termsHash, sourceChain, eventId, sourceSequence, event⟩

/-- Strict inverse of the canonical bytes of an envelope. -/
def EventEnvelopeV1.decode (bytes : List UInt8) : Except StorePortError EventEnvelopeV1 := do
  let (envelope, rest) ← takeEnvelope bytes
  rejectIf (rest ≠ []) StorePortError.CorruptEvent
  return envelope

/-- A journal row with its envelope decoded. -/
structure JournalRow where
  seq : Nat
  expectedRevision : UInt64
  resultingRevision : UInt64
  envelope : EventEnvelopeV1
  contextHash : Digest32
  deriving DecidableEq, Repr

/-- A row decodes to an event of its own kind. -/
def readRow (row : SettlementJournalRow) : Except StorePortError JournalRow := do
  let envelope ← EventEnvelopeV1.decode row.eventBytes
  rejectIf (eventKind envelope.event ≠ row.eventKind) StorePortError.CorruptEvent
  return ⟨row.seq, row.expectedRevision, row.resultingRevision, envelope, row.contextHash⟩

/-- Read the journal: no gap in the sequence, and every row decodes. -/
def readJournal (rows : SettlementRows) : Except StorePortError (List JournalRow) := do
  rows.journal.zipIdx.forM fun entry =>
    rejectIf (entry.1.seq ≠ entry.2 + 1) (StorePortError.Storage .CorruptState)
  rows.journal.mapM readRow

/-- Replay one journal row; `replayed` is the context so far and the number of rows behind it. -/
def replayRow (replayed : SettlementContext × Nat) (row : JournalRow) :
    Except SettlementEngineError (SettlementContext × Nat) := do
  let (ctx, expectedSeq) := replayed
  rejectIf (row.seq ≠ expectedSeq + 1) (SettlementEngineError.RecoveryDivergence "journal gap")
  rejectIf (row.envelope.settlementId ≠ cfg.settlementId ∨ row.envelope.sessionId ≠ cfg.sessionId ∨
      row.envelope.termsHash ≠ cfg.termsHash)
    (SettlementEngineError.RecoveryDivergence "journalled envelope is bound to different terms")
  rejectIf (row.expectedRevision ≠ ctx.revision)
    (SettlementEngineError.RecoveryDivergence "journalled expected revision is not the replayed one")
  let applied ← (transition ctx row.envelope.event).mapError fun _ =>
    SettlementEngineError.RecoveryDivergence "journalled event replays as illegal"
  rejectIf (applied.next.revision ≠ row.resultingRevision)
    (SettlementEngineError.RecoveryDivergence "replayed revision differs from the journalled one")
  rejectIf (contextHash H applied.next ≠ row.contextHash)
    (SettlementEngineError.RecoveryDivergence "replayed context hash differs from the journalled one")
  return (applied.next, expectedSeq + 1)

/-- The terminal row and the replayed context say the same. -/
def checkTerminal (rows : SettlementRows) (ctx : SettlementContext) : Except SettlementEngineError Unit :=
  match rows.terminal with
  | some (state, _, revision) =>
    rejectIf (ctx.state.isTerminal = false ∨ state ≠ ctx.state ∨ revision ≠ ctx.revision)
      (.RecoveryDivergence "terminal row disagrees with the replayed context")
  | none => rejectIf (ctx.state.isTerminal = true) (.RecoveryDivergence "terminal context without a terminal row")

/-- Where scanning resumes: at the durable cursor, or before the first block. -/
def resumeCursor (rows : SettlementRows) : Except SettlementEngineError ChainCursorV1 :=
  match rows.cursors[src.chainId]? with
  | some stored =>
    match stored.anchorHeight, stored.anchorHash with
    | some height, some anchor => .ok ⟨stored.cursorBytes, height, anchor⟩
    | _, _ => .error (.RecoveryDivergence "persisted cursor has no anchor")
  | none => src.genesisCursor.mapError .ChainSource

/-- Open the engine over an existing settlement and recover its memory: the journal is replayed against the
    snapshot, the scan resumes at the durable cursor and the parked rows are adopted. -/
def recover (db : SettlementDb) : Except SettlementEngineError EngineMemory := do
  let rows ← okOr db.settlements[cfg.settlementId]? SettlementEngineError.UnknownSettlement
  rejectIf (cfg.chainId ≠ src.chainId) SettlementEngineError.ChainMismatch
  let _ ← src.genesisCursor.mapError SettlementEngineError.ChainSource
  rejectIf (rows.termsHash ≠ cfg.termsHash ∨ rows.sessionId ≠ cfg.sessionId)
    (SettlementEngineError.RecoveryDivergence "snapshot binding differs from the frozen terms")
  let journal ← (readJournal rows).mapError SettlementEngineError.Store
  let (ctx, seq) ← journal.foldlM (replayRow H cfg) (SettlementContext.new, 0)
  rejectIf (ctx ≠ rows.context)
    (SettlementEngineError.RecoveryDivergence "journal replay does not reproduce the snapshot")
  rejectIf (rows.lastEventSeq ≠ seq)
    (SettlementEngineError.RecoveryDivergence "snapshot sequence does not match the journal length")
  checkTerminal rows ctx
  let scanCursor ← resumeCursor src rows
  let envelopes ← parkedEnvelopes H cfg rows
  return {
    scanCursor := scanCursor
    pendingRefunds := []
    parked := adopt [] envelopes
    timelockCommitted := journal.any fun row => row.envelope.event = .TimelockExpired }

end DomProtocol
