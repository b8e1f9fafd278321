import DomProtocol.Settlement.Threads
import DomProtocol.Settlement.Tick

/-!
# `Settlement.Race` — a tick beside other writers

The tick of `Settlement.Engine` cut at every call of the store, so that other writers commit between any two of
them.  On its own it is the same tick.  An ingest that loses the race for the revision is tried once more; when it
loses again, the record is counted as a conflict and the scan position still moves past it.  The last section says
what a run has to avoid for no record to be skipped.
-/

namespace DomProtocol

open Lib SettlementDb Script

/-! ## The tick, call by call -/

/-- The calls of a tick: those of an attempt to ingest an event, with the attempts that are left after it, those of
    a retry of the parked envelopes, the one that moves the scan position, and the others. -/
inductive TickCall where
  | attempt (event : SettlementEvent) (left : Nat) (call : IngestCall)
  | retry (call : IngestCall)
  | moveScan
  | other
  deriving DecidableEq

abbrev TickScript := Script EngineState TickCall SettlementEngineError

section Steps

variable (H : List UInt8 → Digest32) (cfg : EngineConfig)

/-- A script of the store, run by the engine. -/
def onDb {α : Type} (script : Script SettlementDb IngestCall EngineError α) :
    Script EngineState IngestCall EngineError α :=
  script.zoom EngineState.db EngineState.setDb

def inMemory {α : Type} (m : Durable EngineState EngineError α) : Script EngineState IngestCall EngineError α :=
  .ofDurable .read m

def drainPassSteps : List EventEnvelopeV1 → Script SettlementDb IngestCall EngineError (Bool × List EventEnvelopeV1)
  | [] => return (false, [])
  | env :: rest => do
      let result ← ingestSteps H env none
      let (progressed, stillParked) ← drainPassSteps rest
      match result with
      | .ParkedForReorder => return (progressed, env :: stillParked)
      | _ => return (true, stillParked)

def drainLoopSteps : Nat → List EventEnvelopeV1 → Script SettlementDb IngestCall EngineError (List EventEnvelopeV1)
  | 0, parked => return parked
  | passes + 1, parked => do
      let (progressed, stillParked) ← drainPassSteps H parked
      if progressed = false ∨ stillParked = [] then return stillParked
      else drainLoopSteps passes stillParked

def drainParkedSteps : Script EngineState IngestCall EngineError Unit := do
  let parked ← inMemory (Durable.query fun s => .ok s.memory.parked)
  inMemory (Durable.modify fun s => s.setParked [])
  let stillParked ← onDb (drainLoopSteps H (parked.length + 1) parked)
  inMemory (Durable.modify fun s => s.setParked stillParked)

variable (src : ChainSourceV1) (scannedTo : ChainCursorV1) (carries : Bool) (event : SettlementEvent)
  (env : EventEnvelopeV1) (cursor : Option CursorUpdateV1) (sink : ClaimedEffectV1 → EffectOutcome) (now : Int)

def bufferIngestSteps : Script EngineState IngestCall EngineError IngestResult := do
  let result ← onDb (ingestSteps H env cursor)
  match result with
  | .ParkedForReorder =>
    inMemory (Durable.modify fun s =>
      if env ∈ s.memory.parked then s else s.setParked (sortParked (s.memory.parked ++ [env])))
  | .Committed _ => drainParkedSteps H
  | _ => pure ()
  return result

def ingestAttemptsSteps (event : SettlementEvent) (cursor : Option CursorUpdateV1) :
    Nat → TickScript (Option IngestResult)
  | 0 => return none
  | attempts + 1 => do
      match ← ((bufferIngestSteps H (envelopeFor H cfg event) cursor).relabel (.attempt event attempts)).attempt with
      | .ok result =>
        .ofDurable .other (Durable.modify fun s => s.setReport (·.count result))
        return some result
      | .error e =>
        if e = .Store .RevisionConflict then
          .ofDurable .other
            (Durable.modify fun s => s.setReport fun report => { report with conflicts := report.conflicts + 1 })
          ingestAttemptsSteps event cursor attempts
        else .fail (.Ingest e)

def observeSteps : TickScript Unit := do
  let pendingRefunds ← .ofDurable .other (Durable.query fun s => .ok s.memory.pendingRefunds)
  let cursor ← if carries then .ofDurable .other (fromSource (safeCursor src pendingRefunds scannedTo)) else pure none
  let _ ← ingestAttemptsSteps H cfg event (cursor.map (cursorUpdate cfg)) 2

def consumeRecordSteps : ChainRecordV1 → TickScript Unit
  | .Reorg fromHeight oldAnchor => do
      .ofDurable .other (storeCall (invalidateEvidenceFrom cfg.settlementId fromHeight))
      .ofDurable .other
        (Durable.modify fun s => s.setPending (s.memory.pendingRefunds.filter (·.blockHeight < fromHeight)))
      .ofDurable .other (Durable.modify fun s => s.setParked (dropFrom fromHeight s.memory.parked))
      let _ ← ingestAttemptsSteps H cfg (.ReorgInvalidated fromHeight oldAnchor) none 2
  | .Funding evidence => observeSteps H cfg src scannedTo carries (.FundingObserved evidence)
  | .Claim evidence => observeSteps H cfg src scannedTo carries (.ClaimEvidenceVerified evidence)
  | .Refund evidence =>
    .ofDurable .other (Durable.modify fun s =>
      if evidence ∈ s.memory.pendingRefunds then s else s.setPending (s.memory.pendingRefunds ++ [evidence]))

def applyPolicyOnceSteps (tip : UInt64) : TickScript Bool := do
  let rows ← .ofDurable .other (snapshot cfg)
  let memory ← .ofDurable .other (Durable.query fun s => .ok s.memory)
  match nextPolicyEvent H cfg memory rows tip with
  | none => return false
  | some event =>
    match ← ingestAttemptsSteps H cfg event none 2 with
    | none => return false
    | some _ =>
      .ofDurable .other (Durable.modify (settlePolicy event))
      return true

def applyPolicySteps (tip : UInt64) : Nat → TickScript Unit
  | 0 => return ()
  | events + 1 => do
      if ← applyPolicyOnceSteps H cfg tip then applyPolicySteps tip events

/-- `tick`, one call of the store at a time. -/
def tickSteps : TickScript TickReportV1 := do
  .ofDurable .other (Durable.modify fun s => s.setReport fun _ => {})
  ((drainParkedSteps H).relabel .retry).mapError .Ingest
  let (records, scannedTo) ← .ofDurable .other do
    let scanCursor ← Durable.query fun s => .ok s.memory.scanCursor
    let (records, scannedTo) ← fromSource (src.scan scanCursor)
    Durable.modify fun s => s.setReport fun report => { report with recordsSeen := records.length }
    return (records, scannedTo)
  let last := lastIngestible records
  forEach (fun entry _ => consumeRecordSteps H cfg src scannedTo (last = some entry.2) entry.1) records.zipIdx
  .ofDurable .moveScan (Durable.modify fun s => s.setScan scannedTo)
  let tip ← .ofDurable .other (fromSource src.tipHeight)
  applyPolicySteps H cfg tip maxPolicyIngestsPerTick
  let claimed ← .ofDurable .other do
    let claimed ← storeCall (readyOutbox now cfg.leaseMs cfg.maxEffectsPerTick)
    Durable.modify fun s => s.setReport fun report =>
      { report with effectsDispatched := report.effectsDispatched + claimed.length }
    return claimed
  forEach (fun effect _ => .ofDurable .other (executeEffect src sink effect)) claimed
  .ofDurable .other do
    let rows ← snapshot cfg
    Durable.modify fun s => s.setReport fun report => { report with state := some rows.context.state }
    Durable.query fun s => .ok s.report

/-! ## The tick on its own -/

theorem run_drainPassSteps (envs : List EventEnvelopeV1) : (drainPassSteps H envs).run = drainPass H envs := by
  induction envs with
  | nil => rfl
  | cons env rest ih =>
    simp only [drainPassSteps, drainPass, run_bind, run_ingestSteps, ih]
    congr 1
    funext result
    congr 1
    funext p
    cases result <;> rfl

theorem run_drainLoopSteps (passes : Nat) (envs : List EventEnvelopeV1) :
    (drainLoopSteps H passes envs).run = drainLoop H passes envs := by
  induction passes generalizing envs with
  | zero => rfl
  | succ passes ih =>
    simp only [drainLoopSteps, drainLoop, run_bind, run_drainPassSteps]
    congr 1
    funext p
    split
    · rfl
    · exact ih p.2

theorem run_onDb {α : Type} (script : Script SettlementDb IngestCall EngineError α) :
    (onDb script).run = script.run.zoom EngineState.db EngineState.setDb := by
  unfold onDb
  refine run_zoom ?_ ?_ ?_ script <;> intros <;> rfl

theorem run_drainParkedSteps : (drainParkedSteps H).run = drainParked H := by
  simp only [drainParkedSteps, inMemory, run_bind, run_ofDurable, run_onDb, run_drainLoopSteps,
    drainParked]

theorem run_bufferIngestSteps : (bufferIngestSteps H env cursor).run = bufferIngest H env cursor := by
  simp only [bufferIngestSteps, bufferIngest, run_bind, run_onDb, run_ingestSteps]
  congr 1
  funext result
  cases result with
  | ParkedForReorder => simp only [inMemory, run_bind, run_ofDurable, run_pure]
  | Committed revision => simp only [run_bind, run_drainParkedSteps, run_pure]
  | Duplicate | LateNoEconomicEffect => rfl

theorem run_ingestAttemptsSteps (attempts : Nat) :
    (ingestAttemptsSteps H cfg event cursor attempts).run = ingestAttempts H cfg event cursor attempts := by
  induction attempts with
  | zero => rfl
  | succ attempts ih =>
    simp only [ingestAttemptsSteps, ingestAttempts, run_bind, run_attempt, run_relabel,
      run_bufferIngestSteps]
    congr 1
    funext outcome
    cases outcome with
    | ok result => simp only [run_bind, run_ofDurable, run_pure]
    | error e =>
      dsimp only
      split
      · simp only [run_bind, run_ofDurable, ih]
      · rfl

theorem run_observeSteps :
    (observeSteps H cfg src scannedTo carries event).run = observe H cfg src scannedTo carries event := by
  cases carries with
  | true =>
    simp only [observeSteps, observe, ingest, if_true, run_bind, run_ofDurable,
      run_ingestAttemptsSteps, run_pure]
  | false =>
    simp only [observeSteps, observe, ingest, Bool.false_eq_true, if_false, run_bind, run_ofDurable,
      run_ingestAttemptsSteps, run_pure]

theorem run_consumeRecordSteps (record : ChainRecordV1) :
    (consumeRecordSteps H cfg src scannedTo carries record).run = consumeRecord H cfg src scannedTo carries record := by
  cases record with
  | Reorg fromHeight oldAnchor =>
    simp only [consumeRecordSteps, consumeRecord, ingest, run_bind, run_ofDurable,
      run_ingestAttemptsSteps, run_pure]
  | Funding | Claim => exact run_observeSteps ..
  | Refund evidence => rw [consumeRecordSteps, run_ofDurable, consumeRecord]

theorem run_applyPolicySteps (tip : UInt64) (events : Nat) :
    (applyPolicySteps H cfg tip events).run = (applyPolicy H cfg tip events).run := by
  have honce : (applyPolicyOnceSteps H cfg tip).run = applyPolicyOnce H cfg tip := by
    simp only [applyPolicyOnceSteps, applyPolicyOnce, run_bind, run_ofDurable]
    congr 1
    funext rows
    congr 1
    funext memory
    cases nextPolicyEvent H cfg memory rows tip with
    | none => rfl
    | some event =>
      simp only [ingest, run_bind, run_ingestAttemptsSteps]
      congr 1
      funext result
      cases result with
      | none => rfl
      | some res => simp only [run_bind, run_ofDurable, run_pure]
  induction events with
  | zero => rfl
  | succ events ih =>
    simp only [applyPolicySteps, applyPolicy, run_bind, run_ofDurable, honce]
    congr 1
    funext goOn
    cases goOn with
    | true => exact ih
    | false => rfl

end Steps

/-! ## What is not forgotten -/

variable {event : SettlementEvent}

section Memory

def Retains (db db' : SettlementDb) : Prop :=
  ∀ (id : Digest32) (rows : SettlementRows), db.settlements[id]? = some rows →
    ∃ rows' : SettlementRows, db'.settlements[id]? = some rows' ∧ Remembers rows rows'

/-- **Classified**: the event was journalled, recorded as late, or stored as an evidence row when it was parked. -/
def Classified (H : List UInt8 → Digest32) (id : Digest32) (event : SettlementEvent) (db : SettlementDb) : Prop :=
  ∃ rows : SettlementRows, db.settlements[id]? = some rows ∧
    ((rows.journalled (deriveEventId H id event)).isSome ∨ (rows.late[deriveEventId H id event]?).isSome ∨
      ∃ row : EvidenceRow, rows.evidence[deriveEventId H id event]? = some row ∧
        acceptedEvidence event = some row.reference)

variable {H : List UInt8 → Digest32} {db db' db'' : SettlementDb} {rows rows' rows'' : SettlementRows}

theorem Retains.refl (db : SettlementDb) : Retains db db := fun _ rows hrows => ⟨rows, hrows, .refl rows⟩

theorem Retains.trans (h : Retains db db') (h' : Retains db' db'') : Retains db db'' := by
  intro id rows hrows
  obtain ⟨rows', hrows', hrmb⟩ := h id rows hrows
  obtain ⟨rows'', hrows'', hrmb'⟩ := h' id rows' hrows'
  exact ⟨rows'', hrows'', hrmb.trans hrmb'⟩

variable {id : Digest32}

theorem Classified.retains (h : Classified H id event db) (hrets : Retains db db') : Classified H id event db' := by
  obtain ⟨rows, hrows, hcla⟩ := h
  obtain ⟨rows', hrows', hrmb⟩ := hrets id rows hrows
  refine ⟨rows', hrows', ?_⟩
  rcases hcla with hjour | hlate | ⟨row, hrow, href⟩
  · exact .inl (hrmb.journalled _ hjour)
  · exact .inr (.inl (hrmb.late _ hlate))
  · obtain ⟨row', hrow', hsame⟩ := hrmb.evidence _ row hrow
    exact .inr (.inr ⟨row', hrow', by rw [hsame, href]⟩)

theorem OnlyRows.retains (hrows : db.settlements[id]? = some rows) (honly : OnlyRows db id rows' db')
    (h : Remembers rows rows') : Retains db db' := by
  intro a found hfnd
  by_cases ha : id = a
  · subst ha
    obtain rfl : found = rows := Option.some.inj (hfnd.symm.trans hrows)
    exact ⟨rows', by rw [honly, if_pos rfl], h⟩
  · exact ⟨found, by rw [honly, if_neg ha, hfnd], .refl found⟩

/-! ## Each operation of the store -/

/-- The transactions another writer may make. -/
inductive StoreOp where
  | create (settlementId sessionId termsHash : Digest32) (canonicalTerms : List UInt8)
  | commitTransition (expectedRevision : UInt64) (env : EventEnvelopeV1) (t : Transition)
      (effects : List OutboxEffectV1) (cursor : Option CursorUpdateV1)
  | parkEvidence (settlementId evidenceId : Digest32) (evidence : EvidenceRefV1)
  | reaffirmEvidence (settlementId evidenceId : Digest32)
  | invalidateEvidenceFrom (settlementId : Digest32) (fromHeight : UInt64)
  | recordLateEvidence (settlementId evidenceId : Digest32) (terminal : SettlementState)
  | readyOutbox (now leaseMs : Int) (max : Nat)
  | completeEffect (effectId payloadHash : Digest32)

variable (H) in
/-- The database after another writer's transaction, whether or not it succeeded. -/
def StoreOp.apply (db : SettlementDb) : StoreOp → SettlementDb
  | .create settlementId sessionId termsHash canonicalTerms =>
    (storeOp (SettlementDb.create settlementId sessionId termsHash canonicalTerms) db).final
  | .commitTransition expectedRevision env t effects cursor =>
    (storeOp (SettlementDb.commitTransition H expectedRevision env t effects cursor) db).final
  | .parkEvidence settlementId evidenceId evidence =>
    (storeOp (SettlementDb.parkEvidence settlementId evidenceId evidence) db).final
  | .reaffirmEvidence settlementId evidenceId =>
    (storeOp (SettlementDb.reaffirmEvidence settlementId evidenceId) db).final
  | .invalidateEvidenceFrom settlementId fromHeight =>
    (storeOp (SettlementDb.invalidateEvidenceFrom settlementId fromHeight) db).final
  | .recordLateEvidence settlementId evidenceId terminal =>
    (storeOp (SettlementDb.recordLateEvidence settlementId evidenceId terminal) db).final
  | .readyOutbox now leaseMs max => (storeOp (SettlementDb.readyOutbox now leaseMs max) db).final
  | .completeEffect effectId payloadHash => (storeOp (SettlementDb.completeEffect effectId payloadHash) db).final

theorem retains_of_settlements (h : db'.settlements = db.settlements) : Retains db db' := by
  intro id rows hrows
  exact ⟨rows, by rw [h, hrows], .refl rows⟩

theorem retains_commitTransition {expectedRevision : UInt64} {env : EventEnvelopeV1} {t : Transition}
    {effects : List OutboxEffectV1} {cursor : Option CursorUpdateV1} {r : SettlementDb.CommitResult}
    (h : commitTransition H expectedRevision env t effects cursor db = .ok (r, db')) : Retains db db' := by
  cases hrows : db.settlements[env.settlementId]? with
  | none => simp [commitTransition, bind_eq_ok, okOr, hrows] at h
  | some rows =>
    obtain ⟨-, rfl, -⟩ | ⟨-, happ | ⟨happ, -⟩⟩ := commitTransition_cases hrows h
    · exact .refl _
    · exact happ.onlyRows.retains hrows (remembers_writeTransition ..)
    · exact happ.onlyRows.retains hrows (remembers_writeTransition ..)

variable {evidenceId : Digest32}

theorem retains_parkEvidence {evidence : EvidenceRefV1} {r : SettlementDb.ParkResult}
    (h : parkEvidence id evidenceId evidence db = .ok (r, db')) : Retains db db' := by
  cases hrows : db.settlements[id]? with
  | none => simp [parkEvidence, hrows] at h
  | some rows =>
    obtain ⟨-, rfl, -⟩ | ⟨-, habs, -, rfl⟩ := (parkEvidence_eq_ok hrows).mp h
    · exact .refl _
    · exact (onlyRows_putRows db id _).retains hrows (remembers_park habs _)

variable {u : Unit}

theorem retains_reaffirmEvidence (h : reaffirmEvidence id evidenceId db = .ok (u, db')) : Retains db db' := by
  cases hrows : db.settlements[id]? with
  | none =>
    simp only [reaffirmEvidence, hrows] at h
    cases h
    exact .refl _
  | some rows =>
    rw [reaffirmEvidence_eq hrows] at h
    cases h
    exact (onlyRows_putRows db id _).retains hrows (remembers_reaffirm ..)

theorem retains_invalidateEvidenceFrom {fromHeight : UInt64}
    (h : invalidateEvidenceFrom id fromHeight db = .ok (u, db')) : Retains db db' := by
  obtain rfl | ⟨rows, hrows, rfl⟩ := invalidateEvidenceFrom_cases h
  · exact .refl _
  · exact (onlyRows_putRows db id _).retains hrows (remembers_invalidateFrom ..)

theorem retains_recordLateEvidence {state : SettlementState}
    (h : recordLateEvidence id evidenceId state db = .ok (u, db')) : Retains db db' := by
  cases hrows : db.settlements[id]? with
  | none => simp [recordLateEvidence, hrows] at h
  | some rows =>
    rw [recordLateEvidence_eq hrows] at h
    cases h
    exact (onlyRows_putRows db id _).retains hrows (remembers_late ..)

theorem retains_create {settlementId sessionId termsHash : Digest32} {canonicalTerms : List UInt8}
    (h : SettlementDb.create settlementId sessionId termsHash canonicalTerms db = .ok (u, db')) : Retains db db' := by
  obtain rfl | ⟨hnone, rfl⟩ := create_cases h
  · exact .refl _
  · intro id rows hrows
    refine ⟨rows, ?_, .refl rows⟩
    rw [settlements_putRows, if_neg ?_, hrows]
    rintro rfl
    rw [hnone] at hrows
    cases hrows

/-- **No transaction of the store forgets anything.** -/
theorem StoreOp.retains (op : StoreOp) (db : SettlementDb) : Retains db (op.apply H db) := by
  cases op with
  | create => exact final_storeOp (.refl db) fun _ _ => retains_create
  | commitTransition => exact final_storeOp (.refl db) fun _ _ => retains_commitTransition
  | parkEvidence => exact final_storeOp (.refl db) fun _ _ => retains_parkEvidence
  | reaffirmEvidence => exact final_storeOp (.refl db) fun _ _ => retains_reaffirmEvidence
  | invalidateEvidenceFrom => exact final_storeOp (.refl db) fun _ _ => retains_invalidateEvidenceFrom
  | recordLateEvidence => exact final_storeOp (.refl db) fun _ _ => retains_recordLateEvidence
  | readyOutbox => exact final_storeOp (.refl db) fun _ _ h => retains_of_settlements (readyOutbox_settlements h)
  | completeEffect => exact final_storeOp (.refl db) fun _ _ h => retains_of_settlements (completeEffect_settlements h)

end Memory

/-! ## What a tick withstands -/

variable {f : EngineState → EngineState} {label : TickCall} {r : Race}

section Race

variable (H : List UInt8 → Digest32) (cfg : EngineConfig)

/-- The event by which a funding or claim record of a scan is ingested. -/
def observedEvent : ChainRecordV1 → Option SettlementEvent
  | .Funding evidence => some (.FundingObserved evidence)
  | .Claim evidence => some (.ClaimEvidenceVerified evidence)
  | _ => none

/-- The condition on a call: the last attempt to ingest a funding or claim does not commit at a revision that is gone,
    unless the event was classified in the meantime. -/
def RaceClear (db : SettlementDb) : TickCall → Prop
  | .attempt event 0 (.commit _ revision) =>
    (∃ record, observedEvent record = some event) → ∀ rows, db.settlements[cfg.settlementId]? = some rows →
      rows.context.revision = revision ∨ Classified H cfg.settlementId event db
  | _ => True

variable {H cfg}

theorem commitAccepted_retains (ctx : SettlementContext) (env : EventEnvelopeV1) (t : Transition)
    (cursor : Option CursorUpdateV1) (db : SettlementDb) : Retains db (commitAccepted H ctx env t cursor db).final := by
  rw [final_commitAccepted]
  exact final_storeOp (.refl db) fun _ _ => retains_commitTransition

theorem redeliver_retains (ctx : SettlementContext) (env : EventEnvelopeV1) (cursor : Option CursorUpdateV1)
    (db : SettlementDb) : Retains db (redeliver H ctx env cursor db).final :=
  final_redeliver (.refl db) (fun _ _ => retains_reaffirmEvidence) fun t _ => commitAccepted_retains ctx env t cursor db

theorem invalidateReorged_retains (env : EventEnvelopeV1) (db : SettlementDb) :
    Retains db (invalidateReorged env db).final := by
  unfold invalidateReorged
  cases env.event with
  | ReorgInvalidated fromHeight oldAnchor => exact final_storeOp (.refl db) fun _ _ => retains_invalidateEvidenceFrom
  | _ => exact .refl db

variable {guard : SettlementDb → IngestCall → Prop}

variable {db : SettlementDb} {rows : SettlementRows} {out : RunOf SettlementDb EngineError IngestResult}

/-- The commit of an event of the engine classifies it, or finds the revision gone and changes nothing. -/
theorem commitAccepted_race (event : SettlementEvent) (ctx : SettlementContext) (t : Transition)
    (cursor : Option CursorUpdateV1) (hrows : db.settlements[cfg.settlementId]? = some rows)
    (hout : commitAccepted H ctx (envelopeFor H cfg event) t cursor db = out) :
    (∀ res, out.result = .ok res → Classified H cfg.settlementId event out.final) ∧
      (out.result = .error (.Store .RevisionConflict) → out.final = db ∧ rows.context.revision ≠ ctx.revision) := by
  have hrows' : db.settlements[(envelopeFor H cfg event).settlementId]? = some rows := hrows
  rw [← hout, commitAccepted]
  obtain ⟨r, db', hcmt, hrun⟩ | ⟨e, hcmt, hrun⟩ := storeOp_cases (commitTransition H ctx.revision
    (envelopeFor H cfg event) t (effectsToOutbox H (envelopeFor H cfg event) t.effects) cursor) db
  · rw [Durable.run_bind_ok (by rw [hrun])]
    simp only [hrun]
    have hjld {rows' : SettlementRows} (hfnd : db'.settlements[cfg.settlementId]? = some rows')
        (h : (rows'.journalled (deriveEventId H cfg.settlementId event)).isSome) :
        Classified H cfg.settlementId event db' := ⟨rows', hfnd, .inl h⟩
    obtain ⟨rfl, rfl, hsome⟩ | ⟨rfl, happ | ⟨-, -, hsome⟩⟩ := commitTransition_cases hrows' hcmt
    · exact ⟨fun _ _ => hjld hrows hsome, nofun⟩
    · exact ⟨fun _ _ => hjld (by rw [happ.onlyRows]; exact if_pos rfl) (journalled_writeTransition (.inl rfl)), nofun⟩
    · obtain ⟨rows', hfnd, hrmb⟩ := retains_commitTransition hcmt _ rows hrows
      exact ⟨fun _ _ => hjld hfnd (hrmb.journalled _ hsome), nofun⟩
  · rw [Durable.run_bind_error (by rw [hrun])]
    simp only [hrun]
    refine ⟨nofun, fun hcfl => ⟨trivial, fun hsame => ?_⟩⟩
    cases hcfl
    rw [← hsame] at hcmt
    exact commitTransition_ne_conflict hrows' hcmt

theorem refused_race {ctx : SettlementContext} {e : TransitionError}
    (hrfd : transition ctx event = .error e) (cursor : Option CursorUpdateV1)
    (hrows : db.settlements[cfg.settlementId]? = some rows)
    (hout : deliver H ctx (envelopeFor H cfg event) cursor db = out) :
    (∀ res, out.result = .ok res → Classified H cfg.settlementId event out.final) ∧
      out.result ≠ .error (.Store .RevisionConflict) := by
  have hrows' : db.settlements[(envelopeFor H cfg event).settlementId]? = some rows := hrows
  rw [← hout, deliver, show transition ctx (envelopeFor H cfg event).event = .error e from hrfd]
  dsimp only
  split
  · cases hevd : acceptedEvidence (envelopeFor H cfg event).event with
    | none => exact ⟨by simp, by simp⟩
    | some evidence =>
      dsimp only
      obtain ⟨r, db', hop, hrun⟩ | ⟨e', hop, hrun⟩ := storeOp_cases
        (parkEvidence (envelopeFor H cfg event).settlementId (envelopeFor H cfg event).eventId evidence) db
      · rw [Durable.run_bind_ok (by rw [hrun])]
        simp only [hrun, Durable.run_pure]
        refine ⟨fun _ _ => ?_, by simp⟩
        obtain ⟨-, rfl, row, hrow, href⟩ | ⟨-, -, -, rfl⟩ := (parkEvidence_eq_ok hrows').mp hop
        · exact ⟨rows, hrows, .inr (.inr ⟨row, hrow, by rw [href]; exact hevd⟩)⟩
        · refine ⟨_, by rw [settlements_putRows]; exact if_pos rfl,
            .inr (.inr ⟨⟨evidence, .Parked, rows.lastEventSeq⟩, ?_, hevd⟩)⟩
          show (rows.evidence.insert _ _)[_]? = _
          rw [getElem?_insert]
          exact if_pos rfl
      · rw [Durable.run_bind_error (by rw [hrun])]
        simp only [hrun]
        refine ⟨by simp, fun h => ?_⟩
        cases h
        exact parkEvidence_ne_conflict hop
  · exact ⟨by simp, by simp⟩

theorem late_race (event : SettlementEvent) (state : SettlementState)
    (hrows : db.settlements[cfg.settlementId]? = some rows) {out : RunOf SettlementDb EngineError Unit}
    (hout : storeOp (recordLateEvidence (envelopeFor H cfg event).settlementId (envelopeFor H cfg event).eventId state) db =
      out) : Classified H cfg.settlementId event out.final ∧ out.result = .ok () := by
  have hlate := recordLateEvidence_eq hrows (envelopeFor H cfg event).eventId state
  obtain ⟨u, db', hop, hrun⟩ | ⟨e, hop, hrun⟩ := storeOp_cases (recordLateEvidence
    (envelopeFor H cfg event).settlementId (envelopeFor H cfg event).eventId state) db
  · cases hop.symm.trans hlate
    rw [← hout, hrun]
    refine ⟨⟨_, by rw [settlements_putRows, if_pos rfl], .inr (.inl ?_)⟩, rfl⟩
    show ((rows.late.insertIfNew _ _)[_]?).isSome
    rw [Std.ExtTreeMap.getElem?_insertIfNew]
    split
    · rfl
    · rename_i h
      simpa [envelopeFor] using h
  · cases hop.symm.trans hlate

variable (H cfg) in
/-- How an ingest ends beside other writers: its event is classified when it succeeds; when it loses the race, then at
    a commit that met `guard`, at a revision that was gone. -/
def Raced (guard : SettlementDb → IngestCall → Prop) (event : SettlementEvent) (r : Except EngineError IngestResult)
    (db : SettlementDb) : Prop :=
  (∀ res, r = .ok res → Classified H cfg.settlementId event db) ∧
    (r = .error (.Store .RevisionConflict) → Classified H cfg.settlementId event db ∨
      ∃ revision, guard db (.commit (envelopeFor H cfg event) revision) ∧
        ∃ rows, db.settlements[cfg.settlementId]? = some rows ∧ rows.context.revision ≠ revision)

/-- **One ingest beside other writers.** -/
theorem ingestSteps_race (env : EventEnvelopeV1) (cursor : Option CursorUpdateV1) (db : SettlementDb) :
    (ingestSteps H env cursor).Withstands Retains guard Retains
      (fun r db' => ∀ cfg event, env = envelopeFor H cfg event → Raced H cfg guard event r db') db := by
  unfold ingestSteps
  refine .bind (.ofDurable fun db₀ _ _ => ⟨.refl _, fun rows hload => ?_, fun e he _ _ _ => ⟨nofun, fun h => ?_⟩⟩)
  · have hrows : db₀.settlements[env.settlementId]? = some rows := okOr_eq_ok.mp hload
    show Script.Withstands _ _ _ _ _ db₀
    split
    · exact .fail fun _ _ _ => ⟨nofun, nofun⟩
    · refine .bind (.ofDurable fun db₁ hdb₁ _ => ⟨.refl _, fun previous hprv => ?_, nofun⟩)
      show Script.Withstands _ _ _ _ _ db₁
      cases previous with
      | some row =>
        dsimp only
        split
        · exact .fail fun _ _ _ => ⟨nofun, nofun⟩
        · -- the event is journalled, whatever the redelivery answers
          refine .ofDurable fun db₂ hdb₂ _ => ?_
          have hrets := redeliver_retains rows.context env cursor db₂ (H := H)
          refine ⟨hrets, ?_⟩
          rintro cfg event rfl
          have hjour : Classified H cfg.settlementId event db₁ := by
            obtain ⟨rows₁, hrows₁, hlk⟩ := Option.bind_eq_some_iff.mp (Except.ok.inj hprv)
            exact ⟨rows₁, hrows₁, .inl (Option.isSome_iff_exists.mpr ⟨row, hlk⟩)⟩
          have hcla := hjour.retains (hdb₂.trans hrets)
          exact ⟨fun _ _ => hcla, fun _ => .inl hcla⟩
      | none =>
        dsimp only
        split
        · refine .ofDurable fun db₂ hdb₂ _ => ⟨?_, ?_⟩
          · rw [final_storeOp_bind]
            exact final_storeOp (.refl _) fun _ _ => retains_recordLateEvidence
          · rintro cfg event rfl
            obtain ⟨rows₂, hrows₂, -⟩ := (hdb₁.trans hdb₂) _ rows hrows
            obtain ⟨hcla, hres⟩ := late_race event rows.context.state hrows₂ (H := H) rfl
            rw [Durable.run_bind_ok hres]
            exact ⟨fun _ _ => hcla, nofun⟩
        · cases hacc : transition rows.context env.event with
          | error e =>
            refine .ofDurable fun db₂ hdb₂ _ => ⟨final_refused hacc (.refl _) fun _ _ _ => retains_parkEvidence, ?_⟩
            rintro cfg event rfl
            obtain ⟨rows₂, hrows₂, -⟩ := (hdb₁.trans hdb₂) _ rows hrows
            obtain ⟨hok, hrace⟩ := refused_race hacc cursor hrows₂ rfl
            exact ⟨hok, fun h => absurd h hrace⟩
          | ok t =>
            refine .bind (.ofDurable fun db₂ hdb₂ _ => ⟨invalidateReorged_retains env db₂, fun _ _ => ?_,
              fun e he _ _ _ => ⟨nofun, fun h => ?_⟩⟩)
            · refine .ofDurable fun db₃ hdb₃ hgd => ⟨commitAccepted_retains _ _ _ _ _, ?_⟩
              rintro cfg event rfl
              obtain ⟨rows₃, hrows₃, -⟩ :=
                (((hdb₁.trans hdb₂).trans (invalidateReorged_retains _ db₂)).trans hdb₃) _ rows hrows
              obtain ⟨hok, hrace⟩ := commitAccepted_race event rows.context t cursor hrows₃ (H := H) rfl
              refine ⟨hok, fun h => .inr ⟨rows.context.revision, ?_, rows₃, ?_, (hrace h).2⟩⟩
              · rw [(hrace h).1]
                exact hgd
              · rw [(hrace h).1]
                exact hrows₃
            · obtain ⟨rows₂, hrows₂, -⟩ := (hdb₁.trans hdb₂) _ rows hrows
              obtain ⟨e', hne, hrun⟩ | ⟨hrun, -⟩ | ⟨fromHeight, oldAnchor, db', -, -, hrun⟩ :=
                invalidateReorged_cases hrows₂
              all_goals
                rw [hrun] at he
                cases he
              cases h
              exact absurd rfl hne
  · have hload := okOr_eq_error.mp he
    cases h
    cases hload.2

/-- What the others do between two calls of the engine: nothing of its memory changes, nothing is forgotten. -/
def Meanwhile (s s' : EngineState) : Prop := s'.memory = s.memory ∧ s'.report = s.report ∧ Retains s.db s'.db

/-- What the engine's own calls before the end of the records keep. -/
def Onward (s s' : EngineState) : Prop := s'.memory.scanCursor = s.memory.scanCursor ∧ Retains s.db s'.db

theorem Onward.refl (s : EngineState) : Onward s s := ⟨rfl, .refl _⟩

theorem Onward.trans {a b c : EngineState} (h : Onward a b) (h' : Onward b c) : Onward a c :=
  ⟨h'.1.trans h.1, h.2.trans h'.2⟩

variable {s : EngineState}

theorem Meanwhile.onward {s' : EngineState} (h : Meanwhile s s') : Onward s s' := ⟨by rw [h.1], h.2.2⟩

variable {α : Type}

theorem onDb_race {guard : EngineState → IngestCall → Prop} (guard' : SettlementDb → IngestCall → Prop)
    {script : Script SettlementDb IngestCall EngineError α} {Q : Except EngineError α → SettlementDb → Prop}
    (hgd : ∀ s call, guard s call → guard' s.db call) (h : script.Withstands Retains guard' Retains Q s.db) :
    (onDb script).Withstands Meanwhile guard Onward (fun r s' => Q r s'.db) s := by
  refine .zoom (fun _ _ => rfl) (fun _ _ h => h.2.2) hgd (fun _ _ h => ⟨rfl, h⟩) h

theorem inMemory_race {guard : EngineState → IngestCall → Prop} (hf : ∀ s, Onward s (f s)) :
    (inMemory (Durable.modify f)).Withstands Meanwhile guard Onward (fun r _ => r = .ok ()) s :=
  .ofDurable fun s' _ _ => ⟨hf s', rfl⟩

theorem drainPassSteps_retains (envs : List EventEnvelopeV1) (db : SettlementDb) :
    (drainPassSteps H envs).Withstands Retains guard Retains (fun _ _ => True) db := by
  induction envs generalizing db with
  | nil => exact .pure trivial
  | cons env rest ih =>
    refine .bind ((ingestSteps_race env none db).mono fun _ _ _ => ⟨fun result _ => ?_, fun _ _ => trivial⟩)
    refine .bind ((ih _).mono fun _ _ _ => ⟨fun p _ => ?_, fun _ _ => trivial⟩)
    cases result <;> exact .pure trivial

theorem drainLoopSteps_retains (passes : Nat) (envs : List EventEnvelopeV1) (db : SettlementDb) :
    (drainLoopSteps H passes envs).Withstands Retains guard Retains (fun _ _ => True) db := by
  induction passes generalizing envs db with
  | zero => exact .pure trivial
  | succ passes ih =>
    refine .bind ((drainPassSteps_retains envs db).mono fun _ _ _ => ⟨fun p _ => ?_, fun _ _ => trivial⟩)
    obtain ⟨progressed, stillParked⟩ := p
    dsimp only
    split
    · exact .pure trivial
    · exact ih _ _

theorem drainParkedSteps_onward {guard : EngineState → IngestCall → Prop} (s : EngineState) :
    (drainParkedSteps H).Withstands Meanwhile guard Onward (fun _ _ => True) s := by
  refine .bind (.ofDurable fun s₀ _ _ => ⟨.refl _, fun parked _ => ?_, fun _ _ => trivial⟩)
  have hset {s : EngineState} (parked : List EventEnvelopeV1) :
      (inMemory (Durable.modify fun s => s.setParked parked)).Withstands Meanwhile guard Onward (fun _ _ => True) s :=
    (inMemory_race fun _ => ⟨rfl, .refl _⟩).mono fun _ _ _ => trivial
  refine .bind ((hset []).mono fun _ _ _ => ⟨fun _ _ => ?_, fun _ _ => trivial⟩)
  have hdrn {s : EngineState} : (onDb (drainLoopSteps H (parked.length + 1) parked)).Withstands Meanwhile guard Onward
      (fun _ _ => True) s :=
    onDb_race (fun _ _ => True) (fun _ _ _ => trivial) (drainLoopSteps_retains _ _ _)
  refine .bind (hdrn.mono fun _ _ _ => ⟨fun stillParked _ => ?_, fun _ _ => trivial⟩)
  exact hset stillParked

theorem withstands_onward {L ε : Type} {script : Script EngineState L ε α} {guard : EngineState → L → Prop}
    {Q : Except ε α → EngineState → Prop} (h : script.Withstands Meanwhile guard Onward Q s) :
    script.Withstands Meanwhile guard Onward (fun r s' => Q r s' ∧ Onward s s') s :=
  h.track Onward.refl (fun _ _ _ => Onward.trans) (fun _ _ => Meanwhile.onward) (fun _ _ h => h)

/-- **An ingest through the buffer.** -/
theorem bufferIngestSteps_race {guard : EngineState → IngestCall → Prop} (guard' : SettlementDb → IngestCall → Prop)
    (hgd : ∀ s call, guard s call → guard' s.db call) (event : SettlementEvent) (cursor : Option CursorUpdateV1)
    (s : EngineState) : (bufferIngestSteps H (envelopeFor H cfg event) cursor).Withstands Meanwhile guard Onward
      (fun r s' => Raced H cfg guard' event r s'.db) s := by
  refine .bind ((onDb_race guard' hgd (ingestSteps_race _ cursor s.db)).mono ?_)
  intro r s₁ hraced
  obtain ⟨hok, hrace⟩ := hraced cfg event rfl
  refine ⟨fun result hr => ?_, fun e he => ⟨nofun, fun h => hrace (he.trans ?_)⟩⟩
  · have hcla := hok result hr
    -- from here on the event is classified, whatever else happens
    have haft {x : Script EngineState IngestCall EngineError Unit}
        (hx : x.Withstands Meanwhile guard Onward (fun _ _ => True) s₁) :
        (x >>= fun _ => pure result).Withstands Meanwhile guard Onward (fun r s' => Raced H cfg guard' event r s'.db) s₁ := by
      refine .bind ((withstands_onward hx).mono ?_)
      rintro r s₂ ⟨-, honward⟩
      have hcla₂ := hcla.retains honward.2
      exact ⟨fun _ _ => .pure ⟨fun _ _ => hcla₂, nofun⟩, fun _ _ => ⟨nofun, fun _ => .inl hcla₂⟩⟩
    cases result with
    | ParkedForReorder =>
      refine haft ((inMemory_race fun s => ?_).mono fun _ _ _ => trivial)
      split
      · exact .refl s
      · exact ⟨rfl, .refl _⟩
    | Committed revision => exact haft (drainParkedSteps_onward s₁)
    | Duplicate | LateNoEconomicEffect => exact .pure ⟨fun _ _ => hcla, nofun⟩
  · cases h
    rfl

/-- What a tick relies on: the calls of the others, and the condition at its own. -/
abbrev Holds {α : Type} (H : List UInt8 → Digest32) (cfg : EngineConfig) (script : TickScript α)
    (guar : EngineState → EngineState → Prop) (Q : Except SettlementEngineError α → EngineState → Prop) :
    EngineState → Prop :=
  script.Withstands Meanwhile (fun s call => RaceClear H cfg s.db call) guar Q

theorem holds_call {m : Durable EngineState SettlementEngineError α} {guar : EngineState → EngineState → Prop}
    {Q : Except SettlementEngineError α → EngineState → Prop}
    (h : ∀ s', Meanwhile s s' → m.Ensures s' (fun _ => True) fun r s'' => guar s' s'' ∧ Q r s'') :
    Holds H cfg (.ofDurable label m) guar Q s :=
  .ofDurable fun s' hs' _ => (h s' hs').2

theorem holds_modify {Q : Except SettlementEngineError Unit → EngineState → Prop} (hf : ∀ s, Onward s (f s))
    (h : ∀ s', Onward s s' → Q (.ok ()) s') : Holds H cfg (.ofDurable label (Durable.modify f)) Onward Q s :=
  holds_call fun s' hs' => .modify ⟨hf s', h _ (hs'.onward.trans (hf s'))⟩

/-- **The attempts to ingest an event.**  A funding or claim is classified when they end without an error, also when
    each lost the race: the last one then met the condition. -/
theorem ingestAttemptsSteps_race (event : SettlementEvent) (cursor : Option CursorUpdateV1) (attempts : Nat)
    (s : EngineState) :
    Holds H cfg (ingestAttemptsSteps H cfg event cursor (attempts + 1)) Onward (fun r s' => ∀ res, r = .ok res →
      (∃ record, observedEvent record = some event) → Classified H cfg.settlementId event s'.db) s := by
  refine .bind (.attempt (.relabel ((bufferIngestSteps_race (fun db call =>
    RaceClear H cfg db (.attempt event attempts call)) (fun _ _ h => h) event cursor s).mono ?_)))
  rintro r s₁ ⟨hok, hrace⟩
  refine ⟨?_, nofun⟩
  rintro _ ⟨⟩
  cases r with
  | ok result =>
    refine .bind (holds_modify (fun _ => ⟨rfl, .refl _⟩) fun s₂ hs₂ => ⟨fun _ _ => .pure ?_, nofun⟩)
    intro _ _ _
    exact (hok result rfl).retains hs₂.2
  | error e =>
    dsimp only
    split
    · rename_i hcfl
      subst hcfl
      refine .bind (holds_modify (fun _ => ⟨rfl, .refl _⟩) fun s₂ hs₂ => ⟨fun _ _ => ?_, nofun⟩)
      cases attempts with
      | zero =>
        refine .pure fun _ _ hobs => ?_
        have hcla : Classified H cfg.settlementId event s₁.db := by
          rcases hrace rfl with hcla | ⟨revision, hclr, rows, hrows, hgone⟩
          · exact hcla
          · exact (hclr hobs rows hrows).resolve_left hgone
        exact hcla.retains hs₂.2
      | succ attempts => exact ingestAttemptsSteps_race event cursor attempts s₂
    · exact .fail nofun

theorem observeSteps_race (src : ChainSourceV1) (scannedTo : ChainCursorV1) (carries : Bool) (event : SettlementEvent)
    (s : EngineState) : Holds H cfg (observeSteps H cfg src scannedTo carries event) Onward (fun r s' => r = .ok () →
      (∃ record, observedEvent record = some event) → Classified H cfg.settlementId event s'.db) s := by
  have hingest (cursor : Option ChainCursorV1) (s : EngineState) :
      Holds H cfg (do let _ ← ingestAttemptsSteps H cfg event (cursor.map (cursorUpdate cfg)) 2) Onward
        (fun r s' => r = .ok () →
          (∃ record, observedEvent record = some event) → Classified H cfg.settlementId event s'.db) s := by
    refine .bind ((ingestAttemptsSteps_race event _ 1 s).mono fun r s' h => ⟨fun res hres => .pure ?_, nofun⟩)
    exact fun _ => h res hres
  refine .bind (holds_call fun s₁ _ => .query ⟨.refl s₁, fun pendingRefunds _ => ?_, nofun⟩)
  cases carries with
  | true => exact .bind (holds_call fun s₂ _ => .query ⟨.refl s₂, fun cursor _ => hingest cursor s₂, nofun⟩)
  | false => exact hingest none s₁

/-- **One record.** -/
theorem consumeRecordSteps_race (src : ChainSourceV1) (scannedTo : ChainCursorV1) (carries : Bool)
    (record : ChainRecordV1) (s : EngineState) :
    Holds H cfg (consumeRecordSteps H cfg src scannedTo carries record) Onward (fun r s' => r = .ok () →
      ∀ event, observedEvent record = some event → Classified H cfg.settlementId event s'.db) s := by
  cases record with
  | Funding evidence | Claim evidence =>
    refine (observeSteps_race src scannedTo carries _ s).mono fun r s' h hok event hev => ?_
    obtain rfl := Option.some.inj hev
    exact h hok ⟨_, hev⟩
  | Reorg fromHeight oldAnchor =>
    refine .bind (holds_call fun s₁ _ => storeCall_ensures ?_ ?_)
    · intro u db' hop
      refine ⟨trivial, ⟨rfl, retains_invalidateEvidenceFrom hop⟩, fun _ _ => ?_, nofun⟩
      refine .bind (holds_modify (fun _ => ⟨rfl, .refl _⟩) fun s₂ _ => ⟨fun _ _ => ?_, nofun⟩)
      refine .bind (holds_modify (fun _ => ⟨rfl, .refl _⟩) fun s₃ _ => ⟨fun _ _ => ?_, nofun⟩)
      refine .bind ((ingestAttemptsSteps_race _ none 1 s₃).mono fun _ _ _ => ⟨fun _ _ => .pure ?_, nofun⟩)
      exact fun _ _ => nofun
    · intro e _
      exact ⟨.refl s₁, nofun, nofun⟩
  | Refund evidence =>
    refine holds_modify (fun s => ?_) fun _ _ _ => nofun
    split
    · exact .refl s
    · exact ⟨rfl, .refl _⟩

/-- **The records of a scan.** -/
theorem records_race (src : ChainSourceV1) (scannedTo : ChainCursorV1) (carries : Nat → Bool)
    (entries : List (ChainRecordV1 × Nat)) (s : EngineState) :
    Holds H cfg (forEach (fun entry _ => consumeRecordSteps H cfg src scannedTo (carries entry.2) entry.1)
      entries) Onward (fun r s' => r = .ok () → ∀ entry ∈ entries, ∀ event,
        observedEvent entry.1 = some event → Classified H cfg.settlementId event s'.db) s := by
  induction entries generalizing s with
  | nil => exact .pure fun _ _ => nofun
  | cons entry rest ih =>
    refine .bind ((consumeRecordSteps_race src scannedTo _ entry.1 s).mono fun r s₁ hfst => ⟨?_, nofun⟩)
    rintro _ rfl
    -- what the first record left is still there after the others
    refine (withstands_onward (ih s₁)).mono ?_
    rintro r s₂ ⟨hrest, honward⟩ hok found hfnd event hev
    rcases List.mem_cons.mp hfnd with rfl | hfnd
    · exact (hfst rfl event hev).retains honward.2
    · exact hrest hok found hfnd event hev

variable (H cfg) in
/-- Every funding and claim that a scan from `start` returns is classified. -/
def ScanClassified (src : ChainSourceV1) (start : ChainCursorV1) (db : SettlementDb) : Prop :=
  ∀ records scannedTo, src.scan start = .ok (records, scannedTo) →
    ∀ record ∈ records, ∀ event, observedEvent record = some event → Classified H cfg.settlementId event db

variable {src : ChainSourceV1}

theorem ScanClassified.retains {start : ChainCursorV1} {db' : SettlementDb} (h : ScanClassified H cfg src start db)
    (hrets : Retains db db') : ScanClassified H cfg src start db' := by
  intro records scannedTo hscan record hrec event hev
  exact (h records scannedTo hscan record hrec event hev).retains hrets

variable (H cfg) in
/-- What each call of a tick does: nothing is forgotten, and the scan position moves only when the scan is
    classified. -/
def Moves (src : ChainSourceV1) (start : ChainCursorV1) (s s' : EngineState) : Prop :=
  Retains s.db s'.db ∧
    (s'.memory.scanCursor = s.memory.scanCursor ∨ ScanClassified H cfg src start s.db)

theorem Onward.moves {start : ChainCursorV1} {s' : EngineState} (h : Onward s s') :
    Moves H cfg src start s s' := ⟨h.2, .inl h.1⟩

section Tick

variable {src : ChainSourceV1} {start : ChainCursorV1} {s : EngineState}

variable (H cfg src start) in
/-- A part of the tick after the records: it forgets nothing, so the scan stays classified. -/
abbrev Stays {α : Type} (script : TickScript α) (s : EngineState) : Prop :=
  Holds H cfg script (Moves H cfg src start) (fun _ s' => ScanClassified H cfg src start s'.db) s

theorem stays_call {α : Type} {m : Durable EngineState SettlementEngineError α}
    (hm : ∀ s', m.Ensures s' (fun _ => True) fun _ s'' => Retains s'.db s''.db)
    (h : ScanClassified H cfg src start s.db) : Stays H cfg src start (.ofDurable label m) s := by
  refine holds_call fun s' hs' => (hm s').mono fun _ s'' hrets => ?_
  have hbef := h.retains hs'.2.2
  exact ⟨⟨hrets, .inr hbef⟩, hbef.retains hrets⟩

theorem stays_bind {α β : Type} {x : TickScript α} {f : α → TickScript β} (hx : Stays H cfg src start x s)
    (hf : ∀ a s', ScanClassified H cfg src start s'.db → Stays H cfg src start (f a) s') :
    Stays H cfg src start (x >>= f) s :=
  .bind (hx.mono fun _ s' h => ⟨fun a _ => hf a s' h, fun _ _ => h⟩)

theorem stays_attempts (event : SettlementEvent) (attempts : Nat) (h : ScanClassified H cfg src start s.db) :
    Stays H cfg src start (ingestAttemptsSteps H cfg event none (attempts + 1)) s :=
  (withstands_onward (ingestAttemptsSteps_race event none attempts s)).weaken (fun _ _ => Onward.moves)
    fun _ _ hend => h.retains hend.2.2

theorem stays_policy (tip : UInt64) (events : Nat) (h : ScanClassified H cfg src start s.db) :
    Stays H cfg src start (applyPolicySteps H cfg tip events) s := by
  induction events generalizing s with
  | zero => exact .pure h
  | succ events ih =>
    have honce : Stays H cfg src start (applyPolicyOnceSteps H cfg tip) s := by
      refine stays_bind (stays_call (fun _ => .query (.refl _)) h) fun rows s₁ h₁ => ?_
      refine stays_bind (stays_call (fun _ => .query (.refl _)) h₁) fun memory s₂ h₂ => ?_
      cases nextPolicyEvent H cfg memory rows tip with
      | none => exact .pure h₂
      | some event =>
        refine stays_bind (stays_attempts event 1 h₂) fun result s₃ h₃ => ?_
        cases result with
        | none => exact .pure h₃
        | some res =>
          refine stays_bind (stays_call (fun s' => .modify ?_) h₃) fun _ s₄ h₄ => .pure h₄
          cases event <;> exact .refl _
    refine stays_bind honce fun goOn s₁ h₁ => ?_
    cases goOn with
    | true => exact ih h₁
    | false => exact .pure h₁

theorem executeEffect_retains (sink : ClaimedEffectV1 → EffectOutcome) (effect : ClaimedEffectV1) (s : EngineState) :
    (executeEffect src sink effect).Ensures s (fun _ => True) fun _ s' => Retains s.db s'.db := by
  have hcpl (s₁ : EngineState) (h : Retains s.db s₁.db) :
      (completeClaimed effect).Ensures s₁ (fun _ => True) fun _ s' => Retains s.db s'.db := by
    refine .bind (storeCall_ensures ?_ ?_)
    · intro _ db' hop
      have hrets := h.trans (retains_of_settlements (completeEffect_settlements hop))
      exact ⟨trivial, fun _ _ => .modify hrets, nofun⟩
    · intro _ _
      exact ⟨nofun, fun _ _ => h⟩
  unfold executeEffect
  split
  · rename_i height _
    dsimp only
    generalize (if height = 0 then 0 else height - 1) = floor
    refine .bind (.query ⟨fun scanCursor _ => ?_, nofun⟩)
    split
    · refine .bind (.query ⟨fun rewound _ => .bind (.modify ⟨fun _ _ => ?_, nofun⟩), fun _ _ => .refl _⟩)
      exact hcpl _ (.refl _)
    · exact hcpl s (.refl _)
  · split
    · exact hcpl s (.refl _)
    · exact .pure (.refl _)
    · exact .modify (.refl _)

theorem stays_effects (sink : ClaimedEffectV1 → EffectOutcome) (effects : List ClaimedEffectV1)
    (h : ScanClassified H cfg src start s.db) :
    Stays H cfg src start (forEach (fun effect _ => .ofDurable .other (executeEffect src sink effect))
      effects) s := by
  induction effects generalizing s with
  | nil => exact .pure h
  | cons effect rest ih =>
    exact stays_bind (stays_call (executeEffect_retains sink effect) h) fun _ _ h₁ => ih h₁

/-- **A tick beside other writers**, from where it reads its scan position. -/
theorem tickSteps_race (sink : ClaimedEffectV1 → EffectOutcome) (now : Int) (hstart : s.memory.scanCursor = start) :
    Holds H cfg (tickSteps H cfg src sink now) (Moves H cfg src start)
      (fun r s' => ∀ report, r = .ok report → ScanClassified H cfg src start s'.db) s := by
  unfold tickSteps
  -- retrying the parked envelopes leaves the scan position
  refine .bind (holds_call fun s₁ h₁ => .modify ⟨Onward.moves ⟨rfl, .refl _⟩, fun _ _ => ?_, nofun⟩)
  have hdrn (s : EngineState) : Holds H cfg (((drainParkedSteps H).relabel .retry).mapError .Ingest) Onward
      (fun _ _ => True) s := .mapError (.relabel (drainParkedSteps_onward s))
  refine .bind ((withstands_onward (hdrn _)).weaken (fun _ _ => Onward.moves) fun r s₂ h₂ => ⟨fun _ _ => ?_, nofun⟩)
  have hstart₂ : s₂.memory.scanCursor = start := (h₂.2.1.trans h₁.onward.1).trans hstart
  refine .bind (holds_call fun s₃ h₃ => .bind (.query ⟨?_, nofun⟩))
  intro scanCursor hscn
  cases hscn
  have hstart₃ : s₃.memory.scanCursor = start := h₃.onward.1.trans hstart₂
  refine .bind (.query ⟨?_, fun _ _ => ⟨Onward.moves (.refl s₃), nofun, nofun⟩⟩)
  rintro ⟨records, scannedTo⟩ hscan
  have hscan' : src.scan start = .ok (records, scannedTo) := by
    rw [← hstart₃]
    exact mapError_eq_ok.mp hscan
  refine .bind (.modify ⟨fun _ _ => .pure ⟨Onward.moves ⟨rfl, .refl _⟩, ?_, nofun⟩, nofun⟩)
  rintro _ ⟨⟩
  -- the records
  refine .bind ((records_race src scannedTo (fun i => lastIngestible records = some i) records.zipIdx _).weaken
    (fun _ _ => Onward.moves) fun r s₄ hrecs => ⟨fun _ hok => ?_, nofun⟩)
  have hcla : ScanClassified H cfg src start s₄.db := by
    intro records' scannedTo' hscan'' record hrec event hev
    cases hscan'.symm.trans hscan''
    obtain ⟨i, hi, rfl⟩ := List.getElem_of_mem hrec
    exact hrecs hok (records[i], i) (List.mk_mem_zipIdx_iff_getElem?.mpr (List.getElem?_eq_getElem hi)) event hev
  -- everything after them forgets nothing
  refine Script.Withstands.mono (Q := fun _ s' => ScanClassified H cfg src start s'.db) ?_ fun _ _ h _ _ => h
  refine stays_bind (stays_call (fun _ => .modify (.refl _)) hcla) fun _ s₅ h₅ => ?_
  refine stays_bind (stays_call (fun _ => .query (.refl _)) h₅) fun tip s₆ h₆ => ?_
  refine stays_bind (stays_policy tip _ h₆) fun _ s₇ h₇ => ?_
  refine stays_bind (stays_call (fun s' => .bind (storeCall_ensures ?_ ?_)) h₇) fun claimed s₈ h₈ => ?_
  · intro claimed db' hop
    have hrets := retains_of_settlements (readyOutbox_settlements hop)
    exact ⟨trivial, fun _ _ => .bind (.modify ⟨fun _ _ => .pure hrets, nofun⟩), nofun⟩
  · intro e _
    exact ⟨nofun, fun _ _ => .refl _⟩
  refine stays_bind (stays_effects sink claimed h₈) fun _ s₉ h₉ => stays_call (fun s' => ?_) h₉
  refine .bind (.query ⟨fun rows _ => .bind (.modify ⟨fun _ _ => .query (.refl _), nofun⟩), fun _ _ => .refl _⟩)

end Tick

/-! ## Runs -/

/-- A tick under way: the engine's state, the calls it has still to make, and where its scan started. -/
structure Race where
  state : EngineState
  script : TickScript TickReportV1
  start : ChainCursorV1

/-- Another writer commits, or the tick makes its next call. -/
inductive RaceAction where
  | other (op : StoreOp)
  | advance

variable (H cfg src) (sink : ClaimedEffectV1 → EffectOutcome) (now : Int)

def Race.next (r : Race) : RaceAction → Race
  | .other op => { r with state := r.state.setDb (op.apply H r.state.db) }
  | .advance =>
    match r.script with
    | .done _ => r
    | .call _ _ final next => { r with state := final r.state, script := next r.state }

/-- A tick begins, in any state of the engine and of the store. -/
def Race.Initial (r : Race) : Prop :=
  r.script = tickSteps H cfg src sink now ∧ r.start = r.state.memory.scanCursor

/-- The condition on a step, read from the state before it. -/
def Race.Clear (r : Race) : RaceAction → Prop
  | .other _ => True
  | .advance =>
    match r.script with
    | .done _ => True
    | .call label _ _ _ => RaceClear H cfg r.state.db label

/-- Every state of a tick beside other writers. -/
def RaceReachable : Race → Prop :=
  Reach (Race.Initial H cfg src sink now) (fun _ _ => True) (Race.next H)

/-- Those of the runs in which every step meets the condition. -/
def ClearRaceReachable : Race → Prop :=
  Reach (Race.Initial H cfg src sink now) (Race.Clear H cfg) (Race.next H)

/-- **No record is skipped**: once the scan position has moved, and when the tick ends well, every funding and claim
    of the scan is classified. -/
def NoneSkipped (r : Race) : Prop :=
  (r.state.memory.scanCursor ≠ r.start ∨ ∃ report, r.script = .done (.ok report)) →
    ScanClassified H cfg src r.start r.state.db

def Race.Kept (r : Race) : Prop :=
  (r.state.memory.scanCursor = r.start ∨ ScanClassified H cfg src r.start r.state.db) ∧
    Holds H cfg r.script (Moves H cfg src r.start)
      (fun result s => ∀ report, result = .ok report → ScanClassified H cfg src r.start s.db) r.state

variable {H cfg src sink now}

theorem Race.Kept.next {action : RaceAction} (h : r.Kept H cfg src) (hclr : r.Clear H cfg action) :
    (r.next H action).Kept H cfg src := by
  obtain ⟨hscan, hhd⟩ := h
  cases action with
  | other op =>
    have hoth : Meanwhile r.state (r.state.setDb (op.apply H r.state.db)) := ⟨rfl, rfl, op.retains _⟩
    refine ⟨hscan.imp_right fun h => h.retains hoth.2.2, hhd.after ?_ ?_ hoth⟩
    · rintro a b c ⟨hmm, hrep, hdb⟩ ⟨hmm', hrep', hdb'⟩
      exact ⟨hmm'.trans hmm, hrep'.trans hrep, hdb.trans hdb'⟩
    · intro result a b hab h report hrep
      exact (h report hrep).retains hab.2.2
  | advance =>
    obtain ⟨state, script, start⟩ := r
    cases script with
    | done result => exact ⟨hscan, hhd⟩
    | call label visited final next =>
      obtain ⟨hmoves, hnext⟩ := hhd state ⟨rfl, rfl, .refl _⟩ hclr
      refine ⟨?_, hnext⟩
      rcases hmoves.2 with hsame | hcla
      · exact hscan.imp hsame.trans fun h => h.retains hmoves.1
      · exact .inr (hcla.retains hmoves.1)

end Race

/-! ## A small race -/

namespace Miniature

def calm : ChainSourceV1 := { source [funding] with tipHeight := .ok 12 }

/-- Another writer journals a reorg far above everything observed, at a revision. -/
def overtake (revision : UInt64) : StoreOp :=
  .commitTransition revision (envelope (.ReorgInvalidated 90 (BitVec.ofNat 256 revision.toNat)))
    ⟨⟨.ReadyToFund, revision + 1, none, false, true⟩, []⟩ [] none

/-- The refund is armed, and a tick begins at the start of the chain. -/
def begun : Race :=
  ⟨⟨armed none none, ⟨position 0, [], [], false⟩, {}⟩, tickSteps digest engine calm (fun _ => .RetryLater) 0, position 0⟩

def advances (n : Nat) : List RaceAction := List.replicate n .advance

/-- The funding loses the race once, and its second attempt commits. -/
def overtakenOnce : List RaceAction := advances 10 ++ .other (overtake 1) :: advances 29

def overtakenTwice : List RaceAction :=
  advances 10 ++ .other (overtake 1) :: (advances 5 ++ .other (overtake 2) :: advances 9)

def play (actions : List RaceAction) : Race := actions.foldl (Race.next digest) begun

def ended (r : Race) : Option TickReportV1 :=
  match r.script with
  | .done (.ok report) => some report
  | _ => none

theorem ended_eq {report : TickReportV1} (h : ended r = some report) : r.script = .done (.ok report) := by
  unfold ended at h
  split at h
  · rename_i hdone
    rw [hdone, Option.some.inj h]
  · cases h

/-- The check of the condition: a last attempt commits at the revision it finds. -/
def meetsRevision (r : Race) : Bool :=
  match r.script with
  | .call (.attempt _ 0 (.commit _ revision)) _ _ _ =>
    r.state.db.settlements[(1 : Digest32)]?.map (·.context.revision) = some revision
  | _ => true

theorem clear_of_meetsRevision (h : meetsRevision r = true) (action : RaceAction) : r.Clear digest engine action := by
  cases action with
  | other op => trivial
  | advance =>
    obtain ⟨state, script, start⟩ := r
    cases script with
    | done result => trivial
    | call label visited final next =>
      show RaceClear digest engine state.db label
      unfold RaceClear
      split
      · rename_i event env revision
        intro _ rows hrows
        have hread := of_decide_eq_true h
        have hrows' : state.db.settlements[(1 : Digest32)]? = some rows := hrows
        rw [hrows'] at hread
        exact .inl (Option.some.inj hread)
      · trivial

/-- Whether a check holds in every state in which an action is taken. -/
def along (check : Race → Bool) : List RaceAction → Race → Bool
  | [], _ => true
  | action :: rest, r => check r && along check rest (r.next digest action)

theorem reach_foldl (check : Race → Bool) {init : Race → Prop} {guard : Race → RaceAction → Prop}
    (hgd : ∀ r, check r = true → ∀ action, guard r action) {actions : List RaceAction}
    (hr : Reach init guard (Race.next digest) r) (h : along check actions r = true) :
    Reach init guard (Race.next digest) (actions.foldl (Race.next digest) r) := by
  induction actions generalizing r with
  | nil => exact hr
  | cons action rest ih =>
    obtain ⟨hchk, hrest⟩ := Bool.and_eq_true_iff.mp h
    exact ih (.step hr action (hgd r hchk action)) hrest

end Miniature

end DomProtocol
