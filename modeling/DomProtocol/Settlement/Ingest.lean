import DomProtocol.Lib.Reach
import DomProtocol.Settlement.History
import DomProtocol.Settlement.Store

/-!
# `Settlement.Ingest` — event ingestion over the durable store

One envelope at a time: load the snapshot, check the binding, answer redeliveries, classify what came after the
end, commit what the machine accepts and park what it cannot accept yet.  Event identifiers are functions of the
event, so a reorg reported a second time in the same words is a redelivery even when the observation it once
removed has come back in between; `reorg_clears_observation_iff` says exactly when that leaves a stale
observation behind.
-/

namespace DomProtocol

open Lib SettlementDb Durable

inductive IngestResult where
  | Committed (revision : UInt64)
  | Duplicate
  | ParkedForReorder
  | LateNoEconomicEffect
  deriving DecidableEq, Repr

inductive EngineError where
  | UnknownSettlement
  | BindingMismatch
  | Machine (e : TransitionError)
  | Store (e : StorePortError)
  deriving DecidableEq, Repr

/-- A transaction of the store, its errors read as engine errors. -/
def storeOp {α : Type} (f : SettlementDb → Except StorePortError (α × SettlementDb)) :
    Durable SettlementDb EngineError α :=
  transact fun db => (f db).mapError .Store

/-- The rows of a settlement that has to exist. -/
def loadRows (id : Digest32) : Durable SettlementDb EngineError SettlementRows :=
  query fun db => okOr db.settlements[id]? .UnknownSettlement

variable (H : List UInt8 → Digest32)

/-- Commit a transition with the effects it produced. -/
def commitAccepted (ctx : SettlementContext) (env : EventEnvelopeV1) (t : Transition)
    (cursor : Option CursorUpdateV1) : Durable SettlementDb EngineError IngestResult := do
  let outbox := effectsToOutbox H env t.effects
  match ← storeOp (commitTransition H ctx.revision env t outbox cursor) with
  | .Committed revision => return .Committed revision
  | .DuplicateSameBytes => return .Duplicate

/-- An event that is journalled already: re-applied when the machine takes it again, otherwise its evidence row
    alone is reaffirmed. -/
def redeliver (ctx : SettlementContext) (env : EventEnvelopeV1) (cursor : Option CursorUpdateV1) :
    Durable SettlementDb EngineError IngestResult :=
  if (acceptedEvidence env.event).isSome then
    if ctx.state.isTerminal = false then
      match transition ctx env.event with
      | .ok t => commitAccepted H ctx env t cursor
      | .error _ => do
          storeOp (reaffirmEvidence env.settlementId env.eventId)
          return .Duplicate
    else do
      storeOp (reaffirmEvidence env.settlementId env.eventId)
      return .Duplicate
  else return .Duplicate

/-- A reorg marks the evidence it removes before it is committed. -/
def invalidateReorged (env : EventEnvelopeV1) : Durable SettlementDb EngineError Unit :=
  match env.event with
  | .ReorgInvalidated fromHeight _ => storeOp (invalidateEvidenceFrom env.settlementId fromHeight)
  | _ => pure ()

/-- An event seen for the first time by a settlement that is still open. -/
def deliver (ctx : SettlementContext) (env : EventEnvelopeV1) (cursor : Option CursorUpdateV1) :
    Durable SettlementDb EngineError IngestResult :=
  match transition ctx env.event with
  | .ok t => do
      invalidateReorged env
      commitAccepted H ctx env t cursor
  | .error e =>
    if e = .IllegalEvent ∨ e = .PreconditionUnsatisfied then
      match acceptedEvidence env.event with
      | none => fail (.Machine e)
      | some evidence => do
          let _ ← storeOp (parkEvidence env.settlementId env.eventId evidence)
          return .ParkedForReorder
    else fail (.Machine e)

/-- The engine algorithm, one envelope at a time. -/
def ingestEvent (env : EventEnvelopeV1) (cursor : Option CursorUpdateV1) :
    Durable SettlementDb EngineError IngestResult := do
  let rows ← loadRows env.settlementId
  if rows.sessionId ≠ env.sessionId ∨ rows.termsHash ≠ env.termsHash then fail .BindingMismatch
  else
    match rows.journalled env.eventId with
    | some row =>
      if row.eventBytes ≠ env.canonicalBytes then fail (.Store .Equivocation)
      else redeliver H rows.context env cursor
    | none =>
      if rows.context.state.isTerminal then do
        storeOp (recordLateEvidence env.settlementId env.eventId rows.context.state)
        return .LateNoEconomicEffect
      else deliver H rows.context env cursor

/-! ## Everything one ingest can do -/

variable {α : Type} {u : Unit} {fromHeight : UInt64} {ctx : SettlementContext} {t : Transition}

section Cases

variable (db : SettlementDb) (rows : SettlementRows) (env : EventEnvelopeV1) (cursor : Option CursorUpdateV1)

/-- The machine cannot take the event yet. -/
def Refused (ctx : SettlementContext) (event : SettlementEvent) : Prop :=
  transition ctx event = .error .IllegalEvent ∨ transition ctx event = .error .PreconditionUnsatisfied

/-- The runs of one ingest from rows that are there: what is written in which order, and the answer. -/
inductive Ingests : RunOf SettlementDb EngineError IngestResult → Prop where
  | failed (e : EngineError) (hrace : e ≠ .Store .RevisionConflict) : Ingests ⟨[], db, .error e⟩
  | duplicate {visited : List SettlementDb} (hjournal : (rows.journalled env.eventId).isSome)
      (hvisited : visited ⊆ [db]) : Ingests ⟨visited, db, .ok .Duplicate⟩
  | reaffirmed {db' : SettlementDb} (hjournal : (rows.journalled env.eventId).isSome)
      (hdb' : db' = db.putRows env.settlementId (rows.reaffirm env.eventId)) :
      Ingests ⟨[db'], db', .ok .Duplicate⟩
  | refreshed {db' : SettlementDb} {t : Transition} (hjournal : (rows.journalled env.eventId).isSome)
      (hinvalid : rows.isInvalidated env.eventId = true)
      (haccept : transition rows.context env.event = .ok t)
      (hevidence : (acceptedEvidence env.event).isSome)
      (happended : SettlementDb.Appended H db rows (refreshEventId H env.eventId t.next.revision) env t cursor db') :
      Ingests ⟨[db'], db', .ok (.Committed t.next.revision)⟩
  | late {db' : SettlementDb} (hnew : rows.journalled env.eventId = none)
      (hterminal : rows.context.state.isTerminal = true)
      (hdb' : db' = db.putRows env.settlementId
        { rows with late := rows.late.insertIfNew env.eventId rows.context.state }) :
      Ingests ⟨[db'], db', .ok .LateNoEconomicEffect⟩
  | committed {db' : SettlementDb} {t : Transition} (hnew : rows.journalled env.eventId = none)
      (haccept : transition rows.context env.event = .ok t)
      (hreorg : ∀ fromHeight oldAnchor, env.event ≠ .ReorgInvalidated fromHeight oldAnchor)
      (happended : SettlementDb.Appended H db rows env.eventId env t cursor db') :
      Ingests ⟨[db'], db', .ok (.Committed t.next.revision)⟩
  | reorged {invalidated db' : SettlementDb} {t : Transition} {fromHeight : UInt64} {oldAnchor : Digest32}
      (hnew : rows.journalled env.eventId = none) (hevent : env.event = .ReorgInvalidated fromHeight oldAnchor)
      (haccept : transition rows.context env.event = .ok t)
      (hinvalidated : invalidated = db.putRows env.settlementId (rows.invalidateFrom fromHeight))
      (happended : SettlementDb.Appended H invalidated (rows.invalidateFrom fromHeight) env.eventId env t cursor db') :
      Ingests ⟨[invalidated, db'], db', .ok (.Committed t.next.revision)⟩
  | interrupted {invalidated : SettlementDb} {fromHeight : UInt64} {oldAnchor : Digest32} (e : EngineError)
      (hrace : e ≠ .Store .RevisionConflict) (hevent : env.event = .ReorgInvalidated fromHeight oldAnchor)
      (hinvalidated : invalidated = db.putRows env.settlementId (rows.invalidateFrom fromHeight)) :
      Ingests ⟨[invalidated], invalidated, .error e⟩
  | parked {db' : SettlementDb} {evidence : EvidenceRefV1} (hnew : rows.journalled env.eventId = none)
      (hrefused : Refused rows.context env.event) (hevidence : acceptedEvidence env.event = some evidence) (habsent : rows.evidence[env.eventId]? = none)
      (hdb' : db' = db.putRows env.settlementId
        { rows with evidence := rows.evidence.insert env.eventId ⟨evidence, .Parked, rows.lastEventSeq⟩ }) :
      Ingests ⟨[db'], db', .ok .ParkedForReorder⟩
  | present {evidence : EvidenceRefV1} {row : EvidenceRow} (hnew : rows.journalled env.eventId = none)
      (hrefused : Refused rows.context env.event) (hevidence : acceptedEvidence env.event = some evidence) (hrow : rows.evidence[env.eventId]? = some row)
      (hsame : row.reference = evidence) : Ingests ⟨[db], db, .ok .ParkedForReorder⟩

variable {H db rows env cursor}

theorem storeOp_cases (f : SettlementDb → Except StorePortError (α × SettlementDb)) (db : SettlementDb) :
    (∃ a db', f db = .ok (a, db') ∧ storeOp f db = ⟨[db'], db', .ok a⟩) ∨
      ∃ e, f db = .error e ∧ storeOp f db = ⟨[], db, .error (.Store e)⟩ := by
  unfold storeOp
  cases h : f db with
  | error e => exact .inr ⟨e, rfl, run_transact_error (by rw [h]; rfl)⟩
  | ok out => exact .inl ⟨out.1, out.2, rfl, run_transact_ok (by rw [h]; rfl)⟩

theorem final_storeOp {f : SettlementDb → Except StorePortError (α × SettlementDb)} {P : SettlementDb → Prop}
    (hsame : P db) (h : ∀ a db', f db = .ok (a, db') → P db') : P (storeOp f db).final := by
  obtain ⟨a, db', hop, hrun⟩ | ⟨e, -, hrun⟩ := storeOp_cases f db
  · rw [hrun]
    exact h a db' hop
  · rw [hrun]
    exact hsame

variable {db' : SettlementDb}

theorem create_cases {settlementId sessionId termsHash : Digest32} {canonicalTerms : List UInt8} (h : SettlementDb.create settlementId sessionId termsHash canonicalTerms db = .ok (u, db')) :
    db' = db ∨ (db.settlements[settlementId]? = none ∧
      db' = db.putRows settlementId ⟨sessionId, termsHash, canonicalTerms, .new, 0, [], ∅, ∅, none, ∅⟩) := by
  unfold SettlementDb.create at h
  split at h
  · split at h
    · cases h
    · cases h
      exact .inl rfl
  · split at h
    · cases h
    · cases h
      exact .inr ⟨‹_›, rfl⟩

variable {id : Digest32}

theorem invalidateEvidenceFrom_cases
    (h : invalidateEvidenceFrom id fromHeight db = .ok (u, db')) :
    db' = db ∨ ∃ rows, db.settlements[id]? = some rows ∧ db' = db.putRows id (rows.invalidateFrom fromHeight) := by
  simp only [invalidateEvidenceFrom, bind_eq_ok] at h
  obtain ⟨-, -, h⟩ := h
  split at h
  · cases h
    exact .inr ⟨_, ‹_›, rfl⟩
  · cases h
    exact .inl rfl

variable (hrows : db.settlements[env.settlementId]? = some rows)
include hrows

theorem commitAccepted_cases (t : Transition)
    (cursor : Option CursorUpdateV1) (hctx : ctx = rows.context) :
    (∃ e, e ≠ .Store .RevisionConflict ∧ commitAccepted H ctx env t cursor db = ⟨[], db, .error e⟩) ∨
      ((rows.journalled env.eventId).isSome ∧ commitAccepted H ctx env t cursor db = ⟨[db], db, .ok .Duplicate⟩) ∨
      ∃ db', commitAccepted H ctx env t cursor db = ⟨[db'], db', .ok (.Committed t.next.revision)⟩ ∧
        (SettlementDb.Appended H db rows env.eventId env t cursor db' ∨
          (rows.journalled env.eventId).isSome ∧ rows.isInvalidated env.eventId = true ∧
            SettlementDb.Appended H db rows (refreshEventId H env.eventId t.next.revision) env t cursor db') := by
  subst hctx
  unfold commitAccepted
  obtain ⟨r, db', hcmt, hrun⟩ | ⟨e, hcmt, hrun⟩ := storeOp_cases
    (commitTransition H rows.context.revision env t (effectsToOutbox H env t.effects) cursor) db
  · rw [run_bind_ok (by rw [hrun])]
    simp only [hrun]
    obtain ⟨rfl, rfl, hsome⟩ | ⟨rfl, happ⟩ := commitTransition_cases hrows hcmt
    · exact .inr (.inl ⟨hsome, rfl⟩)
    · refine .inr (.inr ⟨db', rfl, ?_⟩)
      exact happ.imp_right fun h => ⟨h.2.2, h.2.1, h.1⟩
  · rw [run_bind_error (by rw [hrun])]
    simp only [hrun]
    refine .inl ⟨_, ?_, rfl⟩
    intro hrace
    cases hrace
    exact commitTransition_ne_conflict hrows hcmt

theorem redeliver_cases (hjour : (rows.journalled env.eventId).isSome) :
    Ingests H db rows env cursor (redeliver H rows.context env cursor db) := by
  have hreaf : Ingests H db rows env cursor ((do
      storeOp (reaffirmEvidence env.settlementId env.eventId)
      return IngestResult.Duplicate : Durable SettlementDb EngineError IngestResult) db) := by
    obtain ⟨u, db', hop, hrun⟩ | ⟨e, hop, hrun⟩ :=
      storeOp_cases (reaffirmEvidence env.settlementId env.eventId) db
    · rw [reaffirmEvidence_eq hrows] at hop
      cases hop
      rw [run_bind_ok (by rw [hrun])]
      simp only [hrun]
      exact .reaffirmed hjour rfl
    · rw [reaffirmEvidence_eq hrows] at hop
      cases hop
  unfold redeliver
  split
  · rename_i hevd
    split
    · cases hacc : transition rows.context env.event with
      | error e => exact hreaf
      | ok t =>
        show Ingests H db rows env cursor (commitAccepted H rows.context env t cursor db)
        obtain ⟨e, hrace, hrun⟩ | ⟨-, hrun⟩ | ⟨db', hrun, happ⟩ :=
          commitAccepted_cases hrows t cursor rfl (H := H)
        all_goals rw [hrun]
        · exact .failed e hrace
        · exact .duplicate hjour (List.Subset.refl _)
        · -- the event's own identity is taken, so this is the refresh
          obtain happ | ⟨-, hinv, happ⟩ := happ
          · rw [happ.unjournalled] at hjour
            cases hjour
          · exact .refreshed hjour hinv hacc hevd happ
    · exact hreaf
  · exact .duplicate hjour (List.nil_subset _)

theorem invalidateReorged_cases :
    (∃ e, e ≠ .Store .RevisionConflict ∧ invalidateReorged env db = ⟨[], db, .error e⟩) ∨
      (invalidateReorged env db = ⟨[], db, .ok ()⟩ ∧
        ∀ fromHeight oldAnchor, env.event ≠ .ReorgInvalidated fromHeight oldAnchor) ∨
      ∃ fromHeight oldAnchor db', env.event = .ReorgInvalidated fromHeight oldAnchor ∧
        db' = db.putRows env.settlementId (rows.invalidateFrom fromHeight) ∧
        invalidateReorged env db = ⟨[db'], db', .ok ()⟩ := by
  unfold invalidateReorged
  cases hev : env.event with
  | ReorgInvalidated fromHeight oldAnchor =>
    obtain ⟨u, db', hop, hrun⟩ | ⟨e, hop, hrun⟩ :=
      storeOp_cases (invalidateEvidenceFrom env.settlementId fromHeight) db
    · obtain ⟨-, hdb'⟩ := (invalidateEvidenceFrom_eq_ok hrows).mp hop
      exact .inr (.inr ⟨fromHeight, oldAnchor, db', rfl, hdb', hrun⟩)
    · refine .inl ⟨_, ?_, hrun⟩
      intro hrace
      cases hrace
      exact invalidateEvidenceFrom_ne_conflict hrows hop
  | _ => exact .inr (.inl ⟨rfl, nofun⟩)

theorem deliver_cases (hnew : rows.journalled env.eventId = none) :
    Ingests H db rows env cursor (deliver H rows.context env cursor db) := by
  unfold deliver
  cases hacc : transition rows.context env.event with
  | error e =>
    dsimp only
    split
    · rename_i hkind
      have hrfd : Refused rows.context env.event := by
        unfold Refused
        rw [hacc]
        exact hkind.imp (congrArg _) (congrArg _)
      cases hevd : acceptedEvidence env.event with
      | none => exact .failed _ (by simp)
      | some evidence =>
        dsimp only
        obtain ⟨r, db', hop, hrun⟩ | ⟨e, hop, hrun⟩ :=
          storeOp_cases (parkEvidence env.settlementId env.eventId evidence) db
        · rw [run_bind_ok (by rw [hrun])]
          simp only [hrun]
          obtain ⟨-, rfl, row, hrow, hsame⟩ | ⟨-, habs, -, hdb'⟩ :=
            (parkEvidence_eq_ok hrows).mp hop
          · exact .present hnew hrfd hevd hrow hsame
          · exact .parked hnew hrfd hevd habs hdb'
        · rw [run_bind_error (by rw [hrun])]
          simp only [hrun]
          refine .failed _ ?_
          intro hrace
          cases hrace
          exact parkEvidence_ne_conflict hop
    · exact .failed _ (by simp)
  | ok t =>
    dsimp only
    obtain ⟨e, hrace, hrun⟩ | ⟨hrun, hrg⟩ | ⟨fromHeight, oldAnchor, db₀, hev, hdb₀, hrun⟩ :=
      invalidateReorged_cases hrows
    · rw [run_bind_error (by rw [hrun])]
      simp only [hrun]
      exact .failed _ hrace
    · rw [run_bind_ok (by rw [hrun])]
      simp only [hrun, List.nil_append]
      show Ingests H db rows env cursor (commitAccepted H rows.context env t cursor db)
      obtain ⟨e, hrace, hcmt⟩ | ⟨hjour, -⟩ | ⟨db', hcmt, happ⟩ :=
        commitAccepted_cases hrows t cursor rfl (H := H)
      · exact hcmt ▸ .failed e hrace
      · simp [hnew] at hjour
      · obtain happ | ⟨hjour, -⟩ := happ
        · exact hcmt ▸ .committed hnew hacc hrg happ
        · simp [hnew] at hjour
    · -- the marked rows have the same journal, so the commit is again the first one
      have hrows₀ : db₀.settlements[env.settlementId]? = some (rows.invalidateFrom fromHeight) := by
        rw [hdb₀, settlements_putRows, if_pos rfl]
      have hnew₀ : (rows.invalidateFrom fromHeight).journalled env.eventId = none := hnew
      rw [run_bind_ok (by rw [hrun])]
      simp only [hrun]
      obtain ⟨e, hrace, hcmt⟩ | ⟨hjour, -⟩ | ⟨db', hcmt, happ⟩ :=
        commitAccepted_cases hrows₀ t cursor (show rows.context = _ from rfl) (H := H)
      · rw [hcmt]
        exact .interrupted e hrace hev hdb₀
      · simp [hnew₀] at hjour
      · obtain happ | ⟨hjour, -⟩ := happ
        · rw [hcmt]
          exact .reorged hnew hev hacc hdb₀ happ
        · simp [hnew₀] at hjour

/-- **Everything one ingest can do** to a settlement that exists. -/
theorem ingestEvent_cases : Ingests H db rows env cursor (ingestEvent H env cursor db) := by
  unfold ingestEvent
  have hload : loadRows env.settlementId db = ⟨[], db, .ok rows⟩ := by
    simp [loadRows, okOr, hrows]
  rw [run_bind_ok (by rw [hload])]
  simp only [hload, List.nil_append]
  split
  · exact .failed _ (by simp)
  · cases hjour : rows.journalled env.eventId with
    | some row =>
      dsimp only
      split
      · exact .failed _ (by simp)
      · exact redeliver_cases hrows (by rw [hjour]; rfl)
    | none =>
      dsimp only
      split
      · rename_i hterm
        obtain ⟨u, db', hop, hrun⟩ | ⟨e, hop, hrun⟩ :=
          storeOp_cases (recordLateEvidence env.settlementId env.eventId rows.context.state) db
        · rw [recordLateEvidence_eq hrows] at hop
          cases hop
          rw [run_bind_ok (by rw [hrun])]
          simp only [hrun]
          exact .late hjour hterm rfl
        · rw [recordLateEvidence_eq hrows] at hop
          cases hop
      · exact deliver_cases hrows hjour

variable (H rows env cursor) in
/-- The rows an ingest may leave, at its end or at a transaction on the way. -/
inductive Written : SettlementRows → Prop where
  | same : Written rows
  | reaffirmed (hjournal : (rows.journalled env.eventId).isSome) :
      Written (rows.reaffirm env.eventId)
  | refreshed {t : Transition} (hjournal : (rows.journalled env.eventId).isSome)
      (hinvalid : rows.isInvalidated env.eventId = true) (haccept : transition rows.context env.event = .ok t) (hevidence : (acceptedEvidence env.event).isSome) :
      Written (SettlementDb.writeTransition H rows (refreshEventId H env.eventId t.next.revision) env t cursor)
  | late (hterminal : rows.context.state.isTerminal = true) :
      Written { rows with late := rows.late.insertIfNew env.eventId rows.context.state }
  | committed {t : Transition} (hnew : rows.journalled env.eventId = none)
      (haccept : transition rows.context env.event = .ok t)
      (hreorg : ∀ fromHeight oldAnchor, env.event ≠ .ReorgInvalidated fromHeight oldAnchor) :
      Written (SettlementDb.writeTransition H rows env.eventId env t cursor)
  | invalidated {fromHeight : UInt64} {oldAnchor : Digest32}
      (hevent : env.event = .ReorgInvalidated fromHeight oldAnchor) :
      Written (rows.invalidateFrom fromHeight)
  | reorged {fromHeight : UInt64} {oldAnchor : Digest32} {t : Transition}
      (hnew : rows.journalled env.eventId = none) (hevent : env.event = .ReorgInvalidated fromHeight oldAnchor)
      (haccept : transition rows.context env.event = .ok t) :
      Written (SettlementDb.writeTransition H (rows.invalidateFrom fromHeight) env.eventId env t cursor)
  | parked {evidence : EvidenceRefV1} (hnew : rows.journalled env.eventId = none)
      (hevidence : acceptedEvidence env.event = some evidence) (habsent : rows.evidence[env.eventId]? = none) :
      Written { rows with evidence := rows.evidence.insert env.eventId ⟨evidence, .Parked, rows.lastEventSeq⟩ }

/-- The database differs from `db` in the rows of one settlement at most. -/
def OnlyRows (db : SettlementDb) (id : Digest32) (rows : SettlementRows) (db' : SettlementDb) : Prop :=
  ∀ a, db'.settlements[a]? = if id = a then some rows else db.settlements[a]?

theorem onlyRows_same : OnlyRows db env.settlementId rows db := by
  intro a
  by_cases h : env.settlementId = a
  · rw [if_pos h, ← h, hrows]
  · rw [if_neg h]

omit hrows

theorem onlyRows_putRows (db : SettlementDb) (id : Digest32) (rows : SettlementRows) :
    OnlyRows db id rows (db.putRows id rows) :=
  fun a => settlements_putRows db id a rows

theorem SettlementDb.Appended.onlyRows {journalId : Digest32}
    (h : SettlementDb.Appended H db rows journalId env t cursor db') :
    OnlyRows db env.settlementId (SettlementDb.writeTransition H rows journalId env t cursor) db' := by
  intro a
  rw [h.settlements]
  exact getElem?_insert ..

theorem OnlyRows.trans {db₀ : SettlementDb} {rows₀ rows' : SettlementRows}
    (h₀ : OnlyRows db id rows₀ db₀) (h' : OnlyRows db₀ id rows' db') : OnlyRows db id rows' db' := by
  intro a
  rw [h' a, h₀ a]
  split <;> rfl

theorem Ingests.written (hrows : db.settlements[env.settlementId]? = some rows)
    {out : RunOf SettlementDb EngineError IngestResult} (h : Ingests H db rows env cursor out) :
    ∀ db' ∈ out.final :: out.visited,
      ∃ rows', Written H rows env cursor rows' ∧ OnlyRows db env.settlementId rows' db' := by
  have hsame : ∃ rows', Written H rows env cursor rows' ∧ OnlyRows db env.settlementId rows' db :=
    ⟨rows, .same, onlyRows_same hrows⟩
  cases h with
  | failed | present => simpa using hsame
  | duplicate hjour hvis =>
    intro db' hdb'
    rcases List.mem_cons.mp hdb' with rfl | hdb'
    · exact hsame
    · rw [List.mem_singleton.mp (hvis hdb')]
      exact hsame
  | reaffirmed hjour hdb' =>
    simpa [hdb'] using ⟨_, .reaffirmed hjour, onlyRows_putRows _ _ _⟩
  | refreshed hjour hinv hacc hevd happ =>
    simpa using ⟨_, .refreshed hjour hinv hacc hevd, happ.onlyRows⟩
  | late hnew hterm hdb' => simpa [hdb'] using ⟨_, .late hterm, onlyRows_putRows _ _ _⟩
  | committed hnew hacc hrg happ =>
    simpa using ⟨_, .committed hnew hacc hrg, happ.onlyRows⟩
  | @reorged invalidated db' t fromHeight oldAnchor hnew hev hacc hinvd happ =>
    have hfst := onlyRows_putRows db env.settlementId (rows.invalidateFrom fromHeight)
    rw [← hinvd] at hfst
    have hscd := hfst.trans happ.onlyRows
    intro d hd
    simp only [List.mem_cons, List.not_mem_nil, or_false] at hd
    obtain rfl | rfl | rfl := hd
    · exact ⟨_, .reorged hnew hev hacc, hscd⟩
    · exact ⟨_, .invalidated hev, hfst⟩
    · exact ⟨_, .reorged hnew hev hacc, hscd⟩
  | interrupted e hrace hev hinvd =>
    simpa [hinvd] using ⟨_, .invalidated hev, onlyRows_putRows _ _ _⟩
  | parked hnew hrfd hevd habs hdb' =>
    simpa [hdb'] using ⟨_, .parked hnew hevd habs, onlyRows_putRows _ _ _⟩

theorem ingestEvent_unknown (hrows : db.settlements[env.settlementId]? = none) :
    ingestEvent H env cursor db = ⟨[], db, .error .UnknownSettlement⟩ := by
  unfold ingestEvent
  have hload : loadRows env.settlementId db = ⟨[], db, .error .UnknownSettlement⟩ := by
    simp [loadRows, okOr, hrows]
  rw [run_bind_error (by rw [hload]), hload]

end Cases

/-! ## Runs of ingests -/

/-- What may happen to the database: a settlement is created, an envelope is ingested, or the engine marks the
    evidence of a reorg on its own. -/
inductive IngestAction where
  | create (settlementId sessionId termsHash : Digest32) (canonicalTerms : List UInt8)
  | ingest (env : EventEnvelopeV1) (cursor : Option CursorUpdateV1)
  | invalidate (settlementId : Digest32) (fromHeight : UInt64)

/-- The database after an action, whether or not it succeeded. -/
def IngestAction.next (db : SettlementDb) : IngestAction → SettlementDb
  | .create settlementId sessionId termsHash canonicalTerms =>
    (storeOp (SettlementDb.create settlementId sessionId termsHash canonicalTerms) db).final
  | .ingest env cursor => (ingestEvent H env cursor db).final
  | .invalidate settlementId fromHeight =>
    (storeOp (SettlementDb.invalidateEvidenceFrom settlementId fromHeight) db).final

/-- The databases reached from the empty one. -/
def IngestReachable : SettlementDb → Prop :=
  Reach (· = SettlementDb.empty) (fun _ _ => True) (IngestAction.next H)

/-- Before the funding is observed there is no observed height. -/
def Unobserved (ctx : SettlementContext) : Prop :=
  ctx.state = .Preparing ∨ ctx.state = .ReadyToFund → ctx.lastObservedHeight = none

theorem Unobserved.accepts (h : Unobserved ctx) {event : SettlementEvent} (hacc : transition ctx event = .ok t) : Unobserved t.next := by
  obtain ⟨revision, -, hstep⟩ := transition_eq_ok.mp hacc
  cases hstep with
  | arm hs => exact fun _ => h (.inl hs)
  | observe | confirm | settle | refund => exact fun hnext => by simp at hnext
  | absent | regress => exact fun _ => rfl
  | verify | expire | keep => exact h

section Contexts

theorem context_setStatus (rows : SettlementRows) (id : Digest32) (status : EvidenceStatus) :
    (rows.setStatus id status).context = rows.context := by
  unfold SettlementRows.setStatus
  split <;> rfl

theorem context_reaffirm (rows : SettlementRows) (id : Digest32) : (rows.reaffirm id).context = rows.context := by
  unfold SettlementRows.reaffirm
  split
  · exact context_setStatus rows id .Applied
  · rfl

theorem context_writeTransition (rows : SettlementRows) (journalId : Digest32) (env : EventEnvelopeV1)
    (t : Transition) (cursor : Option CursorUpdateV1) :
    (writeTransition H rows journalId env t cursor).context = t.next := by
  unfold writeTransition
  cases acceptedEvidence env.event with
  | none => rfl
  | some evidence =>
    simp only [SettlementRows.applyEvidence]
    split
    · exact context_setStatus _ _ _
    · rfl

variable {H} {db : SettlementDb} {rows rows' : SettlementRows} {env : EventEnvelopeV1}
  {cursor : Option CursorUpdateV1}

theorem Written.context (h : Written H rows env cursor rows') :
    rows'.context = rows.context ∨ ∃ t, transition rows.context env.event = .ok t ∧ rows'.context = t.next := by
  cases h with
  | same | late | invalidated | parked => exact .inl rfl
  | reaffirmed => exact .inl (context_reaffirm _ _)
  | refreshed _ _ hacc | committed _ hacc | reorged _ _ hacc => exact .inr ⟨_, hacc, context_writeTransition ..⟩

/-- A context of `db'` is new, the one `db` has, or the next one of an accepted transition. -/
def Evolves (db db' : SettlementDb) : Prop :=
  ∀ (id : Digest32) (rows' : SettlementRows), db'.settlements[id]? = some rows' →
    rows'.context = .new ∨ ∃ rows : SettlementRows, db.settlements[id]? = some rows ∧
      (rows'.context = rows.context ∨ ∃ event t, transition rows.context event = .ok t ∧ rows'.context = t.next)

theorem evolves_refl (db : SettlementDb) : Evolves db db :=
  fun _ rows' hrows' => .inr ⟨rows', hrows', .inl rfl⟩

variable {id : Digest32} {db' : SettlementDb}

theorem OnlyRows.evolves (honly : OnlyRows db id rows' db') (hrows : db.settlements[id]? = some rows)
    (hctx : rows'.context = rows.context ∨
      ∃ event t, transition rows.context event = .ok t ∧ rows'.context = t.next) : Evolves db db' := by
  intro a found hfnd
  rw [honly a] at hfnd
  split at hfnd
  · rename_i ha
    subst ha
    cases hfnd
    exact .inr ⟨rows, hrows, hctx⟩
  · exact .inr ⟨found, hfnd, .inl rfl⟩

theorem evolves_ingest (env : EventEnvelopeV1) (cursor : Option CursorUpdateV1) (db : SettlementDb) :
    Evolves db (ingestEvent H env cursor db).final := by
  cases hrows : db.settlements[env.settlementId]? with
  | none =>
    rw [ingestEvent_unknown hrows]
    exact evolves_refl db
  | some rows =>
    have hcs : Ingests H db rows env cursor (ingestEvent H env cursor db) := ingestEvent_cases hrows
    obtain ⟨rows', hwrt, honly⟩ := hcs.written hrows _ List.mem_cons_self
    refine honly.evolves hrows (hwrt.context.imp_right ?_)
    exact fun ⟨t, hacc, hctx⟩ => ⟨env.event, t, hacc, hctx⟩

theorem IngestAction.evolves (action : IngestAction) (db : SettlementDb) : Evolves db (action.next H db) := by
  cases action with
  | create settlementId sessionId termsHash canonicalTerms =>
    refine final_storeOp (evolves_refl db) fun u db' h => ?_
    obtain rfl | ⟨-, rfl⟩ := create_cases h
    · exact evolves_refl db'
    · intro id rows' hrows'
      rw [settlements_putRows] at hrows'
      split at hrows'
      · cases hrows'
        exact .inl rfl
      · exact .inr ⟨rows', hrows', .inl rfl⟩
  | ingest env cursor => exact evolves_ingest env cursor db
  | invalidate settlementId fromHeight =>
    refine final_storeOp (evolves_refl db) fun u db' h => ?_
    obtain rfl | ⟨rows, hrows, rfl⟩ := invalidateEvidenceFrom_cases h
    · exact evolves_refl db'
    · exact (onlyRows_putRows db settlementId _).evolves hrows (.inl rfl)

/-- **Every reachable settlement is unobserved before its funding.** -/
theorem unobserved_of_reachable (h : IngestReachable H db) (hrows : db.settlements[id]? = some rows) :
    Unobserved rows.context := by
  refine Reach.invariant (P := fun db => ∀ (id : Digest32) (rows : SettlementRows),
    db.settlements[id]? = some rows → Unobserved rows.context) ?_ ?_ h id rows hrows
  · rintro s rfl id rows hrows
    simp [SettlementDb.empty] at hrows
  · intro s action hbef _ id rows' hrows'
    rcases action.evolves s id rows' hrows' with hctx | ⟨rows, hrows, hctx | ⟨event, t, hacc, hctx⟩⟩
    · rw [hctx]
      exact fun _ => rfl
    · rw [hctx]
      exact hbef id rows hrows
    · rw [hctx]
      exact (hbef id rows hrows).accepts hacc

theorem observedFrom_of_reorg (h : Unobserved ctx)
    {oldAnchor : Digest32}
    (hacc : transition ctx (.ReorgInvalidated fromHeight oldAnchor) = .ok t) :
    observedFrom t.next.lastObservedHeight fromHeight = false := by
  obtain ⟨revision, -, hstep⟩ := transition_eq_ok.mp hacc
  cases hstep with
  | regress hs _ _ hlast => rfl
  | keep _ _ hs =>
    rcases hs with ⟨-, hbel⟩ | hs
    · exact hbel
    · show observedFrom ctx.lastObservedHeight fromHeight = false
      rw [h hs]
      rfl

/-- **Reorgs and observations.**  After a reorg was ingested into a settlement that is not terminal, its durable
    context holds no observation at or above the reorg's height — unless the very same event had been journalled
    before and such an observation was there again: then the reorg was taken for a redelivery. -/
theorem reorg_clears_observation_iff (h : IngestReachable H db) {fromHeight : UInt64} {oldAnchor : Digest32}
    (hevent : env.event = .ReorgInvalidated fromHeight oldAnchor)
    (hrows : db.settlements[env.settlementId]? = some rows) (hopen : rows.context.state.isTerminal = false)
    (hok : (ingestEvent H env cursor db).result.isOk = true) :
    (∀ rows', (ingestEvent H env cursor db).final.settlements[env.settlementId]? = some rows' →
        observedFrom rows'.context.lastObservedHeight fromHeight = false) ↔
      ¬ ((rows.journalled env.eventId).isSome = true ∧
          observedFrom rows.context.lastObservedHeight fromHeight = true) := by
  have hunobserved := unobserved_of_reachable h hrows
  have hcases : Ingests H db rows env cursor (ingestEvent H env cursor db) := ingestEvent_cases hrows
  generalize ingestEvent H env cursor db = out at hok hcases
  cases hcases with
  | failed | interrupted => cases hok
  | duplicate hjournal hvisited => simp [hrows, hjournal]
  | reaffirmed hjournal hdb' =>
    simp [hdb', settlements_putRows, context_reaffirm, hjournal]
  | refreshed hjournal hinvalid haccept hevidence | parked hnew hrefused hevidence
  | present hnew hrefused hevidence => simp [hevent, acceptedEvidence] at hevidence
  | late hnew hterminal hdb' => simp [hopen] at hterminal
  | committed hnew haccept hreorg happended => exact absurd hevent (hreorg _ _)
  | reorged hnew hevent' haccept hinvalidated happended =>
    rw [hevent] at haccept
    have hclear := observedFrom_of_reorg hunobserved haccept
    refine iff_of_true (fun rows' hrows' => ?_) (by simp [hnew])
    rw [happended.onlyRows, if_pos rfl] at hrows'
    cases hrows'
    rw [context_writeTransition]
    exact hclear

end Contexts

def ingestAll (actions : List IngestAction) : SettlementDb := actions.foldl (IngestAction.next H) .empty

theorem ingestReachable_ingestAll (actions : List IngestAction) : IngestReachable H (ingestAll H actions) := by
  suffices hfold : ∀ db, IngestReachable H db → IngestReachable H (actions.foldl (IngestAction.next H) db) from
    hfold _ (.start rfl)
  induction actions with
  | nil => exact fun db h => h
  | cons action actions ih => exact fun db h => ih _ (.step h action trivial)

namespace Miniature

/-- A digest for small runs: the input read as a number, modulo a number below `2 ^ 256`. -/
def digest (bytes : List UInt8) : Digest32 := BitVec.ofNat 256 (ofBeBytes bytes % (2 ^ 256 - 189))

/-- The envelope of an event of settlement 1, with the identifier derived from the event. -/
def envelope (event : SettlementEvent) : EventEnvelopeV1 :=
  ⟨protocolVersion, 1, 2, 3, 1, deriveEventId digest 1 event, 0, event⟩

/-- Funding is observed at height 10, removed by a reorg from height 10, and comes back unchanged. -/
def flippedBack : SettlementDb :=
  ingestAll digest
    [.create 1 2 3 [], .ingest (envelope .RefundArmed) none,
      .ingest (envelope (.FundingObserved (evidence 1 10))) none,
      .ingest (envelope (.ReorgInvalidated 10 7)) none,
      .ingest (envelope (.FundingObserved (evidence 1 10))) none]

end Miniature

open Miniature in
/-- The same reorg reported again, after the funding it removed came back, is acknowledged as a duplicate and the
    context keeps the observation. -/
theorem repeated_reorg_keeps_observation : IngestReachable digest flippedBack ∧
      flippedBack.settlements[(1 : Digest32)]?.map (·.context) = some ⟨.Confirming, 4, some 10, false, true⟩ ∧
      (ingestEvent digest (envelope (.ReorgInvalidated 10 7)) none flippedBack).result = .ok .Duplicate ∧
      (ingestEvent digest (envelope (.ReorgInvalidated 10 7)) none flippedBack).final.settlements[(1 : Digest32)]?.map
        (·.context) = some ⟨.Confirming, 4, some 10, false, true⟩ :=
  ⟨ingestReachable_ingestAll _ _, by decide +kernel, by decide +kernel, by decide +kernel⟩

open Miniature in
/-- A reorg away from another block is a new event and clears the observation. -/
theorem fresh_reorg_clears_observation :
    ∃ rows, flippedBack.settlements[(1 : Digest32)]? = some rows ∧ rows.context.state.isTerminal = false ∧
      (ingestEvent digest (envelope (.ReorgInvalidated 10 8)) none flippedBack).result.isOk = true ∧
      ∀ rows', (ingestEvent digest (envelope (.ReorgInvalidated 10 8)) none flippedBack).final.settlements[
          (1 : Digest32)]? = some rows' → observedFrom rows'.context.lastObservedHeight 10 = false := by
  have hrows : flippedBack.settlements[(1 : Digest32)]?.map (fun rows =>
      (rows.context, (rows.journalled (envelope (.ReorgInvalidated 10 8)).eventId).isSome)) =
        some (⟨.Confirming, 4, some 10, false, true⟩, false) := by decide +kernel
  obtain ⟨rows, hrows, hread⟩ := Option.map_eq_some_iff.mp hrows
  obtain ⟨hctx, hnew⟩ := Prod.mk.inj hread
  have hopen : rows.context.state.isTerminal = false := by rw [hctx]; rfl
  have hok : (ingestEvent digest (envelope (.ReorgInvalidated 10 8)) none flippedBack).result.isOk = true := by
    decide +kernel
  refine ⟨rows, hrows, hopen, hok, ?_⟩
  have hreach : IngestReachable digest flippedBack := ingestReachable_ingestAll _ _
  exact (reorg_clears_observation_iff hreach rfl hrows hopen hok).mpr fun h => absurd h.1 (ne_true_of_eq_false hnew)

end DomProtocol
