import DomProtocol.Settlement.Replay

/-!
# `Settlement.Threads` — ingests side by side

The ingest of an envelope is several transactions of the store: it loads the snapshot, looks the event up in the
journal, and then writes.  Cut at these calls, ingests of any number of callers interleave; run on its own, such a
script is `ingestEvent`.  What the snapshot said may be stale when the commit comes, and the commit compares
revisions: a context with the same revision is the same context, because every commit takes the next revision.
-/

namespace DomProtocol

open Lib SettlementDb

/-! ## The calls of an ingest -/

/-- The calls of an ingest: the reads, the commit of an event that was not journalled when it was looked up, and the
    other writes. -/
inductive IngestCall where
  | read
  | commit (env : EventEnvelopeV1) (revision : UInt64)
  | write
  deriving DecidableEq

/-- The journal row of an event, if it was committed. -/
def committedEvent (id eventId : Digest32) : Durable SettlementDb EngineError (Option SettlementJournalRow) :=
  Durable.query fun db => .ok (db.settlements[id]?.bind (·.journalled eventId))

section Steps

variable (H : List UInt8 → Digest32)

/-- `ingestEvent`, one call of the store at a time. -/
def ingestSteps (env : EventEnvelopeV1) (cursor : Option CursorUpdateV1) :
    Script SettlementDb IngestCall EngineError IngestResult := do
  let rows ← .ofDurable .read (loadRows env.settlementId)
  if rows.sessionId ≠ env.sessionId ∨ rows.termsHash ≠ env.termsHash then .fail .BindingMismatch
  else
    match ← .ofDurable .read (committedEvent env.settlementId env.eventId) with
    | some row =>
      if row.eventBytes ≠ env.canonicalBytes then .fail (.Store .Equivocation)
      else .ofDurable .write (redeliver H rows.context env cursor)
    | none =>
      if rows.context.state.isTerminal then
        .ofDurable .write do
          storeOp (recordLateEvidence env.settlementId env.eventId rows.context.state)
          return .LateNoEconomicEffect
      else
        match transition rows.context env.event with
        | .ok t => do
            .ofDurable .write (invalidateReorged env)
            .ofDurable (.commit env rows.context.revision) (commitAccepted H rows.context env t cursor)
        | .error _ => .ofDurable .write (deliver H rows.context env cursor)

theorem run_ingestSteps (env : EventEnvelopeV1) (cursor : Option CursorUpdateV1) :
    (ingestSteps H env cursor).run = ingestEvent H env cursor := by
  funext db
  simp only [ingestSteps, Script.run_bind, Script.run_ofDurable, ingestEvent]
  cases hrows : db.settlements[env.settlementId]? with
  | none =>
    have hload : (loadRows env.settlementId db).result = .error .UnknownSettlement := by
      simp [loadRows, okOr, hrows]
    rw [Durable.run_bind_error hload, Durable.run_bind_error hload]
  | some rows =>
    have hload : loadRows env.settlementId db = ⟨[], db, .ok rows⟩ := by
      simp [loadRows, okOr, hrows]
    have hlk : committedEvent env.settlementId env.eventId db =
        ⟨[], db, .ok (rows.journalled env.eventId)⟩ := by
      simp [committedEvent, hrows]
    rw [Durable.run_bind_ok (by rw [hload]), Durable.run_bind_ok (by rw [hload])]
    simp only [hload, List.nil_append]
    split
    · rfl
    · rw [Script.run_bind, Script.run_ofDurable, Durable.run_bind_ok (by rw [hlk])]
      simp only [hlk, List.nil_append]
      cases rows.journalled env.eventId with
      | some row =>
        dsimp only
        split <;> simp
      | none =>
        dsimp only
        split
        · rw [Script.run_ofDurable]
        · cases hacc : transition rows.context env.event with
          | ok t => simp only [Script.run_bind, Script.run_ofDurable, deliver, hacc]
          | error e => rw [Script.run_ofDurable]

/-- Everything a caller of the store may start. -/
def IngestAction.script : IngestAction → Script SettlementDb IngestCall EngineError Unit
  | .create settlementId sessionId termsHash canonicalTerms =>
    .ofDurable .write (storeOp (SettlementDb.create settlementId sessionId termsHash canonicalTerms))
  | .ingest env cursor => do
      let _ ← ingestSteps H env cursor
      return ()
  | .invalidate settlementId fromHeight =>
    .ofDurable .write (storeOp (SettlementDb.invalidateEvidenceFrom settlementId fromHeight))

/-- The databases and scripts under way that any number of callers may lead to. -/
def SharedReachable : Pool SettlementDb IngestCall EngineError Unit → Prop :=
  Pool.Reachable (· = SettlementDb.empty) fun script => ∃ action, script = IngestAction.script H action

end Steps

/-! ## What callers rely on -/

section Rely

variable {H : List UInt8 → Digest32} {db db' : SettlementDb} {rows rows' : SettlementRows} {env : EventEnvelopeV1}

/-- Revisions do not go back, and a context with the same revision is the same context. -/
structure Progress (l l' : Book) : Prop where
  sessionId : l'.sessionId = l.sessionId
  termsHash : l'.termsHash = l.termsHash
  revision : l.context.revision ≤ l'.context.revision
  context : l'.context.revision = l.context.revision → l'.context = l.context

def Progresses (db db' : SettlementDb) : Prop :=
  ∀ (id : Digest32) (rows : SettlementRows), db.settlements[id]? = some rows →
    ∃ rows' : SettlementRows, db'.settlements[id]? = some rows' ∧ Progress rows.book rows'.book

theorem Progress.of_eq {l l' : Book} (h : l' = l) : Progress l l' := by
  subst h
  exact ⟨rfl, rfl, UInt64.le_refl _, fun _ => rfl⟩

theorem Progresses.refl (db : SettlementDb) : Progresses db db :=
  fun _ rows hrows => ⟨rows, hrows, .of_eq rfl⟩

theorem Progresses.trans {db'' : SettlementDb} (h : Progresses db db') (h' : Progresses db' db'') :
    Progresses db db'' := by
  intro id rows hrows
  obtain ⟨rows', hrows', hsess, htms, hle, hsame⟩ := h id rows hrows
  obtain ⟨rows'', hrows'', hsess', htms', hle', hsame'⟩ := h' id rows' hrows'
  refine ⟨rows'', hrows'', hsess'.trans hsess, htms'.trans htms, UInt64.le_trans hle hle', ?_⟩
  intro heq
  -- the revision in the middle is between two equal ones
  have hmid : rows'.book.context.revision = rows.book.context.revision :=
    UInt64.le_antisymm (heq ▸ hle') hle
  rw [hsame' (heq.trans hmid.symm), hsame hmid]

variable {id : Digest32}

def Keeps (H : List UInt8 → Digest32) (db db' : SettlementDb) : Prop := Progresses db db' ∧ JournalsOk H db'

theorem keeps_of_onlyRows (hok : JournalsOk H db) (hrows : db.settlements[id]? = some rows)
    (hpg : Progress rows.book rows'.book) (hbook : BookOk H id rows'.book) (honly : OnlyRows db id rows' db') :
    Keeps H db db' := by
  constructor
  · intro a found hfnd
    by_cases h : id = a
    · subst h
      obtain rfl : found = rows := Option.some.inj (hfnd.symm.trans hrows)
      exact ⟨rows', by rw [honly, if_pos rfl], hpg⟩
    · exact ⟨found, by rw [honly, if_neg h, hfnd], .of_eq rfl⟩
  · intro a found hfnd
    rw [honly] at hfnd
    split at hfnd
    · rename_i h
      subst h
      cases hfnd
      exact hbook
    · exact hok a found hfnd

theorem keeps_of_book (hok : JournalsOk H db) (hrows : db.settlements[id]? = some rows)
    (honly : OnlyRows db id rows' db') (hbook : rows'.book = rows.book) : Keeps H db db' :=
  keeps_of_onlyRows hok hrows (.of_eq hbook) (hbook ▸ hok id rows hrows) honly

theorem keeps_same (hok : JournalsOk H db) : Keeps H db db := ⟨.refl db, hok⟩

/-! ## Each transaction -/

theorem book_writeTransition (rows : SettlementRows) (journalId : Digest32) (env : EventEnvelopeV1) (t : Transition)
    (cursor : Option CursorUpdateV1) : (writeTransition H rows journalId env t cursor).book =
      ⟨rows.sessionId, rows.termsHash, t.next, rows.lastEventSeq + 1,
        rows.journal ++ [⟨rows.lastEventSeq + 1, rows.context.revision, t.next.revision, journalId,
          eventKind env.event, env.canonicalBytes, contextHash H t.next⟩],
        if t.next.state.isTerminal then some (t.next.state, env.eventId, t.next.revision) else rows.terminal⟩ := by
  unfold writeTransition
  cases acceptedEvidence env.event with
  | none => rfl
  | some evidence =>
    dsimp only
    rw [SettlementRows.applyEvidence_eq]
    rfl

variable {t : Transition} {cursor : Option CursorUpdateV1}

/-- **A transition written on top of its own context** continues the replay. -/
theorem bookOk_writeTransition {journalId : Digest32} (h : BookOk H id rows.book)
    (hacc : transition rows.context env.event = .ok t) (hver : env.protocolVersion = protocolVersion)
    (hid : env.settlementId = id) (hsess : rows.sessionId = env.sessionId) (htms : rows.termsHash = env.termsHash) :
    BookOk H id (writeTransition H rows journalId env t cursor).book := by
  obtain ⟨⟨past, hrpls⟩, hlen, hterm⟩ := h
  obtain ⟨hopen, -, hnext⟩ := transition_advances hacc
  have hlen' : rows.lastEventSeq = rows.journal.length := hlen
  rw [book_writeTransition]
  refine ⟨⟨env.event :: past, ?_⟩, ?_, ?_⟩
  · refine .append (hrpls.rebind rfl rfl) hnext ⟨by rw [hlen'], rfl, rfl, rfl, env, rfl, rfl, rfl, hver,
      hid, hsess.symm, htms.symm⟩
  · simp [hlen']
  · dsimp only
    split
    · rename_i hfin
      exact ⟨hfin, rfl, rfl⟩
    · -- the context before was not terminal, so it has no terminal row
      rename_i hnot
      have hnone : rows.terminal = none := by
        cases hrow : rows.terminal with
        | none => rfl
        | some row =>
          have hterm' : TerminalAgrees rows.context rows.terminal := hterm
          rw [hrow] at hterm'
          rw [hterm'.1] at hopen
          cases hopen
      rw [hnone]
      simpa [TerminalAgrees] using hnot

theorem commitTransition_checked {expectedRevision : UInt64} {effects : List OutboxEffectV1} {revision : UInt64}
    (hrows : db.settlements[env.settlementId]? = some rows)
    (h : commitTransition H expectedRevision env t effects cursor db = .ok (.Committed revision, db')) :
    env.protocolVersion = protocolVersion ∧ rows.context.revision = expectedRevision := by
  have hapd : ∀ journalId reapplying,
      appendTransition H db rows expectedRevision journalId reapplying env t effects cursor =
        .ok (.Committed revision, db') → rows.context.revision = expectedRevision := by
    intro journalId reapplying h
    simp only [appendTransition, inversion] at h
    exact not_not.mp h.1
  simp only [commitTransition, inversion, hrows, Option.some.injEq, exists_eq_left'] at h
  obtain ⟨hver, h⟩ := h
  refine ⟨not_not.mp hver, ?_⟩
  split at h
  · exact hapd _ _ h
  · simp only [inversion] at h
    obtain ⟨-, h⟩ := h
    split at h
    · exact hapd _ _ h
    · cases h

variable {ctx : SettlementContext}

/-- **The commit**, whatever context it was decided on, as long as that context was the snapshot once. -/
theorem final_storeOp_bind {α β : Type} (f : SettlementDb → Except StorePortError (α × SettlementDb)) (b : β) :
    ((do let _ ← storeOp f; return b : Durable SettlementDb EngineError β) db).final = (storeOp f db).final := by
  obtain ⟨a, db', -, hrun⟩ | ⟨e, -, hrun⟩ := storeOp_cases f db
  · rw [Durable.run_bind_ok (by rw [hrun])]
    rfl
  · rw [Durable.run_bind_error (by rw [hrun])]

theorem final_commitAccepted : (commitAccepted H ctx env t cursor db).final =
    (storeOp (commitTransition H ctx.revision env t (effectsToOutbox H env t.effects) cursor) db).final := by
  unfold commitAccepted
  obtain ⟨r, db', -, hrun⟩ | ⟨e, -, hrun⟩ := storeOp_cases
    (commitTransition H ctx.revision env t (effectsToOutbox H env t.effects) cursor) db
  · rw [Durable.run_bind_ok (by rw [hrun])]
    cases r <;> rfl
  · rw [Durable.run_bind_error (by rw [hrun])]

/-- A refused event changes nothing, or parks its evidence. -/
theorem final_refused {P : SettlementDb → Prop} {e : TransitionError} (hrfd : transition ctx env.event = .error e)
    (hsame : P db) (hpk : ∀ evidence u db', parkEvidence env.settlementId env.eventId evidence db = .ok (u, db') → P db') :
    P (deliver H ctx env cursor db).final := by
  unfold deliver
  rw [hrfd]
  dsimp only
  split
  · cases acceptedEvidence env.event with
    | none => exact hsame
    | some evidence =>
      dsimp only
      rw [final_storeOp_bind]
      exact final_storeOp hsame (hpk evidence)
  · exact hsame

/-- A redelivery changes nothing, reaffirms the evidence, or commits the transition. -/
theorem final_redeliver {P : SettlementDb → Prop} (hsame : P db)
    (hreaf : ∀ u db', reaffirmEvidence env.settlementId env.eventId db = .ok (u, db') → P db')
    (hcmt : ∀ t, transition ctx env.event = .ok t → P (commitAccepted H ctx env t cursor db).final) :
    P (redeliver H ctx env cursor db).final := by
  have hdup := final_storeOp hsame hreaf
  rw [← final_storeOp_bind _ IngestResult.Duplicate] at hdup
  unfold redeliver
  split
  · split
    · cases hacc : transition ctx env.event with
      | ok t => exact hcmt t hacc
      | error e => exact hdup
    · exact hdup
  · exact hsame

theorem keeps_refused {e : TransitionError} (hok : JournalsOk H db)
    (hrows : db.settlements[env.settlementId]? = some rows) (hrfd : transition ctx env.event = .error e) :
    Keeps H db (deliver H ctx env cursor db).final := by
  refine final_refused hrfd (keeps_same hok) fun evidence u db' h => ?_
  obtain ⟨-, rfl, -⟩ | ⟨-, -, -, rfl⟩ := (parkEvidence_eq_ok hrows).mp h
  · exact keeps_same hok
  · exact keeps_of_book hok hrows (onlyRows_putRows db _ _) rfl

theorem keeps_commitAccepted (hok : JournalsOk H db) (hrows : db.settlements[env.settlementId]? = some rows)
    (hsess : rows.sessionId = env.sessionId) (htms : rows.termsHash = env.termsHash)
    (hctx : rows.context.revision = ctx.revision → rows.context = ctx) (hacc : transition ctx env.event = .ok t) :
    Keeps H db (commitAccepted H ctx env t cursor db).final := by
  rw [final_commitAccepted]
  refine final_storeOp (keeps_same hok) fun r db' hcmt => ?_
  have happ {journalId : Digest32} (hr : r = .Committed t.next.revision)
      (h : SettlementDb.Appended H db rows journalId env t cursor db') : Keeps H db db' := by
    obtain ⟨hver, hrev⟩ := commitTransition_checked hrows (hr ▸ hcmt)
    have hsame := hctx hrev
    rw [← hsame] at hacc
    obtain ⟨-, hlt, -⟩ := transition_advances hacc
    refine keeps_of_onlyRows hok hrows ?_ ?_ h.onlyRows
    · rw [book_writeTransition]
      refine ⟨rfl, rfl, UInt64.le_of_lt hlt, fun heq => ?_⟩
      exact absurd heq (UInt64.ne_of_lt hlt).symm
    · exact bookOk_writeTransition (hok _ _ hrows) hacc hver rfl hsess htms
  obtain ⟨rfl, rfl, -⟩ | ⟨hr, h | ⟨h, -⟩⟩ := commitTransition_cases hrows hcmt
  · exact keeps_same hok
  · exact happ hr h
  · exact happ hr h

theorem keeps_create {settlementId sessionId termsHash : Digest32} {canonicalTerms : List UInt8}
    (hok : JournalsOk H db) :
    Keeps H db (storeOp (SettlementDb.create settlementId sessionId termsHash canonicalTerms) db).final := by
  refine final_storeOp (keeps_same hok) fun u db' h => ?_
  obtain rfl | ⟨hnone, rfl⟩ := create_cases h
  · exact keeps_same hok
  · constructor
    · intro id rows hrows
      refine ⟨rows, ?_, .of_eq rfl⟩
      rw [settlements_putRows, if_neg ?_, hrows]
      rintro rfl
      rw [hnone] at hrows
      cases hrows
    · intro id rows hrows
      rw [settlements_putRows] at hrows
      split at hrows
      · cases hrows
        exact ⟨⟨[], .new⟩, rfl, rfl⟩
      · exact hok id rows hrows

theorem keeps_invalidate {fromHeight : UInt64} (hok : JournalsOk H db) :
    Keeps H db (storeOp (invalidateEvidenceFrom id fromHeight) db).final := by
  refine final_storeOp (keeps_same hok) fun u db' h => ?_
  obtain rfl | ⟨rows, hrows, rfl⟩ := invalidateEvidenceFrom_cases h
  · exact keeps_same hok
  · exact keeps_of_book hok hrows (onlyRows_putRows db id _) rfl

theorem keeps_invalidateReorged (env : EventEnvelopeV1) (hok : JournalsOk H db) :
    Keeps H db (invalidateReorged env db).final := by
  unfold invalidateReorged
  cases env.event with
  | ReorgInvalidated fromHeight oldAnchor => exact keeps_invalidate hok
  | _ => exact keeps_same hok

theorem keeps_late {evidenceId : Digest32} {state : SettlementState} (hok : JournalsOk H db)
    (hrows : db.settlements[id]? = some rows) :
    Keeps H db (storeOp (recordLateEvidence id evidenceId state) db).final := by
  refine final_storeOp (keeps_same hok) fun u db' h => ?_
  rw [recordLateEvidence_eq hrows] at h
  cases h
  exact keeps_of_book hok hrows (onlyRows_putRows db id _) rfl

theorem keeps_redeliver (hok : JournalsOk H db) (hrows : db.settlements[env.settlementId]? = some rows)
    (hsess : rows.sessionId = env.sessionId) (htms : rows.termsHash = env.termsHash)
    (hctx : rows.context.revision = ctx.revision → rows.context = ctx) :
    Keeps H db (redeliver H ctx env cursor db).final := by
  refine final_redeliver (keeps_same hok) (fun u db' h => ?_) fun t => keeps_commitAccepted hok hrows hsess htms hctx
  rw [reaffirmEvidence_eq hrows] at h
  cases h
  exact keeps_of_book hok hrows (onlyRows_putRows db _ _) (by rw [rows.reaffirm_eq]; rfl)

/-! ## Whole ingests -/

theorem withstands_ingestSteps (cursor : Option CursorUpdateV1) (db : SettlementDb) :
    (ingestSteps H env cursor).Withstands Progresses (fun db _ => JournalsOk H db)
      (Keeps H) (fun _ _ => True) db := by
  unfold ingestSteps
  refine .bind (.ofDurable fun db₀ _ hok₀ => ⟨keeps_same hok₀, fun rows hload => ?_, fun _ _ => trivial⟩)
  have hrows : db₀.settlements[env.settlementId]? = some rows := okOr_eq_ok.mp hload
  show Script.Withstands _ _ _ _ _ db₀
  split
  · exact .fail trivial
  · rename_i hbd
    have hsess : rows.sessionId = env.sessionId := by_contra fun h => hbd (.inl h)
    have htms : rows.termsHash = env.termsHash := by_contra fun h => hbd (.inr h)
    refine .bind (.ofDurable fun db₁ hdb₁ hok₁ => ⟨keeps_same hok₁, fun previous _ => ?_, fun _ _ => trivial⟩)
    show Script.Withstands _ _ _ _ _ db₁
    -- whenever the write comes, the settlement has made progress from the rows that were read
    have hlat {db₂ : SettlementDb} (hdb₂ : Progresses db₁ db₂) :
        ∃ rows₂, db₂.settlements[env.settlementId]? = some rows₂ ∧ rows₂.sessionId = env.sessionId ∧
          rows₂.termsHash = env.termsHash ∧
          (rows₂.context.revision = rows.context.revision → rows₂.context = rows.context) := by
      obtain ⟨rows₂, hrows₂, hpg⟩ := (hdb₁.trans hdb₂) _ rows hrows
      exact ⟨rows₂, hrows₂, hpg.sessionId.trans hsess, hpg.termsHash.trans htms, hpg.context⟩
    cases previous with
    | some row =>
      dsimp only
      split
      · exact .fail trivial
      · refine .ofDurable fun db₂ hdb₂ hok₂ => ⟨?_, trivial⟩
        obtain ⟨rows₂, hrows₂, hsess₂, htms₂, hctx⟩ := hlat hdb₂
        exact keeps_redeliver hok₂ hrows₂ hsess₂ htms₂ hctx
    | none =>
      dsimp only
      split
      · refine .ofDurable fun db₂ hdb₂ hok₂ => ⟨?_, trivial⟩
        obtain ⟨rows₂, hrows₂, -⟩ := hlat hdb₂
        rw [final_storeOp_bind]
        exact keeps_late hok₂ hrows₂
      · cases hacc : transition rows.context env.event with
        | error e =>
          refine .ofDurable fun db₂ hdb₂ hok₂ => ⟨?_, trivial⟩
          obtain ⟨rows₂, hrows₂, -⟩ := hlat hdb₂
          exact keeps_refused hok₂ hrows₂ hacc
        | ok t =>
          refine .bind (.ofDurable fun db₂ hdb₂ hok₂ => ?_)
          have hinvt := keeps_invalidateReorged env hok₂
          refine ⟨hinvt, fun _ _ => .ofDurable fun db₃ hdb₃ hok₃ => ⟨?_, trivial⟩, fun _ _ => trivial⟩
          obtain ⟨rows₃, hrows₃, hsess₃, htms₃, hctx⟩ := hlat ((hdb₂.trans hinvt.1).trans hdb₃)
          exact keeps_commitAccepted hok₃ hrows₃ hsess₃ htms₃ hctx hacc

/-- **Every database reached by any number of callers has journals that replay.** -/
theorem journalsOk_of_sharedReachable {p : Pool SettlementDb IngestCall EngineError Unit}
    (h : SharedReachable H p) : JournalsOk H p.shared := by
  refine Pool.invariant Progresses.refl (fun _ _ _ => Progresses.trans) ?_ ?_ h
  · rintro db rfl id rows hrows
    simp [SettlementDb.empty] at hrows
  · rintro script db ⟨action, rfl⟩
    cases action with
    | create settlementId sessionId termsHash canonicalTerms =>
      exact .ofDurable fun db' _ hok => ⟨keeps_create hok, trivial⟩
    | invalidate settlementId fromHeight => exact .ofDurable fun db' _ hok => ⟨keeps_invalidate hok, trivial⟩
    | ingest env cursor =>
      exact .bind ((withstands_ingestSteps cursor db).mono fun _ _ _ =>
        ⟨fun _ _ => .pure trivial, fun _ _ => trivial⟩)

end Rely

/-! ## Recovery -/

/-- **The journal, the snapshot and recovery.**  In every database that ingests, in any number and interleaved at
    every call of the store, lead to: the journal of a settlement is numbered from 1 without a gap; each row has the
    revisions and the context hash that replaying the events up to it gives; the snapshot is the replayed context;
    a terminal row is there exactly when the context is terminal, and agrees with it.  Recovery under the terms of
    the settlement reports no divergence, except for a cursor that a caller stored without its anchor. -/
theorem journal_replays_to_snapshot {H : List UInt8 → Digest32} {p : Pool SettlementDb IngestCall EngineError Unit}
    (h : SharedReachable H p) {id : Digest32} {rows : SettlementRows} (hrows : p.shared.settlements[id]? = some rows) :
    (∃ past : List SettlementEvent, past.length = rows.journal.length ∧ contextAfter past = some rows.context ∧
      ∀ i row, rows.journal[i]? = some row → row.seq = i + 1 ∧
        ∃ event recent before next, event :: recent <:+ past ∧ recent.length = i ∧
          contextAfter recent = some before ∧ contextAfter (event :: recent) = some next ∧
          (EventEnvelopeV1.decode row.eventBytes).map (·.event) = .ok event ∧
          row.expectedRevision = before.revision ∧ row.resultingRevision = next.revision ∧
          row.contextHash = contextHash H next) ∧ rows.lastEventSeq = rows.journal.length ∧
    (rows.terminal.isSome = rows.context.state.isTerminal ∧ ∀ state eventId revision,
      rows.terminal = some (state, eventId, revision) → state = rows.context.state ∧ revision = rows.context.revision) ∧
    ∀ (cfg : EngineConfig) (src : ChainSourceV1) (message : String), cfg.settlementId = id →
      cfg.sessionId = rows.sessionId → cfg.termsHash = rows.termsHash →
      recover H cfg src p.shared = .error (.RecoveryDivergence message) → message = "persisted cursor has no anchor" ∧
          ∃ stored, rows.cursors[src.chainId]? = some stored ∧
            (stored.anchorHeight = none ∨ stored.anchorHash = none) := by
  obtain ⟨⟨past, hreplays⟩, hlength, hterminal⟩ := journalsOk_of_sharedReachable h id rows hrows
  have hterminal' : TerminalAgrees rows.context rows.terminal := hterminal
  refine ⟨⟨past, hreplays.length, hreplays.contextAfter, ?_⟩, hlength, ?_, ?_⟩
  · intro i row hi
    obtain ⟨event, recent, before, next, hsuffix, hcount, hbefore, hnext, hrow⟩ := hreplays.row hi
    obtain ⟨env, hbytes, -, hevent, hversion, -⟩ := hrow.envelope
    refine ⟨hrow.seq, event, recent, before, next, hsuffix, hcount, hbefore, hnext, ?_, hrow.expectedRevision,
      hrow.resultingRevision, hrow.contextHash⟩
    rw [hbytes, decode_canonicalBytes hversion, ← hevent]
    rfl
  · cases hrow : rows.terminal with
    | none =>
      rw [hrow] at hterminal'
      exact ⟨hterminal'.symm, nofun⟩
    | some row =>
      obtain ⟨state, eventId, revision⟩ := row
      rw [hrow] at hterminal'
      refine ⟨hterminal'.1.symm, ?_⟩
      intro state' eventId' revision' heq
      cases heq
      exact hterminal'.2
  · rintro cfg src message rfl hsession hterms hrecover
    exact recover_divergence hrows (journalsOk_of_sharedReachable h _ rows hrows) hsession hterms hrecover

theorem sharedReachable_of_ingestReachable {H : List UInt8 → Digest32} {db : SettlementDb} (h : IngestReachable H db) :
    SharedReachable H ⟨db, []⟩ := by
  induction h with
  | start h => exact .start ⟨h, rfl⟩
  | @step db _ action _ ih =>
    have hrun := Pool.Reachable.run ih ⟨action, rfl⟩
    have hnext : ((action.script H).run db).final = action.next H db := by
      cases action with
      | create | invalidate =>
        rw [IngestAction.script, Script.run_ofDurable]
        rfl
      | ingest env cursor =>
        show ((ingestSteps H env cursor >>= fun _ => pure ()).run db).final = (ingestEvent H env cursor db).final
        rw [Script.run_bind, run_ingestSteps]
        cases hr : (ingestEvent H env cursor db).result with
        | ok result => rw [Durable.run_bind_ok hr]; rfl
        | error e => rw [Durable.run_bind_error hr]
    rw [hnext] at hrun
    exact hrun

namespace Miniature

/-- The refund is armed, and the commit carries a cursor of chain 1 with this anchor. -/
def armed (anchorHeight : Option UInt64) (anchorHash : Option Digest32) : SettlementDb :=
  ingestAll digest [.create 1 2 3 [], .ingest (envelope .RefundArmed) (some ⟨1, [7], anchorHeight, anchorHash⟩)]

/-- The terms of settlement 1, and a source that knows only where the chain begins. -/
def terms : EngineConfig := { settlementId := 1, sessionId := 2, termsHash := 3, chainId := 1, policy := ⟨1, 100⟩ }

def silent : ChainSourceV1 where
  chainId := 1
  genesisCursor := .ok ⟨[0], 0, 0⟩
  cursorAt _ := .error .Unavailable
  scan _ := .error .Unavailable
  tipHeight := .error .Unavailable

end Miniature

open Miniature in
/-- A commit whose cursor has no anchor is taken, and recovery then reports a divergence. -/
theorem unanchored_cursor_diverges : SharedReachable digest ⟨armed none none, []⟩ ∧
      recover digest terms silent (armed none none) = .error (.RecoveryDivergence "persisted cursor has no anchor") :=
  ⟨sharedReachable_of_ingestReachable (ingestReachable_ingestAll _ _), by decide +kernel⟩

open Miniature in
/-- With an anchor the same run recovers, and its one journal row replays. -/
theorem anchored_cursor_recovers :
    (armed (some 7) (some 9)).settlements[(1 : Digest32)]?.map (·.journal.length) = some 1 ∧
      (recover digest terms silent (armed (some 7) (some 9))).isOk = true ∧
      ∃ rows, (armed (some 7) (some 9)).settlements[(1 : Digest32)]? = some rows ∧
        rows.lastEventSeq = rows.journal.length ∧ rows.terminal.isSome = rows.context.state.isTerminal := by
  have hlength : (armed (some 7) (some 9)).settlements[(1 : Digest32)]?.map (·.journal.length) = some 1 := by
    decide +kernel
  obtain ⟨rows, hrows, -⟩ := Option.map_eq_some_iff.mp hlength
  have hreach : SharedReachable digest ⟨armed (some 7) (some 9), []⟩ :=
    sharedReachable_of_ingestReachable (ingestReachable_ingestAll _ _)
  have hall := journal_replays_to_snapshot hreach hrows
  exact ⟨hlength, by decide +kernel, rows, hrows, hall.2.1, hall.2.2.1.1⟩

end DomProtocol
