import DomProtocol.Lib.Interleave
import DomProtocol.Settlement.Record

/-!
# `Settlement.Replay` — the journal replays to the snapshot

What recovery checks is true of every database that ingests leave, also when several of them run side by side and
interleave at every store transaction: the journal has no gap, replaying it from the new context reproduces every
recorded revision and context hash and ends in the snapshot, and the terminal row says what the context says.  A
commit that decides on a stale context meets another revision and is rolled back.
-/

namespace DomProtocol

open Lib

/-! ## Envelopes read back -/

/-- The decoder turns the bytes `bs` in front of any input into `a`. -/
def Decodes {α : Type} (m : DecodeM α) (bs : List UInt8) (a : α) : Prop :=
  ∀ rest, m (bs ++ rest) = .ok (a, rest)

namespace Decodes

variable {α β : Type} {m : DecodeM α} {f : α → DecodeM β} {a : α} {b : β} {bs cs : List UInt8}

theorem take (bs : List UInt8) {n : Nat} (hlen : bs.length = n) : Decodes (DomProtocol.take n) bs bs := by
  intro rest
  unfold DomProtocol.take
  rw [if_neg (by simp [hlen]), ← hlen, List.take_left, List.drop_left]

theorem pure (a : α) : Decodes (Pure.pure a) [] a := fun _ => rfl

theorem bind (hm : Decodes m bs a) (hf : Decodes (f a) cs b) : Decodes (m >>= f) (bs ++ cs) b := by
  intro rest
  show (m (bs ++ cs ++ rest)).bind (fun p => f p.1 p.2) = .ok (b, rest)
  rw [List.append_assoc, hm (cs ++ rest)]
  exact hf rest

theorem map {g : α → β} (hm : Decodes m bs a) : Decodes (do return g (← m)) bs (g a) := by
  have h := hm.bind (f := fun x => Pure.pure (g x)) (Decodes.pure (g a))
  rwa [List.append_nil] at h

theorem takeDigest (d : Digest32) : Decodes DomProtocol.takeDigest (hashBytes d) d := by
  have h := (take (hashBytes d) (length_beBytes 32 d.toNat)).map (g := fun bs => BitVec.ofNat 256 (ofBeBytes bs))
  have hd : BitVec.ofNat 256 (ofBeBytes (hashBytes d)) = d := by
    rw [ofBeBytes_hashBytes, BitVec.ofNat_toNat, BitVec.setWidth_eq]
  rwa [hd] at h

theorem takeU64 (v : UInt64) : Decodes DomProtocol.takeU64 (beBytes 8 v.toNat) v := by
  have h := (take (beBytes 8 v.toNat) (length_beBytes 8 v.toNat)).map (g := fun bs => UInt64.ofNat (ofBeBytes bs))
  have hv : UInt64.ofNat (ofBeBytes (beBytes 8 v.toNat)) = v := by
    rw [ofBeBytes_beBytes v.toNat_lt, UInt64.ofNat_toNat]
  rwa [hv] at h

theorem takeEvidence (ev : EvidenceRefV1) : Decodes DomProtocol.takeEvidence (putEvidence ev) ev := by
  have hidx : UInt32.ofNat (ofBeBytes (beBytes 4 ev.eventIndex.toNat)) = ev.eventIndex := by
    rw [ofBeBytes_beBytes ev.eventIndex.toNat_lt, UInt32.ofNat_toNat]
  refine (takeDigest ev.chainId).bind ((takeDigest ev.txId).bind ((take _ (length_beBytes 4 _)).bind
    ((takeU64 ev.blockHeight).bind ?_)))
  rw [hidx]
  exact (takeDigest ev.blockAnchor).map

theorem decodeEvent (event : SettlementEvent) : Decodes DomProtocol.decodeEvent (encodeEvent event) event := by
  have hkind : ofBeBytes (beBytes 2 (eventKind event)) = eventKind event :=
    ofBeBytes_beBytes (by cases event <;> simp [eventKind])
  refine (take (beBytes 2 (eventKind event)) (length_beBytes 2 _)).bind ?_
  rw [hkind]
  cases event with
  | RefundArmed | TimelockExpired => exact pure _
  | FundingAbsent height => exact (takeU64 height).map
  | ReorgInvalidated fromHeight oldAnchor => exact (takeU64 fromHeight).bind (takeDigest oldAnchor).map
  | FundingObserved evidence | FundingConfirmed evidence | ClaimEvidenceVerified evidence
  | ClaimConfirmed evidence | RefundConfirmed evidence => exact (takeEvidence evidence).map

end Decodes

/-- **Round trip.**  The canonical bytes of an envelope of the current version decode to the envelope. -/
theorem decode_canonicalBytes {env : EventEnvelopeV1} (h : env.protocolVersion = protocolVersion) :
    EventEnvelopeV1.decode env.canonicalBytes = .ok env := by
  have hver : UInt16.ofNat (ofBeBytes (beBytes 2 env.protocolVersion.toNat)) = env.protocolVersion := by
    rw [h]
    decide
  have hread : Decodes takeEnvelope env.canonicalBytes env := by
    simp only [EventEnvelopeV1.canonicalBytes, List.append_assoc]
    refine (Decodes.take _ (length_beBytes 2 _)).bind ?_
    dsimp only
    rw [hver, if_neg (not_not_intro h)]
    refine (Decodes.takeDigest _).bind ((Decodes.takeDigest _).bind ((Decodes.takeDigest _).bind
      ((Decodes.takeDigest _).bind ((Decodes.takeDigest _).bind ((Decodes.takeU64 _).bind ?_)))))
    exact (Decodes.decodeEvent env.event).map
  have hall := hread []
  rw [List.append_nil] at hall
  simp [EventEnvelopeV1.decode, hall]

/-! ## What a journal owes -/

section Book

variable (H : List UInt8 → Digest32) (id : Digest32)

/-- The part of the rows that recovery replays. -/
structure Book where
  sessionId : Digest32
  termsHash : Digest32
  context : SettlementContext
  lastEventSeq : Nat
  journal : List SettlementJournalRow
  terminal : Option (SettlementState × Digest32 × UInt64)

def SettlementRows.book (rows : SettlementRows) : Book :=
  ⟨rows.sessionId, rows.termsHash, rows.context, rows.lastEventSeq, rows.journal, rows.terminal⟩

/-- A journal row written for an accepted event: the next sequence number, the revisions around the transition, the
    canonical bytes of an envelope bound to the terms, and the hash of the context it leads to. -/
structure RowFor (l : Book) (seq : Nat) (before : SettlementContext) (event : SettlementEvent)
    (next : SettlementContext) (row : SettlementJournalRow) : Prop where
  seq : row.seq = seq
  expectedRevision : row.expectedRevision = before.revision
  resultingRevision : row.resultingRevision = next.revision
  contextHash : row.contextHash = contextHash H next
  envelope : ∃ env : EventEnvelopeV1, row.eventBytes = env.canonicalBytes ∧ row.eventKind = eventKind event ∧
    env.event = event ∧ env.protocolVersion = protocolVersion ∧ env.settlementId = id ∧
    env.sessionId = l.sessionId ∧ env.termsHash = l.termsHash

/-- **The journal replays** the events `past`, latest first, row by row. -/
inductive Replays (l : Book) : List SettlementJournalRow → List SettlementEvent → SettlementContext → Prop where
  | new : Replays l [] [] .new
  | append {journal : List SettlementJournalRow} {past : List SettlementEvent} {ctx next : SettlementContext}
      {event : SettlementEvent} {row : SettlementJournalRow} (h : Replays l journal past ctx)
      (haccept : accept ctx event = some next) (hrow : RowFor H id l (journal.length + 1) ctx event next row) :
      Replays l (journal ++ [row]) (event :: past) next

/-- The terminal row is there exactly for a terminal context, and says the same. -/
def TerminalAgrees (ctx : SettlementContext) : Option (SettlementState × Digest32 × UInt64) → Prop
  | none => ctx.state.isTerminal = false
  | some (state, _, revision) => ctx.state.isTerminal = true ∧ state = ctx.state ∧ revision = ctx.revision

/-- **What recovery relies on.** -/
structure BookOk (l : Book) : Prop where
  replays : ∃ past, Replays H id l l.journal past l.context
  length : l.lastEventSeq = l.journal.length
  terminal : TerminalAgrees l.context l.terminal

/-- Every settlement of the database has such a book. -/
def JournalsOk (db : SettlementDb) : Prop :=
  ∀ (id : Digest32) (rows : SettlementRows), db.settlements[id]? = some rows → BookOk H id rows.book

variable {H id} {l : Book} {journal : List SettlementJournalRow} {past : List SettlementEvent}
  {ctx next : SettlementContext}

theorem Replays.length (h : Replays H id l journal past ctx) : past.length = journal.length := by
  induction h with
  | new => rfl
  | append _ _ _ ih => simp [ih]

theorem Replays.contextAfter (h : Replays H id l journal past ctx) : contextAfter past = some ctx := by
  induction h with
  | new => rfl
  | append _ hacc _ ih => exact after_cons_eq_some.mpr ⟨_, ih, hacc⟩

theorem Replays.rebind {l' : Book} (h : Replays H id l journal past ctx) (hsess : l'.sessionId = l.sessionId)
    (htms : l'.termsHash = l.termsHash) : Replays H id l' journal past ctx := by
  induction h with
  | new => exact .new
  | append _ hacc hrow ih =>
    obtain ⟨hseq, hexp, hrsg, hhash, env, hbyt, hkind, hev, hver, hid, hsess', htms'⟩ := hrow
    exact .append ih hacc ⟨hseq, hexp, hrsg, hhash, env, hbyt, hkind, hev, hver, hid,
      hsess'.trans hsess.symm, htms'.trans htms.symm⟩

theorem transition_advances {event : SettlementEvent} {t : Transition} (h : transition ctx event = .ok t) :
    ctx.state.isTerminal = false ∧ ctx.revision < t.next.revision ∧ accept ctx event = some t.next := by
  have hacc : accept ctx event = some t.next := by
    unfold accept
    rw [h]
    rfl
  obtain ⟨revision, hrev, hstep⟩ := transition_eq_ok.mp h
  have hlt : ctx.revision < revision := by
    unfold checkedSucc64 at hrev
    split at hrev
    · rename_i hroom
      cases hrev
      rw [UInt64.lt_iff_toNat_lt, UInt64.toNat_add, Nat.mod_eq_of_lt (by simpa [u64Bound] using hroom)]
      exact Nat.lt_succ_self _
    · cases hrev
  have hnext : t.next.revision = revision := by
    cases hstep <;> rfl
  refine ⟨?_, hnext ▸ hlt, hacc⟩
  unfold transition at h
  split at h
  · cases h
  · rename_i hopen
    simpa using hopen

theorem Replays.row (h : Replays H id l journal past ctx) {i : Nat} {row : SettlementJournalRow}
    (hi : journal[i]? = some row) : ∃ event recent before next, event :: recent <:+ past ∧ recent.length = i ∧
      DomProtocol.contextAfter recent = some before ∧ DomProtocol.contextAfter (event :: recent) = some next ∧
      RowFor H id l (i + 1) before event next row := by
  induction h with
  | new => cases hi
  | @append journal past ctx next event last h hacc hrow ih =>
    rcases Nat.lt_trichotomy i journal.length with hlt | rfl | hgt
    · rw [List.getElem?_append_left hlt] at hi
      obtain ⟨event', recent, before, next', hsuf, hlen, hbef, hnext, hfor⟩ := ih hi
      exact ⟨event', recent, before, next', hsuf.trans (List.suffix_cons _ _), hlen, hbef, hnext, hfor⟩
    · rw [List.getElem?_append_right (Nat.le_refl _), Nat.sub_self] at hi
      cases hi
      exact ⟨event, past, ctx, next, List.suffix_refl _, h.length, h.contextAfter,
        after_cons_eq_some.mpr ⟨_, h.contextAfter, hacc⟩, hrow⟩
    · rw [List.getElem?_append_right hgt.le, List.getElem?_singleton, if_neg (by omega)] at hi
      cases hi

variable {cfg : EngineConfig}

theorem Replays.read (h : Replays H cfg.settlementId l journal past ctx) (hsess : cfg.sessionId = l.sessionId)
    (htms : cfg.termsHash = l.termsHash) : ∃ read, journal.mapM readRow = .ok read ∧
      read.foldlM (replayRow H cfg) (SettlementContext.new, 0) = .ok (ctx, journal.length) := by
  induction h with
  | new => exact ⟨[], rfl, rfl⟩
  | @append journal past ctx next event last h hacc hrow ih =>
    obtain ⟨read, hread, hrpl⟩ := ih
    obtain ⟨hseq, hexp, hrsg, hhash, env, hbyt, hkind, hev, hver, hid, hsess', htms'⟩ := hrow
    subst hev
    have hlast : readRow last =
        .ok ⟨last.seq, last.expectedRevision, last.resultingRevision, env, last.contextHash⟩ := by
      simp [readRow, hbyt, decode_canonicalBytes hver, hkind]
    obtain ⟨t, ht, rfl⟩ : ∃ t, transition ctx env.event = .ok t ∧ t.next = next := by
      unfold accept at hacc
      obtain ⟨t, ht, hnext⟩ := Option.map_eq_some_iff.mp hacc
      exact ⟨t, toOption_eq_some.mp ht, hnext⟩
    refine ⟨read ++ [⟨last.seq, last.expectedRevision, last.resultingRevision, env, last.contextHash⟩], ?_, ?_⟩
    · simp [List.mapM_append, hread, hlast]
    · have hstep : replayRow H cfg (ctx, journal.length)
          ⟨last.seq, last.expectedRevision, last.resultingRevision, env, last.contextHash⟩ =
            .ok (t.next, journal.length + 1) := by
        simp [replayRow, hseq, hid, hsess', htms', hsess, htms, hexp, ht, hrsg, hhash,
          Except.mapError]
      simp [List.foldlM_append, hrpl, hstep]

theorem checkTerminal_ok {rows : SettlementRows} (h : TerminalAgrees ctx rows.terminal) :
    checkTerminal rows ctx = .ok () := by
  unfold checkTerminal
  cases hrow : rows.terminal with
  | none =>
    rw [hrow] at h
    simp [show ctx.state.isTerminal = false from h]
  | some row =>
    obtain ⟨state, eventId, revision⟩ := row
    rw [hrow] at h
    obtain ⟨hterm, hstate, hrev⟩ := h
    simp [hterm, hstate, hrev]

/-- **Recovery finds nothing to complain about** but a cursor that was stored without its anchor. -/
theorem recover_divergence {rows : SettlementRows} {db : SettlementDb} {src : ChainSourceV1} {message : String}
    (hrows : db.settlements[cfg.settlementId]? = some rows) (hok : BookOk H cfg.settlementId rows.book)
    (hsess : cfg.sessionId = rows.sessionId) (htms : cfg.termsHash = rows.termsHash)
    (h : recover H cfg src db = .error (.RecoveryDivergence message)) : message = "persisted cursor has no anchor" ∧
      ∃ stored, rows.cursors[src.chainId]? = some stored ∧ (stored.anchorHeight = none ∨ stored.anchorHash = none) := by
  obtain ⟨⟨past, hrpls⟩, hlen, hterm⟩ := hok
  obtain ⟨read, hread, hrpl⟩ := hrpls.read hsess htms
  have hjour : readJournal rows = .ok read := by
    have hseqs : forM rows.journal.zipIdx (fun entry =>
        rejectIf (entry.1.seq ≠ entry.2 + 1) (StorePortError.Storage .CorruptState)) = .ok () := by
      rw [forM_eq_ok]
      rintro ⟨row, index⟩ hmem
      obtain ⟨event, recent, before, next, -, -, -, -, hrow⟩ :=
        hrpls.row (List.mk_mem_zipIdx_iff_getElem?.mp hmem)
      simp [hrow.seq]
    exact bind_eq_ok.mpr ⟨(), hseqs, hread⟩
  have hfold : read.foldlM (replayRow H cfg) (SettlementContext.new, 0) = .ok (rows.context, rows.lastEventSeq) := by
    rw [show rows.lastEventSeq = rows.journal.length from hlen]
    exact hrpl
  have hchk : checkTerminal rows rows.context = .ok () := checkTerminal_ok hterm
  simp only [recover, hrows, okOr, ok_bind, hjour, hfold, hchk, Except.mapError, bind_eq_error, rejectIf_eq_error,
    rejectIf_eq_ok, exists_unit, ne_eq, not_true_eq_false, false_and, false_or, not_false_eq_true, true_and] at h
  rcases h with ⟨-, h⟩ | ⟨-, h | ⟨genesis, -, ⟨hbd, -⟩ | ⟨-, h | ⟨cursor, -, h | ⟨envelopes, -, h⟩⟩⟩⟩⟩
  · cases h
  · split at h <;> cases h
  · rcases hbd with h | h
    · exact absurd htms.symm h
    · exact absurd hsess.symm h
  · unfold resumeCursor at h
    cases hsto : rows.cursors[src.chainId]? with
    | none =>
      rw [hsto] at h
      simp only [Except.mapError] at h
      split at h <;> cases h
    | some stored =>
      rw [hsto] at h
      dsimp only at h
      split at h
      · cases h
      · rename_i hanc
        cases h
        refine ⟨rfl, stored, rfl, ?_⟩
        cases hht : stored.anchorHeight with
        | none => exact .inl rfl
        | some height =>
          cases hhash : stored.anchorHash with
          | none => exact .inr rfl
          | some anchor => exact absurd hhash (hanc height anchor hht)
  · obtain ⟨p, -, hp⟩ := exists_of_mapM_eq_error h
    rw [map_eq_error, invertEvidenceEvent, okOr_eq_error] at hp
    cases hp.2
  · cases h

end Book

end DomProtocol
