import DomProtocol.Settlement.Record

/-!
# `Settlement.Cursor` — the durable cursor against the chain

What a chain source owes the engine, what the durable cursor promises, and the runs in which it keeps that promise.
A position is a place on a branch of the block tree: `below` says which blocks lie at or below it, so a cursor on an
abandoned branch covers the blocks that branch shares with the canonical chain and no others.  The runs interleave
changes of the chain, ticks taken call by call, and crashes between any two store transactions.
-/

namespace DomProtocol

open Lib

/-! ## The chain and its source -/

/-- The kinds of records a settlement has on its chain. -/
inductive ObservedKind where
  | funding
  | claim
  | refund
  deriving DecidableEq, Repr

/-- A funding, claim or refund on the chain. -/
structure Observation where
  kind : ObservedKind
  evidence : EvidenceRefV1
  deriving DecidableEq, Repr

namespace Observation

def record (o : Observation) : ChainRecordV1 :=
  match o.kind with
  | .funding => .Funding o.evidence
  | .claim => .Claim o.evidence
  | .refund => .Refund o.evidence

/-- The event by which the observation becomes durable; that of a refund is ingested once it is final. -/
def event (o : Observation) : SettlementEvent :=
  match o.kind with
  | .funding => .FundingObserved o.evidence
  | .claim => .ClaimEvidenceVerified o.evidence
  | .refund => .RefundConfirmed o.evidence

def height (o : Observation) : UInt64 := o.evidence.blockHeight

@[simp] theorem acceptedEvidence_event (o : Observation) : acceptedEvidence o.event = some o.evidence := by
  obtain ⟨kind, evidence⟩ := o
  cases kind <;> rfl

theorem record_injective {o o' : Observation} (h : o.record = o'.record) : o = o' := by
  obtain ⟨kind, evidence⟩ := o
  obtain ⟨kind', evidence'⟩ := o'
  cases kind <;> cases kind' <;> cases h <;> rfl

end Observation

/-- The observations on the canonical chain. -/
structure ChainView where
  observations : List Observation
  deriving DecidableEq, Repr

section Source

variable (below : List UInt8 → Digest32 → Bool) (v : ChainView)

/-- The observation is on the canonical chain, at or below the position. -/
def Due (position : List UInt8) (o : Observation) : Prop :=
  o ∈ v.observations ∧ below position o.evidence.blockAnchor = true

/-- A position on the canonical chain: everything up to its height lies at or below it, and nothing above. -/
def OnChain (cursor : ChainCursorV1) : Prop :=
  ∀ o, Due below v cursor.bytes o ↔ o ∈ v.observations ∧ o.height ≤ cursor.height

/-- `rest` has each observation at or below `upper` but not at or below `lower`, once. -/
def Between (lower upper : ChainCursorV1) (rest : List Observation) : Prop :=
  rest.Nodup ∧ ∀ o, o ∈ rest ↔ Due below v upper.bytes o ∧ ¬ Due below v lower.bytes o

/-- `fromHeight` is the first invalidated height: what `start` still shares with the canonical chain is lower. -/
def FirstInvalidated (start : ChainCursorV1) (fromHeight : UInt64) : Prop :=
  ∀ o, Due below v start.bytes o → o.height < fromHeight

/-- What a scan may answer: the records after the position; or, when the position was abandoned, a reorg, followed
    by the records after a position `base` the source went back to, or by none. -/
inductive Scanned (start : ChainCursorV1) : List ChainRecordV1 → ChainCursorV1 → Prop where
  | forward {rest : List Observation} {scannedTo : ChainCursorV1} (hrest : Between below v start scannedTo rest) :
      Scanned start (rest.map Observation.record) scannedTo
  | rewound {fromHeight : UInt64} {oldAnchor : Digest32} {base scannedTo : ChainCursorV1} {rest : List Observation}
      (hfirst : FirstInvalidated below v start fromHeight)
      (hback : ∀ o, Due below v base.bytes o → Due below v start.bytes o)
      (hrest : Between below v base scannedTo rest) :
      Scanned start (.Reorg fromHeight oldAnchor :: rest.map Observation.record) scannedTo

/-- **The source contract**: while a call lasts the source answers from one view of the chain; it reports each
    record once per scan and rewinds on reorgs. -/
structure Honest (src : ChainSourceV1) : Prop where
  genesis : ∀ c, src.genesisCursor = .ok c → ∀ o, ¬ Due below v c.bytes o
  cursorAt : ∀ height c, src.cursorAt height = .ok c → OnChain below v c ∧ c.height = height
  scan : ∀ start records scannedTo, src.scan start = .ok (records, scannedTo) →
    Scanned below v start records scannedTo ∧ OnChain below v scannedTo

end Source

/-! ## The promise of the cursor -/

variable {reference : EvidenceRefV1} {event : SettlementEvent}

section Promise

variable (below : List UInt8 → Digest32 → Bool) (H : List UInt8 → Digest32) (cfg : EngineConfig) (v : ChainView)

/-- **A durable consequence**: the observation is journalled, recorded as late, or in a parked row that recovery
    adopts. -/
def Durably (rows : SettlementRows) (o : Observation) : Prop :=
  (rows.journalled (deriveEventId H cfg.settlementId o.event)).isSome ∨
    (rows.late[deriveEventId H cfg.settlementId o.event]?).isSome ∨
    ∃ envelopes, parkedEnvelopes H cfg rows = .ok envelopes ∧ envelopeFor H cfg o.event ∈ envelopes

/-- **The promise**: every observation on the canonical chain at or below the durable cursor has a durable
    consequence. -/
def CursorSound (db : SettlementDb) : Prop :=
  ∀ rows stored, db.settlements[cfg.settlementId]? = some rows → rows.cursors[cfg.chainId]? = some stored →
    ∀ o, Due below v stored.cursorBytes o → Durably H cfg rows o

/-- The five kinds of events one piece of evidence may stand for have different identifiers. -/
def KindsDistinct : Prop :=
  ∀ reference : EvidenceRefV1, (evidenceEvents reference).Pairwise fun a b =>
    deriveEventId H cfg.settlementId a ≠ deriveEventId H cfg.settlementId b

/-- The same promise in terms of the rows alone. -/
def SoundRows (rows : SettlementRows) : Prop :=
  ∀ stored, rows.cursors[cfg.chainId]? = some stored → ∀ o, Due below v stored.cursorBytes o →
    Recorded H cfg.settlementId rows o.event

variable {H cfg} {rows : SettlementRows}

theorem mem_evidenceEvents
    (h : acceptedEvidence event = some reference) : event ∈ evidenceEvents reference := by
  cases event with
  | RefundArmed | TimelockExpired | FundingAbsent | ReorgInvalidated => cases h
  | _ => cases h; simp [evidenceEvents]

theorem invertEvidenceEvent_eq (hkds : KindsDistinct H cfg)
    (h : acceptedEvidence event = some reference) :
    invertEvidenceEvent H cfg (deriveEventId H cfg.settlementId event) reference = .ok event := by
  have hpair := hkds reference
  have hmem := mem_evidenceEvents h
  unfold invertEvidenceEvent
  rw [okOr_eq_ok]
  generalize evidenceEvents reference = events at hpair hmem
  induction hpair with
  | nil => cases hmem
  | @cons first rest hfst hrest ih =>
    rcases List.mem_cons.mp hmem with rfl | hmem
    · simp
    · rw [List.find?_cons_of_neg]
      · exact ih hmem
      · simpa using hfst _ hmem

theorem mem_evidenceWith {status : EvidenceStatus} {p : Digest32 × EvidenceRefV1} :
    p ∈ rows.evidenceWith status ↔
      ∃ row : EvidenceRow, rows.evidence[p.1]? = some row ∧ row.status = status ∧ row.reference = p.2 := by
  unfold SettlementRows.evidenceWith
  rw [(List.mergeSort_perm _ _).mem_iff, List.mem_map]
  constructor
  · rintro ⟨⟨a, row⟩, hmem, rfl⟩
    obtain ⟨hmem, hstat⟩ := List.mem_filter.mp hmem
    exact ⟨row, Std.ExtTreeMap.mem_toList_iff_getElem?_eq_some.mp hmem, by simpa using hstat, rfl⟩
  · rintro ⟨row, hrow, hstat, href⟩
    refine ⟨(p.1, row), List.mem_filter.mpr ⟨Std.ExtTreeMap.mem_toList_iff_getElem?_eq_some.mpr hrow, ?_⟩, ?_⟩
    · simpa using hstat
    · exact Prod.ext rfl href

/-- **Recovery adopts every parked row**, as the envelope of the event it came from. -/
theorem parkedEnvelopes_ok (hkds : KindsDistinct H cfg) (hok : EvidenceOk H cfg.settlementId rows) :
    ∃ envelopes, parkedEnvelopes H cfg rows = .ok envelopes ∧ ∀ event row,
      rows.evidence[deriveEventId H cfg.settlementId event]? = some row → row.status = .Parked →
        acceptedEvidence event = some row.reference → envelopeFor H cfg event ∈ envelopes := by
  have hall : ∀ p ∈ rows.evidenceWith .Parked, ∃ env,
      (envelopeFor H cfg <$> invertEvidenceEvent H cfg p.1 p.2) = .ok env := by
    intro p hp
    obtain ⟨row, hrow, -, href⟩ := mem_evidenceWith.mp hp
    obtain ⟨event, hev, hid⟩ := hok.fromEvent p.1 row hrow
    rw [← hid, invertEvidenceEvent_eq hkds (href ▸ hev)]
    exact ⟨_, rfl⟩
  obtain ⟨envelopes, henvs⟩ := mapM_ok_of_forall hall
  refine ⟨envelopes, henvs, ?_⟩
  intro event row hrow hpk hev
  have hmem : (deriveEventId H cfg.settlementId event, row.reference) ∈ rows.evidenceWith .Parked :=
    mem_evidenceWith.mpr ⟨row, hrow, hpk, rfl⟩
  obtain ⟨env, henv, heq⟩ := exists_of_mapM_eq_ok henvs hmem
  rw [invertEvidenceEvent_eq hkds hev] at heq
  cases heq
  exact henv

theorem Recorded.durably (hkds : KindsDistinct H cfg) (hok : EvidenceOk H cfg.settlementId rows) {o : Observation}
    (h : Recorded H cfg.settlementId rows o.event) : Durably H cfg rows o := by
  rcases h with hjour | hlate | ⟨row, hrow, hpk, href⟩
  · exact .inl hjour
  · exact .inr (.inl hlate)
  · obtain ⟨envelopes, henvs, hmem⟩ := parkedEnvelopes_ok hkds hok
    exact .inr (.inr ⟨envelopes, henvs, hmem o.event row hrow hpk href⟩)

end Promise

/-! ## Runs -/

/-- What an engine is doing: it is not there, it waits, or a call of it is under way. -/
inductive EngineStatus where
  | closed
  | idle (memory : EngineMemory)
  | running (memory : EngineMemory) (report : TickReportV1) (script : EngineScript Unit)

/-- The chain, the database and the engine. -/
structure World where
  view : ChainView
  db : SettlementDb
  status : EngineStatus

/-- What may happen: the chain changes, an engine is opened, it is told to arm the refund or to tick, a call under
    way goes on, or the process stops after `transactions` transactions of the call it is in.  Other settlements use
    the same database. -/
inductive EngineAction where
  | chain (view : ChainView)
  | elsewhere (db : SettlementDb)
  | reopen (src : ChainSourceV1)
  | armRefund
  | tick (src : ChainSourceV1) (sink : ClaimedEffectV1 → EffectOutcome) (now : Int)
  | advance
  | crash (transactions : Nat)

section Runs

variable (below : List UInt8 → Digest32 → Bool) (H : List UInt8 → Digest32) (cfg : EngineConfig)

def discard {α : Type} (script : EngineScript α) : EngineScript Unit := do
  let _ ← script
  return ()

/-- A script that is over leaves the engine waiting, with what it holds in memory. -/
def settled (s : EngineState) : EngineScript Unit → EngineStatus
  | .done _ => .idle s.memory
  | script => .running s.memory s.report script

def World.next (w : World) : EngineAction → World
  | .chain view => { w with view }
  | .elsewhere db => { w with db }
  | .reopen src =>
    match recover H cfg src w.db with
    | .ok memory => { w with status := .idle memory }
    | .error _ => w
  | .armRefund =>
    match w.status with
    | .idle memory => { w with status := .running memory {} (discard (DomProtocol.armRefund H cfg)) }
    | _ => w
  | .tick src sink now =>
    match w.status with
    | .idle memory => { w with status := .running memory {} (discard (DomProtocol.tick H cfg src sink now)) }
    | _ => w
  | .advance =>
    match w.status with
    | .running memory report (.call _ _ final next) =>
      let s : EngineState := ⟨w.db, memory, report⟩
      { w with db := (final s).db, status := settled (final s) (next s) }
    | _ => w
  | .crash transactions =>
    match w.status with
    | .running memory report (.call _ visited _ _) =>
      let s : EngineState := ⟨w.db, memory, report⟩
      { w with db := (((visited s).take transactions).getLastD s).db, status := .closed }
    | _ => { w with status := .closed }

/-- A settlement that was just created, and no engine yet. -/
def World.Initial (w : World) : Prop :=
  w.status = .closed ∧ ∃ sessionId termsHash canonicalTerms, w.db.settlements[cfg.settlementId]? =
    some ⟨sessionId, termsHash, canonicalTerms, .new, 0, [], ∅, ∅, none, ∅⟩

/-- What the surroundings guarantee: the source keeps its contract and does not change its mind during a call, and
    nobody else writes the rows of this settlement. -/
def World.Allowed (w : World) : EngineAction → Prop
  | .chain _ => ∀ memory report script, w.status ≠ .running memory report script
  | .elsewhere db => (∀ memory report script, w.status ≠ .running memory report script) ∧
      db.settlements[cfg.settlementId]? = w.db.settlements[cfg.settlementId]?
  | .reopen src => w.status = .closed ∧ Honest below w.view src
  | .tick src _ _ => Honest below w.view src
  | _ => True

/-- The worlds reached under that guarantee. -/
def EngineReachable : World → Prop := Reach (World.Initial cfg) (World.Allowed below cfg) (World.next H cfg)

/-! ## When the promise is kept -/

/-- The refund is held in memory, or is still to come in the scan. -/
def AwaitedRefund (pendingRefunds : List EvidenceRefV1) (later : List ChainRecordV1) (o : Observation) : Prop :=
  o.kind = .refund ∧ (o.evidence ∈ pendingRefunds ∨ .Refund o.evidence ∈ later)

/-- The condition on an observation about to be ingested: it is not going to be parked over a row a reorg has
    invalidated; and if its commit carries the cursor, every awaited refund the scan covers has a refund held in
    memory at or below it. -/
def ObservationClear (v : ChainView) (rows : SettlementRows) (memory : EngineMemory) (event : SettlementEvent)
    (later : List ChainRecordV1) (scannedTo : ChainCursorV1) (carries : Bool) : Prop :=
  Revivable rows (envelopeFor H cfg event) ∧
    (carries = true → Commits rows (envelopeFor H cfg event) →
      ∀ o, AwaitedRefund memory.pendingRefunds later o → Due below v scannedTo.bytes o →
        ¬ Recorded H cfg.settlementId rows o.event →
          ∃ ev ∈ memory.pendingRefunds, ev.blockHeight ≤ o.height ∧ ev.blockHeight.toNat < 2 ^ 64 - 1)

/-- The condition on a call about to be made. -/
def CallClear (v : ChainView) (s : EngineState) : EngineCall → Prop
  | .housekeeping => True
  | .record (.Funding evidence) later scannedTo carries =>
    ∀ rows, s.db.settlements[cfg.settlementId]? = some rows →
      ObservationClear below H cfg v rows s.memory (.FundingObserved evidence) later scannedTo carries
  | .record (.Claim evidence) later scannedTo carries =>
    ∀ rows, s.db.settlements[cfg.settlementId]? = some rows →
      ObservationClear below H cfg v rows s.memory (.ClaimEvidenceVerified evidence) later scannedTo carries
  | .record (.Refund _) _ _ _ => True
  | .record (.Reorg fromHeight _) _ _ _ =>
    -- no canonical observation at or below the durable cursor loses its parked row
    ∀ rows stored, s.db.settlements[cfg.settlementId]? = some rows → rows.cursors[cfg.chainId]? = some stored →
      ∀ o, Due below v stored.cursorBytes o →
        (rows.journalled (deriveEventId H cfg.settlementId o.event)).isSome ∨
          (rows.late[deriveEventId H cfg.settlementId o.event]?).isSome ∨ o.height < fromHeight
  | .policy tip =>
    ∀ rows evidence, s.db.settlements[cfg.settlementId]? = some rows →
      nextPolicyEvent H cfg s.memory rows tip = some (.RefundConfirmed evidence) →
        Revivable rows (envelopeFor H cfg (.RefundConfirmed evidence))
  | .effect _ => True

/-- The observation has a durable consequence, or is a refund held in memory. -/
def Held (rows : SettlementRows) (pendingRefunds : List EvidenceRefV1) (o : Observation) : Prop :=
  Recorded H cfg.settlementId rows o.event ∨ o.kind = .refund ∧ o.evidence ∈ pendingRefunds

/-- The condition on what happens next.  A change of the chain does not bring back, at or below one of the engine's
    positions, an observation whose consequence a reorg took away. -/
def World.Clear (w : World) : EngineAction → Prop
  | .chain view =>
    ∀ rows, w.db.settlements[cfg.settlementId]? = some rows →
      (∀ stored, rows.cursors[cfg.chainId]? = some stored → ∀ o, Due below view stored.cursorBytes o →
        ¬ Due below w.view stored.cursorBytes o → Recorded H cfg.settlementId rows o.event) ∧
      ∀ memory, w.status = .idle memory → ∀ o, Due below view memory.scanCursor.bytes o →
        ¬ Due below w.view memory.scanCursor.bytes o → Held H cfg rows memory.pendingRefunds o
  | .advance =>
    ∀ memory report label visited final next, w.status = .running memory report (.call label visited final next) →
      CallClear below H cfg w.view ⟨w.db, memory, report⟩ label
  | .crash transactions =>
    0 < transactions → ∀ memory report label visited final next,
      w.status = .running memory report (.call label visited final next) →
        CallClear below H cfg w.view ⟨w.db, memory, report⟩ label
  | _ => True

/-- The worlds reached by steps that meet the condition. -/
def ClearlyReachable : World → Prop :=
  Reach (World.Initial cfg) (fun w a => World.Allowed below cfg w a ∧ World.Clear below H cfg w a) (World.next H cfg)

end Runs

end DomProtocol
