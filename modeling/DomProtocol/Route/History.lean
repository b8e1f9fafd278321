import DomProtocol.Route.Outbox

/-!
# `Route.History` — what the store keeps over whole runs

The rows of a route tell one story: the journal replays to the stored snapshot, and the pending rows of the outbox are
the effects of its committed actions.  Every operation of the store keeps that (`Kept`), by whatever owner, with
whatever clock; what the claims hand out is then read off the rows.
-/

namespace DomProtocol.Route

open Lib

variable {d : RouteDecisionV1} {outcome : CommitOutcomeV1}

section History

variable (H : List UInt8 → Digest32) (routeId : Digest32)

/-- The hash the journal of a route starts from or has come to. -/
def lastHash (row : SnapshotRow) (journal : List JournalRow) : Digest32 :=
  journal.getLast?.elim (initialJournalHash H routeId row.initialSnapshotHash) (·.entryHash)

/-- **The rows of a route that was created.** -/
structure Kept (rows : RouteRows) (row : SnapshotRow) (initial s : RouteSnapshotV1) : Prop where
  snapshot : rows.snapshot = some row
  new : RouteSnapshotV1.new routeId = .ok initial
  initialBytes : initial.encodeCanonical = .ok row.initialSnapshotBytes
  initialHash : row.initialSnapshotHash = snapshotHash H row.initialSnapshotBytes
  bytes : s.encodeCanonical = .ok row.snapshotBytes
  hash : row.snapshotHash = snapshotHash H row.snapshotBytes
  route : s.routeId = routeId
  revision : row.revision = s.revision
  sequence : row.lastEventSeq = s.lastEventSequence
  ordered : rows.journal.Pairwise fun a b => a.sequence ≤ b.sequence
  bounded : ∀ entry ∈ rows.journal, entry.sequence ≤ s.lastEventSequence
  replay : ∃ entries, List.Forall₂ (fun row entry => journalEntry H row = .ok entry) rows.journal entries ∧
    entries.foldlM (replayEntry H routeId) (initial, initialJournalHash H routeId row.initialSnapshotHash) =
      .ok (s, lastHash H routeId row rows.journal)
  outbox : Matches H routeId (committedAt s) rows.outbox

def Good (rows : RouteRows) : Prop :=
  (rows.snapshot = none ∧ rows.journal = [] ∧ rows.outbox = []) ∨ ∃ row initial s, Kept H routeId rows row initial s

variable {H routeId} {rows rows' : RouteRows} {row : SnapshotRow} {initial s : RouteSnapshotV1}

/-! ## Reading the rows -/

variable (h : Kept H routeId rows row initial s)
include h

theorem Kept.current : validateSnapshotRow H routeId row = .ok s := by
  simp only [validateSnapshotRow, coded, inversion, not_or, Decidable.not_not]
  exact ⟨h.hash, s, RouteSnapshotV1.decode_encode h.bytes, ⟨h.route, h.revision.symm, h.sequence.symm⟩, rfl⟩

theorem Kept.load : loadSnapshot H routeId rows = .ok s := by
  rw [loadSnapshot, h.snapshot]
  exact h.current

theorem Kept.journalInOrder : journalInOrder rows = rows.journal :=
  h.ordered.insertionSort_eq

theorem Kept.previous : previousEntryHash H routeId rows = .ok (lastHash H routeId row rows.journal) := by
  rw [previousEntryHash, h.journalInOrder, h.snapshot, lastHash]
  cases rows.journal.getLast? <;> rfl

/-- **Replaying the journal from the initial snapshot gives the stored snapshot.** -/
theorem Kept.verifyReplay : verifyReplay H routeId rows = .ok s := by
  obtain ⟨entries, hens, hrpl⟩ := h.replay
  have hjour : journal H rows = .ok entries := by
    rw [journal, h.journalInOrder]
    exact mapM_eq_ok.mpr hens
  obtain ⟨hid, hnew⟩ := new_eq_ok h.new
  rw [h.initialHash] at hrpl
  simp only [Route.verifyReplay, coded, h.snapshot, inversion, Decidable.not_not, not_or]
  refine ⟨row, rfl, h.initialHash, initial, RouteSnapshotV1.decode_encode h.initialBytes, ?_, entries, hjour, _,
    hrpl, s, h.load, rfl, rfl⟩
  rw [hnew]
  exact ⟨rfl, rfl⟩

/-! ## Operations that leave the story alone -/

theorem Kept.congr (hsnap : rows'.snapshot = rows.snapshot)
    (hjour : rows'.journal = rows.journal) (hobx : Matches H routeId (committedAt s) rows'.outbox) :
    Kept H routeId rows' row initial s where
  snapshot := hsnap.trans h.snapshot
  new := h.new
  initialBytes := h.initialBytes
  initialHash := h.initialHash
  bytes := h.bytes
  hash := h.hash
  route := h.route
  revision := h.revision
  sequence := h.sequence
  ordered := by rw [hjour]; exact h.ordered
  bounded := by rw [hjour]; exact h.bounded
  replay := by rw [hjour]; exact h.replay
  outbox := hobx

omit h

theorem Good.congr (h : Good H routeId rows) (hsnap : rows'.snapshot = rows.snapshot)
    (hjour : rows'.journal = rows.journal) (hobx : rows'.outbox = rows.outbox) : Good H routeId rows' := by
  rcases h with ⟨hnone, hemp, hnothing⟩ | ⟨row, initial, s, hkept⟩
  · exact .inl ⟨hsnap.trans hnone, hjour.trans hemp, hobx.trans hnothing⟩
  · exact .inr ⟨row, initial, s, hkept.congr hsnap hjour (by rw [hobx]; exact hkept.outbox)⟩

/-! ## Creation and events -/

variable {now : UInt64}

theorem Good.create {created : RouteSnapshotV1} (h : Good H routeId rows)
    (hcr : createRoute H routeId now rows = .ok (created, rows')) : Good H routeId rows' := by
  simp only [createRoute, coded, toSqlU64, inversion, Prod.mk.injEq, Bool.not_eq_true, Option.isSome_eq_false_iff,
    Option.isNone_iff_eq_none] at hcr
  obtain ⟨initial, hnew, bytes, hbyt, -, hnone, -, rfl⟩ := hcr
  rcases h with ⟨-, hjour, hobx⟩ | ⟨row, _, _, hkept⟩
  · obtain ⟨-, rfl⟩ := new_eq_ok hnew
    refine .inr ⟨_, _, _, ⟨rfl, hnew, hbyt, rfl, hbyt, rfl, rfl, rfl, rfl, ?_, ?_, ?_, ?_⟩⟩
    · rw [hjour]
      exact List.Pairwise.nil
    · rw [hjour]
      exact fun _ hentry => (List.not_mem_nil hentry).elim
    · refine ⟨[], ?_, ?_⟩ <;> rw [hjour]
      · exact List.Forall₂.nil
      · rfl
    · have hslots : committedAt ⟨routeId, 0, .Negotiating, .idle, .idle, .Private, .Running, none, none, false, 0, 0⟩ =
          fun _ _ => none := by
        funext leg kind
        cases leg <;> cases kind <;> rfl
      rw [hobx, hslots]
      exact matches_empty
  · rw [hkept.snapshot] at hnone
    cases hnone

variable {eventId : Digest32} {event : RouteEventV1}

theorem sequence_step {epoch : UInt64} (h : reduceRoute H s eventId event epoch = .ok d) :
    d.snapshot.lastEventSequence.toNat = s.lastEventSequence.toNat + 1 := by
  obtain ⟨hval, hval', -⟩ := accepted h
  rw [← hval'.sequence, ← hval.sequence]
  exact revision_step h

variable {lease : RouteLeaseV1} {eventBytes : List UInt8}

theorem replayEntry_of_commit {bytes : List UInt8} {last : Digest32}
    (hev : event.encodeCanonical H = .ok eventBytes) (hd : reduceRoute H s eventId event lease.fencingEpoch = .ok d)
    (hbyt : d.snapshot.encodeCanonical = .ok bytes) {entry : RouteJournalEntryV1}
    (hentry : journalEntry H (journalRow H lease s.revision eventId eventBytes last d.snapshot (snapshotHash H bytes)) =
      .ok entry) : replayEntry H lease.routeId (s, last) entry = .ok (d.snapshot, entry.entryHash) := by
  simp only [journalEntry, journalRow, coded, inversion, RouteEventV1.decode_encode hev, Except.ok.injEq] at hentry
  obtain ⟨-, decoded, rfl, rfl⟩ := hentry
  simp only [replayEntry, coded, reduced, inversion, not_or, Decidable.not_not]
  refine ⟨⟨?_, trivial, trivial⟩, eventBytes, hev, d, hd, bytes, hbyt, ⟨rfl, rfl, rfl⟩, rfl⟩
  have hnext := sequence_step hd
  have hbd : d.snapshot.lastEventSequence.toNat < 2 ^ 64 := d.snapshot.lastEventSequence.toNat_lt
  apply UInt64.toNat_inj.mp
  rw [UInt64.toNat_add, hnext, UInt64.toNat_one, Nat.mod_eq_of_lt (by omega)]

theorem journalEntry_journalRow {revision : UInt64} {previous hash : Digest32} {next : RouteSnapshotV1}
    (hev : event.encodeCanonical H = .ok eventBytes) :
    ∃ entry, journalEntry H (journalRow H lease revision eventId eventBytes previous next hash) = .ok entry ∧
      entry.entryHash = (journalRow H lease revision eventId eventBytes previous next hash).entryHash := by
  simp only [journalEntry, coded, inversion, Decidable.not_not]
  exact ⟨_, ⟨rfl, event, RouteEventV1.decode_encode hev, rfl⟩, rfl⟩

theorem lastHash_append {row : SnapshotRow} {journal : List JournalRow} {entry : JournalRow} :
    lastHash H routeId row (journal ++ [entry]) = entry.entryHash := by
  rw [lastHash, List.getLast?_concat, Option.elim_some]

/-- **A new event** is journaled after the others, and its write set keeps the outbox and the snapshot together. -/
theorem Kept.commit {expectedRevision : UInt64}
    (h : Kept H lease.routeId rows row initial s) (hev : event.encodeCanonical H = .ok eventBytes)
    (hcmt : commitEvent H lease expectedRevision eventId event eventBytes now rows = .ok (outcome, rows')) :
    ∃ row' s', Kept H lease.routeId rows' row' initial s' := by
  simp only [commitEvent, coded, reduced, insertJournal, inversion, h.snapshot, Option.some.injEq,
    Prod.mk.injEq] at hcmt
  obtain ⟨_, rfl, current, hcur, hrev, d, hd, bytes, hbyt, previous, hprv, _, ⟨-, -, -, -, -, rfl⟩, -,
    superseded, hsup, inserted, hinst, outbox, hrep, timers, -, -, rfl⟩ := hcmt
  obtain rfl := Except.ok.inj (h.current.symm.trans hcur)
  obtain rfl := Except.ok.inj (h.previous.symm.trans hprv)
  obtain rfl := Decidable.not_not.mp hrev
  obtain ⟨entries, hens, hrpl⟩ := h.replay
  obtain ⟨entry, hentry, hhash⟩ := journalEntry_journalRow (H := H) hev
  have hnext := sequence_step hd
  refine ⟨_, d.snapshot, ⟨rfl, h.new, h.initialBytes, h.initialHash, hbyt, rfl, (frame_step hd).routeId.trans h.route, rfl,
    rfl, ?_, ?_, ⟨entries ++ [entry], ?_, ?_⟩, h.outbox.step h.route hd hsup hinst hrep⟩⟩
  · refine List.pairwise_append.mpr ⟨h.ordered, List.pairwise_singleton .., ?_⟩
    intro old hold new hnew
    obtain rfl := List.mem_singleton.mp hnew
    have hbd := UInt64.le_iff_toNat_le.mp (h.bounded old hold)
    exact UInt64.le_iff_toNat_le.mpr (by show _ ≤ d.snapshot.lastEventSequence.toNat; omega)
  · intro old hold
    rcases List.mem_append.mp hold with hold | hold
    · have hbd := UInt64.le_iff_toNat_le.mp (h.bounded old hold)
      exact UInt64.le_iff_toNat_le.mpr (by omega)
    · obtain rfl := List.mem_singleton.mp hold
      exact UInt64.le_refl _
  · exact List.rel_append hens (.cons hentry .nil)
  · rw [List.foldlM_append, hrpl, lastHash_append, ← hhash]
    simp only [ok_bind, List.foldlM_cons, List.foldlM_nil, replayEntry_of_commit hev hd hbyt hentry]
    rfl

theorem Kept.duplicate {stored : JournalRow}
    (h : Kept H lease.routeId rows row initial s)
    (hdup : duplicateEvent H lease event eventBytes now stored rows = .ok (outcome, rows')) :
    Kept H lease.routeId rows' row initial s := by
  simp only [duplicateEvent, inversion] at hdup
  replace hdup := hdup.2
  cases event with
  | CustodyProgressRecorded leg kind effectId evidence exposure =>
    simp only [inversion, Prod.mk.injEq] at hdup
    obtain ⟨outbox, hpg, -, rfl⟩ := hdup
    exact h.congr rfl rfl (h.outbox.progress hpg)
  | _ =>
    cases hdup
    exact h

end History

end DomProtocol.Route
