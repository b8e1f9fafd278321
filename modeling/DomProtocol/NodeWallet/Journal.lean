import DomProtocol.Crypto.Primitives
import DomProtocol.Lib.Reach
import DomProtocol.Lib.Table

/-!
# `NodeWallet.Journal` — the node wallet's append-only journal

Every event of a transaction is one line of JSON at the end of a file.  `append` does not look at what the file ends with, and
`replay` skips a line it cannot parse: after a torn write the next entry shares its line with the torn one.  Where nothing is
written behind a torn line, no acknowledged entry is lost.
-/

namespace DomProtocol.NodeWallet

open Lib

variable {l : List UInt8}

/-! ## Entries -/

structure PendingChange where
  commitment : Commitment
  value : UInt64
  blinding : BitVec 256
  deriving DecidableEq

/-- Lifecycle events.  `Text` is the type of hex strings, `Change` says what is recorded of the change: its material, or on the
    wire a hex string. -/
inductive TxJournalEvent (Text Change : Type) where
  | Built (inputs : List Commitment) (txHex : Option Text) (outputCount : UInt32) (feeNoms : UInt64) (change : Option Change)
  | Submitted
  | Confirmed (blockHeight : UInt64)
  | Failed (reason : String)
  | Replaced (byTxHash : Hash256)
  | Canceled
  | Reorged (reorgHeight : UInt64)
  | ReceiveConfirmed (commitment : Commitment) (amount blockHeight : UInt64) (blockHash : Option Hash256)
      (sourceSlateHash : Hash256)

structure JournalEntry (Text Change : Type) where
  timestamp : UInt64
  txHash : Hash256
  event : TxJournalEvent Text Change

structure JournalEntryWire (Text : Type) where
  entry : JournalEntry Text Text
  mac : Option Text

inductive TxStatus where
  | Building
  | Submitted
  | Confirmed (blockHeight : UInt64)
  | Received (commitment : Commitment) (amount blockHeight : UInt64) (blockHash : Option Hash256) (sourceSlateHash : Hash256)
  | Failed (reason : String)
  | Replaced (byTxHash : Hash256)
  | Canceled
  deriving DecidableEq

def TxStatus.isTerminal : TxStatus → Bool
  | .Confirmed _ | .Received .. | .Replaced _ | .Canceled => true
  | _ => false

structure TxRecord where
  txHash : Hash256
  status : TxStatus
  inputs : List Commitment
  txBytes : List UInt8
  feeNoms : UInt64
  change : Option PendingChange
  createdAt : UInt64
  lastUpdatedAt : UInt64
  deriving DecidableEq

abbrev Records := Table Hash256 TxRecord

/-! ## Applying entries -/

/-- Move a record along if it is not terminal and the event is valid for its status. -/
def transition (map : Records) (txHash : Hash256) (ts : UInt64) (next : TxStatus → Option TxStatus) : Records :=
  match map[txHash]? with
  | none => map
  | some record =>
    if record.status.isTerminal then map
    else
      match next record.status with
      | none => map
      | some status => map.insert txHash { record with status := status, lastUpdatedAt := ts }

/-- Take a confirmation above the reorg's height back. -/
def applyReorged (map : Records) (txHash : Hash256) (ts : UInt64) (reorgHeight : UInt64) : Records :=
  match map[txHash]? with
  | none => map
  | some record =>
    match record.status with
    | .Confirmed blockHeight =>
      if blockHeight ≤ reorgHeight then map
      else map.insert txHash { record with status := .Building, lastUpdatedAt := ts }
    | _ => map

/-- What is linked: JSON for entries and for change material, hex, the cipher and the MAC under the wallet's keys. -/
structure JournalLibraries where
  Text : Type
  hexEncode : List UInt8 → Text
  hexDecode : Text → Option (List UInt8)
  toVec : JournalEntryWire Text → List UInt8
  fromStr : List UInt8 → Option (JournalEntryWire Text)
  changeToVec : PendingChange → List UInt8
  changeFromSlice : List UInt8 → Option PendingChange
  encrypt : List UInt8 → List UInt8 → List UInt8
  decrypt : List UInt8 → List UInt8 → Option (List UInt8)
  hmac : List UInt8 → List UInt8

section Journal

variable (L : JournalLibraries)

def applyEntry (map : Records) (entry : JournalEntry L.Text PendingChange) : Records :=
  match entry.event with
  | .Built inputs txHex _ feeNoms change =>
    if map[entry.txHash]?.isSome then map
    else map.insert entry.txHash ⟨entry.txHash, .Building, inputs, (txHex.bind L.hexDecode).getD [], feeNoms, change,
      entry.timestamp, entry.timestamp⟩
  | .Submitted => transition map entry.txHash entry.timestamp fun
      | .Building => some .Submitted
      | _ => none
  | .Confirmed blockHeight => transition map entry.txHash entry.timestamp fun
      | .Submitted | .Building => some (.Confirmed blockHeight)
      | _ => none
  | .Failed reason => transition map entry.txHash entry.timestamp fun
      | .Submitted | .Building => some (.Failed reason)
      | _ => none
  | .Replaced byTxHash => transition map entry.txHash entry.timestamp fun
      | .Building | .Submitted | .Failed _ => some (.Replaced byTxHash)
      | _ => none
  | .Canceled => transition map entry.txHash entry.timestamp fun
      | .Building | .Submitted | .Failed _ => some .Canceled
      | _ => none
  | .Reorged reorgHeight => applyReorged map entry.txHash entry.timestamp reorgHeight
  | .ReceiveConfirmed commitment amount blockHeight blockHash sourceSlateHash =>
    if map[entry.txHash]?.isSome then map
    else map.insert entry.txHash ⟨entry.txHash, .Received commitment amount blockHeight blockHash sourceSlateHash, [], [], 0,
      none, entry.timestamp, entry.timestamp⟩

/-! ## Lines -/

/-- An open journal: with its keys, or plain. -/
structure TxJournal where
  authenticated : Bool

def journalNonceLen : Nat := 12

def TxJournal.encodeChange (J : TxJournal) (nonce : List UInt8) (change : PendingChange) : L.Text :=
  if J.authenticated then L.hexEncode (nonce ++ L.encrypt nonce (L.changeToVec change)) else L.hexEncode (L.changeToVec change)

def TxJournal.decodeChange (J : TxJournal) (change : L.Text) : Option PendingChange := do
  let bytes ← L.hexDecode change
  let plaintext ← if J.authenticated then
      if bytes.length < journalNonceLen + 16 then none
      else L.decrypt (bytes.take journalNonceLen) (bytes.drop journalNonceLen)
    else some bytes
  L.changeFromSlice plaintext

/-- Rewrite what an event says about the change. -/
def TxJournalEvent.mapChange {T α β : Type} (f : α → Option β) : TxJournalEvent T α → Option (TxJournalEvent T β)
  | .Built inputs txHex outputCount feeNoms none => some (.Built inputs txHex outputCount feeNoms none)
  | .Built inputs txHex outputCount feeNoms (some change) =>
    (f change).map fun change => .Built inputs txHex outputCount feeNoms (some change)
  | .Submitted => some .Submitted
  | .Confirmed blockHeight => some (.Confirmed blockHeight)
  | .Failed reason => some (.Failed reason)
  | .Replaced byTxHash => some (.Replaced byTxHash)
  | .Canceled => some .Canceled
  | .Reorged reorgHeight => some (.Reorged reorgHeight)
  | .ReceiveConfirmed commitment amount blockHeight blockHash sourceSlateHash =>
    some (.ReceiveConfirmed commitment amount blockHeight blockHash sourceSlateHash)

def TxJournal.macHex (entry : JournalEntry L.Text L.Text) : L.Text := L.hexEncode (L.hmac (L.toVec ⟨entry, none⟩))

def TxJournal.toWire (J : TxJournal) (nonce : List UInt8) (entry : JournalEntry L.Text PendingChange) :
    Option (JournalEntryWire L.Text) := do
  let event ← entry.event.mapChange fun change => some (J.encodeChange L nonce change)
  let wire : JournalEntry L.Text L.Text := ⟨entry.timestamp, entry.txHash, event⟩
  return ⟨wire, if J.authenticated then some (macHex L wire) else none⟩

def TxJournal.decodeWire (J : TxJournal) (wire : JournalEntryWire L.Text) : Option (JournalEntry L.Text PendingChange) := do
  if J.authenticated then
    let expected ← L.hexDecode (← wire.mac)
    guard (L.hmac (L.toVec ⟨wire.entry, none⟩) = expected)
  let event ← wire.entry.event.mapChange (J.decodeChange L)
  return ⟨wire.entry.timestamp, wire.entry.txHash, event⟩

def TxJournal.line (J : TxJournal) (nonce : List UInt8) (entry : JournalEntry L.Text PendingChange) : List UInt8 :=
  ((J.toWire L nonce entry).map L.toVec).getD []

/-- The lines of a file, each without its end. -/
def lines : List UInt8 → List (List UInt8)
  | [] => []
  | 13 :: 10 :: rest => [] :: lines rest
  | b :: rest =>
    if b = 10 then [] :: lines rest
    else
      match lines rest with
      | [] => [[b]]
      | l :: ls => (b :: l) :: ls

def TxJournal.parse (J : TxJournal) (raw : List UInt8) : Option (JournalEntry L.Text PendingChange) :=
  (L.fromStr raw).bind (J.decodeWire L)

def isUtf8 (raw : List UInt8) : Bool := ByteArray.validateUTF8 ⟨raw.toArray⟩

def TxJournal.replayLines (J : TxJournal) (map : Records) : List (List UInt8) → Records
  | [] => map
  | raw :: rest =>
    -- the reader fails on bytes that are no text, and the replay ends there
    if isUtf8 raw = false then map
    else replayLines J (((J.parse L raw).map (applyEntry L map)).getD map) rest

def TxJournal.replay (J : TxJournal) (file : List UInt8) : Records := J.replayLines L ∅ (lines file)

/-! ## Runs -/

/-- An append that returned, or one that was cut off after some bytes reached the file. -/
inductive JournalAction where
  | append (nonce : List UInt8) (entry : JournalEntry L.Text PendingChange)
  | cutOff (nonce : List UInt8) (entry : JournalEntry L.Text PendingChange) (written : Nat)

def TxJournal.next (J : TxJournal) (file : List UInt8) : JournalAction L → List UInt8
  | .append nonce entry => file ++ (J.line L nonce entry ++ [10])
  | .cutOff nonce entry written => file ++ (J.line L nonce entry ++ [10]).take written

/-- The entries a replay may show: all that were acknowledged, and some of those that were cut off behind their last brace. -/
inductive TxJournal.Survives (J : TxJournal) : List (JournalAction L) → List (JournalEntry L.Text PendingChange) → Prop where
  | nil : Survives J [] []
  | acknowledged {past entries} (nonce entry) (h : Survives J past entries) :
      Survives J (.append nonce entry :: past) (entries ++ [entry])
  | complete {past entries} (nonce entry) {written : Nat} (h : Survives J past entries)
      (hlen : (J.line L nonce entry).length ≤ written) : Survives J (.cutOff nonce entry written :: past) (entries ++ [entry])
  | lost {past entries} (nonce entry) (written : Nat) (h : Survives J past entries) :
      Survives J (.cutOff nonce entry written :: past) entries

def Whole (file : List UInt8) : Prop := ∀ b, file.getLast? = some b → b = 10

instance (file : List UInt8) : Decidable (Whole file) :=
  decidable_of_iff (file.getLast?.all (· = 10)) (by cases h : file.getLast? <;> simp [Whole, h])

/-- Nothing is written behind a torn line. -/
def BehindWhole (file : List UInt8) : JournalAction L → Prop
  | .append .. => Whole file
  | .cutOff _ _ written => written = 0 ∨ Whole file

/-- The assumptions on the linked libraries. -/
structure JournalLibraries.Lawful : Prop where
  hex : ∀ bytes, L.hexDecode (L.hexEncode bytes) = some bytes
  cipher : ∀ nonce bytes, L.decrypt nonce (L.encrypt nonce bytes) = some bytes
  tag : ∀ nonce bytes, 16 ≤ (L.encrypt nonce bytes).length

/-- The JSON of an entry: one line of text that is read back, and no shorter piece of it is. -/
structure TxJournal.Legible (J : TxJournal) (nonce : List UInt8) (entry : JournalEntry L.Text PendingChange) : Prop where
  nonceLen : nonce.length = journalNonceLen
  json : ∀ wire, J.toWire L nonce entry = some wire → L.fromStr (L.toVec wire) = some wire
  change : ∀ inputs txHex count fee change, entry.event = .Built inputs txHex count fee (some change) →
    L.changeFromSlice (L.changeToVec change) = some change
  oneLine : ∀ b ∈ J.line L nonce entry, b ≠ 10 ∧ b ≠ 13
  utf8 : isUtf8 (J.line L nonce entry) = true
  torn : ∀ piece, piece <+: J.line L nonce entry → piece ≠ J.line L nonce entry → L.fromStr piece = none

def JournalAction.Legible (J : TxJournal) : JournalAction L → Prop
  | .append nonce entry => J.Legible L nonce entry
  | .cutOff nonce entry _ => J.Legible L nonce entry

variable {L}

theorem lines_line (h : ∀ b ∈ l, b ≠ 10 ∧ b ≠ 13) (rest : List UInt8) :
    lines (l ++ 10 :: rest) = l :: lines rest := by
  induction l with
  | nil => simp [lines]
  | cons b l ih =>
    obtain ⟨⟨h10, h13⟩, hl⟩ := List.forall_mem_cons.mp h
    rw [List.cons_append, lines, if_neg h10, ih hl]
    exact fun _ hcr _ => h13 hcr

theorem lines_piece (h : ∀ b ∈ l, b ≠ 10 ∧ b ≠ 13) (hne : l ≠ []) : lines l = [l] := by
  induction l with
  | nil => exact absurd rfl hne
  | cons b l ih =>
    obtain ⟨⟨h10, h13⟩, hl⟩ := List.forall_mem_cons.mp h
    rw [lines, if_neg h10]
    · cases l with
      | nil => rfl
      | cons c l => rw [ih hl (List.cons_ne_nil c l)]
    · exact fun _ hcr _ => h13 hcr

theorem lines_ne_nil (h : l ≠ []) : lines l ≠ [] := by
  fun_induction lines l with
  | case1 => exact absurd rfl h
  | case2 | case3 | case4 | case5 => exact List.cons_ne_nil _ _

theorem Whole.tail {b : UInt8} (h : Whole (b :: l)) : Whole l := by
  intro c hc
  apply h
  rw [List.getLast?_cons, hc]
  rfl

theorem lines_append {file : List UInt8} (h : Whole file) (rest : List UInt8) :
    lines (file ++ rest) = lines file ++ lines rest := by
  fun_induction lines file with
  | case1 => rfl
  | case2 l ih => rw [List.cons_append, List.cons_append, lines, ih h.tail.tail, List.cons_append]
  | case3 l hcr ih =>
    rw [List.cons_append, lines, if_pos rfl, ih h.tail, List.cons_append]
    exact fun _ hcase _ => by cases hcase
  | case4 b l hcr hb hnil ih =>
    -- a byte that ends the file is the end of a line
    refine absurd (h b ?_) hb
    rw [Decidable.not_not.mp fun hne => lines_ne_nil hne hnil]
    rfl
  | case5 b l hcr hb first others hcons ih =>
    rw [List.cons_append, lines, if_neg hb, ih h.tail, hcons]
    · rfl
    · intro rest' h13 hrest
      cases l with
      | nil => cases hcons
      | cons c l =>
        obtain ⟨rfl, -⟩ := List.cons.inj hrest
        exact hcr l h13 rfl

variable {J : TxJournal} {nonce : List UInt8} {entry : JournalEntry L.Text PendingChange}

theorem decodeChange_encodeChange (hL : L.Lawful) (hnon : nonce.length = journalNonceLen) {change : PendingChange}
    (h : L.changeFromSlice (L.changeToVec change) = some change) :
    J.decodeChange L (J.encodeChange L nonce change) = some change := by
  unfold TxJournal.decodeChange TxJournal.encodeChange
  cases J.authenticated with
  | false => simp [hL.hex, h]
  | true =>
    simp [hL.hex, ← hnon, hL.tag, hL.cipher, h]

/-- **An entry is read back from its line.** -/
theorem parse_line (hL : L.Lawful) (h : J.Legible L nonce entry) : J.parse L (J.line L nonce entry) = some entry := by
  obtain ⟨timestamp, txHash, event⟩ := entry
  -- the change goes to the wire and comes back
  have hev : ∃ wired, event.mapChange (fun change => some (J.encodeChange L nonce change)) = some wired ∧
      wired.mapChange (J.decodeChange L) = some event := by
    cases event with
    | Built inputs txHex count fee change =>
      cases change with
      | none => exact ⟨_, rfl, rfl⟩
      | some change =>
        refine ⟨_, rfl, ?_⟩
        show (J.decodeChange L (J.encodeChange L nonce change)).map _ = _
        rw [decodeChange_encodeChange hL h.nonceLen (h.change _ _ _ _ _ rfl)]
        rfl
    | _ => exact ⟨_, rfl, rfl⟩
  obtain ⟨wired, hwired, hback⟩ := hev
  have hwire : J.toWire L nonce ⟨timestamp, txHash, event⟩ = some ⟨⟨timestamp, txHash, wired⟩,
      if J.authenticated then some (TxJournal.macHex L ⟨timestamp, txHash, wired⟩) else none⟩ := by
    simp [TxJournal.toWire, hwired]
  rw [TxJournal.parse, TxJournal.line, hwire]
  show (L.fromStr (L.toVec _)).bind (J.decodeWire L) = _
  rw [h.json _ hwire]
  show J.decodeWire L _ = _
  unfold TxJournal.decodeWire
  cases J.authenticated <;> simp [TxJournal.macHex, hL.hex, hback]

/-! ## What a replay shows -/

theorem replayLines_append {ls : List (List UInt8)} (h : ∀ raw ∈ ls, isUtf8 raw = true) (map : Records)
    (rest : List (List UInt8)) :
    J.replayLines L map (ls ++ rest) = J.replayLines L (J.replayLines L map ls) rest := by
  induction ls generalizing map with
  | nil => rfl
  | cons raw ls ih =>
    obtain ⟨hraw, hls⟩ := List.forall_mem_cons.mp h
    simp only [List.cons_append, TxJournal.replayLines, hraw, Bool.true_eq_false, if_false]
    exact ih hls _

/-- A file of whole lines, and the entries they show. -/
structure TxJournal.Shows (J : TxJournal) (file : List UInt8) (entries : List (JournalEntry L.Text PendingChange)) : Prop where
  whole : Whole file
  utf8 : ∀ raw ∈ lines file, isUtf8 raw = true
  replay : J.replay L file = entries.foldl (applyEntry L) ∅

variable {file : List UInt8} {entries : List (JournalEntry L.Text PendingChange)}

theorem TxJournal.Shows.append (hL : L.Lawful) (h : J.Shows file entries) (hleg : J.Legible L nonce entry) :
    J.Shows (file ++ (J.line L nonce entry ++ [10])) (entries ++ [entry]) := by
  have hline : lines (J.line L nonce entry ++ [10]) = [J.line L nonce entry] := lines_line hleg.oneLine []
  have hlines : lines (file ++ (J.line L nonce entry ++ [10])) = lines file ++ [J.line L nonce entry] := by
    rw [lines_append h.whole, hline]
  refine ⟨?_, ?_, ?_⟩
  · intro b hb
    rw [← List.append_assoc, List.getLast?_concat] at hb
    exact (Option.some.inj hb).symm
  · rw [hlines]
    exact List.forall_mem_append.mpr ⟨h.utf8, List.forall_mem_singleton.mpr hleg.utf8⟩
  · have hrpl := h.replay
    unfold TxJournal.replay at hrpl ⊢
    rw [hlines, replayLines_append h.utf8, hrpl, List.foldl_append]
    simp [TxJournal.replayLines, hleg.utf8, parse_line hL hleg]

theorem TxJournal.Shows.replay_piece (hL : L.Lawful) (h : J.Shows file entries) (hleg : J.Legible L nonce entry)
    {piece : List UInt8} (hpiece : piece <+: J.line L nonce entry) (hne : piece ≠ []) :
    J.replay L (file ++ piece) =
      (entries ++ if piece = J.line L nonce entry then [entry] else []).foldl (applyEntry L) ∅ := by
  have hlines : lines (file ++ piece) = lines file ++ [piece] := by
    rw [lines_append h.whole, lines_piece (fun b hb => hleg.oneLine b (hpiece.subset hb)) hne]
  have hrpl := h.replay
  unfold TxJournal.replay at hrpl ⊢
  rw [hlines, replayLines_append h.utf8, hrpl, List.foldl_append]
  by_cases hall : piece = J.line L nonce entry
  · simp [TxJournal.replayLines, hall, hleg.utf8, parse_line hL hleg]
  · simp [TxJournal.replayLines, hall, TxJournal.parse, hleg.torn piece hpiece hall]

/-- The file shows what survives of the appends: it is a list of whole lines, or ends with a torn one. -/
def TxJournal.Keeps (J : TxJournal) (past : List (JournalAction L)) (file : List UInt8) : Prop :=
  ∃ entries, J.Survives L past entries ∧
    (J.Shows file entries ∨ ¬ Whole file ∧ J.replay L file = entries.foldl (applyEntry L) ∅)

theorem TxJournal.Keeps.next (hL : L.Lawful) {past : List (JournalAction L)} (h : J.Keeps past file) {a : JournalAction L}
    (hgd : BehindWhole L file a) (hleg : a.Legible L J) : J.Keeps (a :: past) (J.next L file a) := by
  obtain ⟨entries, hsurv, hkps⟩ := h
  cases a with
  | append nonce entry =>
    have hshows := hkps.resolve_right fun hkps => hkps.1 hgd
    exact ⟨_, .acknowledged nonce entry hsurv, .inl (hshows.append hL hleg)⟩
  | cutOff nonce entry written =>
    show J.Keeps _ (file ++ (J.line L nonce entry ++ [10]).take written)
    by_cases hzero : written = 0
    · rw [hzero, List.take_zero, List.append_nil]
      exact ⟨entries, .lost nonce entry 0 hsurv, hkps⟩
    have hshows := hkps.resolve_right fun hkps => hkps.1 (hgd.resolve_left hzero)
    by_cases hlen : written ≤ (J.line L nonce entry).length
    · rw [List.take_append_of_le_length hlen]
      have hpiece := List.take_prefix written (J.line L nonce entry)
      have hne : (J.line L nonce entry).take written ≠ [] := by
        rw [← List.length_pos_iff, List.length_take]
        omega
      refine ⟨_, ?_, .inr ⟨fun hwh => ?_, hshows.replay_piece hL hleg hpiece hne⟩⟩
      · split
        · rename_i hall
          refine .complete nonce entry hsurv ?_
          rw [← hall, List.length_take]
          omega
        · rw [List.append_nil]
          exact .lost nonce entry written hsurv
      · -- the last byte of the piece is no line end
        have hlast := List.getLast?_eq_some_getLast hne
        refine (hleg.oneLine _ (hpiece.subset (List.getLast_mem hne))).1 (hwh _ ?_)
        rw [List.getLast?_append, hlast]
        rfl
    · have hall : (J.line L nonce entry ++ [10]).take written = J.line L nonce entry ++ [10] := by
        apply List.take_of_length_le
        rw [List.length_append, List.length_singleton]
        omega
      rw [hall]
      exact ⟨_, .complete nonce entry hsurv (by omega), .inl (hshows.append hL hleg)⟩

/-- **Durability.**  Where nothing is written behind a torn line, a replay shows every acknowledged entry, perhaps entries that
    were cut off behind their last brace, and nothing else, in order. -/
theorem replay_survives (hL : L.Lawful) {r : Lib.Recorded (List UInt8) (JournalAction L)}
    (hrun : Lib.Recorded.Run (· = []) (BehindWhole L) (J.next L) r) (hlegible : ∀ t ∈ r.history, t.action.Legible L J) :
    ∃ entries, J.Survives L (r.history.map (·.action)) entries ∧ J.replay L r.state = entries.foldl (applyEntry L) ∅ := by
  have hkeeps := Reach.invariant (P := fun r => (∀ t ∈ r.history, t.action.Legible L J) →
    J.Keeps (r.history.map (·.action)) r.state) ?_ ?_ hrun
  · obtain ⟨entries, hsurvives, hshows⟩ := hkeeps hlegible
    exact ⟨entries, hsurvives, hshows.elim (·.replay) (·.2)⟩
  · rintro r ⟨hstart, hhistory⟩ -
    rw [hhistory, hstart]
    exact ⟨[], .nil, .inl ⟨fun b hb => (by cases hb), fun raw hraw => (List.not_mem_nil hraw).elim, rfl⟩⟩
  · intro r a ih hguard hlegible
    obtain ⟨hlast, hbefore⟩ := List.forall_mem_cons.mp hlegible
    exact (ih hbefore).next hL hguard hlast

end Journal

/-! ## A small journal -/

namespace SmallJournal

abbrev Entry := JournalEntry (List UInt8) PendingChange

def built : Entry := ⟨1, 7, .Built [] none 1 0 none⟩

def submitted : Entry := ⟨2, 7, .Submitted⟩

/-- One letter for each of the two entries, in braces. -/
def libraries : JournalLibraries where
  Text := List UInt8
  hexEncode bytes := bytes
  hexDecode text := some text
  toVec wire :=
    match wire.entry.event with
    | .Built .. => [123, 66, 125]
    | _ => [123, 83, 125]
  fromStr raw :=
    if raw = [123, 66, 125] then some ⟨⟨1, 7, .Built [] none 1 0 none⟩, none⟩
    else if raw = [123, 83, 125] then some ⟨⟨2, 7, .Submitted⟩, none⟩
    else none
  changeToVec _ := []
  changeFromSlice _ := none
  encrypt _ bytes := bytes ++ List.replicate 16 0
  decrypt _ bytes := some (bytes.take (bytes.length - 16))
  hmac bytes := bytes

def plain : TxJournal := ⟨false⟩

def nonce : List UInt8 := List.replicate journalNonceLen 0

def run (actions : List (JournalAction libraries)) : Lib.Recorded (List UInt8) (JournalAction libraries) :=
  actions.foldl (Lib.Recorded.record (plain.next libraries)) ⟨[], []⟩

theorem lawful : libraries.Lawful where
  hex _ := rfl
  cipher _ bytes := by simp [libraries]
  tag _ bytes := by simp [libraries]

theorem legible {entry : Entry} (h : entry = built ∨ entry = submitted) : plain.Legible libraries nonce entry := by
  have hpcs : ∀ b : UInt8, ∀ piece : List UInt8, piece <+: [123, b, 125] → piece ≠ [123, b, 125] →
      libraries.fromStr piece = none := by
    intro b piece hpiece hne
    have hlen : piece.length ≠ 3 := fun hlen => hne (hpiece.eq_of_length hlen)
    show (if piece = [123, 66, 125] then _ else if piece = [123, 83, 125] then _ else none) = none
    rw [if_neg, if_neg] <;> rintro rfl <;> exact hlen rfl
  rcases h with rfl | rfl <;>
    exact ⟨rfl, fun wire hwire => by cases hwire; rfl, fun _ _ _ _ _ h => (by cases h), by decide +kernel,
      by decide +kernel, hpcs _⟩

/-- A submission is cut off after one byte; the next build is acknowledged and no replay shows it. -/
theorem acknowledged_entry_lost : ∃ r, Lib.Recorded.Run (· = []) (fun _ _ => True) (plain.next libraries) r ∧
    libraries.Lawful ∧ (∀ t ∈ r.history, t.action.Legible libraries plain) ∧
    r.history.map (·.action) = [.append nonce built, .cutOff nonce submitted 1] ∧
    ∀ entries, plain.Survives libraries (r.history.map (·.action)) entries →
      plain.replay libraries r.state ≠ entries.foldl (applyEntry libraries) ∅ := by
  refine ⟨run [.cutOff nonce submitted 1, .append nonce built], ?_, lawful, ?_, rfl, ?_⟩
  · exact Reach.foldl (fun _ _ _ => trivial) (.start ⟨rfl, rfl⟩)
  · exact List.forall_mem_cons.mpr ⟨legible (.inl rfl), List.forall_mem_singleton.mpr (legible (.inr rfl))⟩
  · intro entries hsurvives hreplay
    -- nothing but the acknowledged build can survive
    have hentries : entries = [built] := by
      cases hsurvives with
      | acknowledged _ _ h =>
        cases h with
        | complete _ _ _ hlen => exact absurd hlen (by decide)
        | lost _ _ _ h =>
          cases h
          rfl
    have hlookup := congrArg (fun map : Records => map[(7 : Hash256)]?.isSome) hreplay
    rw [hentries] at hlookup
    revert hlookup
    decide +kernel

theorem small_journal_replayed : ∃ r, Lib.Recorded.Run (· = []) (BehindWhole libraries) (plain.next libraries) r ∧
    libraries.Lawful ∧ (∀ t ∈ r.history, t.action.Legible libraries plain) ∧
    r.history.map (·.action) = [.cutOff nonce built 2, .append nonce submitted, .append nonce built] ∧
    ∃ entries, plain.Survives libraries (r.history.map (·.action)) entries ∧
      plain.replay libraries r.state = entries.foldl (applyEntry libraries) ∅ := by
  have hrun : Lib.Recorded.Run (· = []) (BehindWhole libraries) (plain.next libraries)
      (run [.append nonce built, .append nonce submitted, .cutOff nonce built 2]) := by
    have hempty : Lib.Recorded.Run (· = []) (BehindWhole libraries) (plain.next libraries) ⟨[], []⟩ := .start rfl
    have hbuilt := hempty.step (a := .append nonce built) (show Whole [] by decide)
    have hsubmitted := hbuilt.step (a := .append nonce submitted) (show Whole [123, 66, 125, 10] by decide)
    exact hsubmitted.step (a := .cutOff nonce built 2) (.inr (show Whole [123, 66, 125, 10, 123, 83, 125, 10] by decide))
  have hlegible : ∀ t ∈ (run [.append nonce built, .append nonce submitted, .cutOff nonce built 2]).history,
      t.action.Legible libraries plain :=
    List.forall_mem_cons.mpr ⟨legible (.inl rfl), List.forall_mem_cons.mpr ⟨legible (.inr rfl),
      List.forall_mem_singleton.mpr (legible (.inl rfl))⟩⟩
  exact ⟨_, hrun, lawful, hlegible, rfl, replay_survives lawful hrun hlegible⟩

end SmallJournal

end DomProtocol.NodeWallet
