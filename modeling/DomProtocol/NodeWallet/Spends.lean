import DomProtocol.Lib.Durable
import DomProtocol.NodeWallet.Journal
import DomProtocol.Wallet.Retention

/-!
# `NodeWallet.Spends` — pending spends and canonical blocks

A pending spend counts as confirmed once a canonical block consumes one of its inputs, and its change becomes spendable then.
Nothing compares the transaction that consumed the input with the pending one: `cancelTx` frees the inputs of a transaction
that may still be mined, and a second spend of the same input is then confirmed by the first.
-/

namespace DomProtocol.NodeWallet

open Lib

variable {out : OwnedOutput} {w : WalletState} {c : Commitment} {txHash : Hash256}

/-! ## Outputs and pending transactions -/

structure OwnedOutput where
  commitment : Commitment
  value : UInt64
  blinding : BitVec 256
  blockHeight : UInt64
  blockHash : Option Hash256
  isCoinbase : Bool
  spent : Bool := false
  reservedForTx : Option Hash256 := none
  deriving DecidableEq

/-- What is kept of a pending transaction.  Of a received slate these are its bytes and the blinding of its output. -/
structure PendingTx where
  txHash : Hash256
  inputs : List Commitment
  txBytes : List UInt8
  change : Option PendingChange
  receiveSlate : Option (List UInt8)
  receiveSlateSecrets : Option (BitVec 256)
  deriving DecidableEq

structure WalletState where
  chainId : Hash256
  coinbaseMaturity : UInt64
  outputs : Table Commitment OwnedOutput
  pendingTxs : Table Hash256 PendingTx

inductive WalletError where
  | Io (message : String)
  | Crypto (message : String)
  | InsufficientFunds (held need : UInt64)
  | OutputNotFound (commitment : Commitment)
  deriving DecidableEq

/-- What the wallet calls: the curve and the hash, the slate decoder, the transaction builder, and the derivation of the
    blinding of its own coinbase, which a locked wallet does not have. -/
structure WalletLibraries where
  X : Externals
  slateFromBytes : List UInt8 → Except String Wallet.Slate
  build : List OwnedOutput → List (UInt64 × BitVec 256) → UInt64 → Except String Transaction
  coinbaseBlindingForHeight : UInt64 → Option (BitVec 256)

/-- What the files answer during a call: an append to the journal, the status in its replay, saving the wallet. -/
structure Disk where
  append : Hash256 → TxJournalEvent (List UInt8) PendingChange → Except WalletError Unit
  replayed : Hash256 → Except WalletError (Option TxStatus)
  save : Except WalletError Unit

/-- Calls of the wallet.  One that fails keeps what it has changed in memory. -/
abbrev Call := Durable WalletState WalletError

def WalletState.Owns (w : WalletState) (c : Commitment) : Prop := (w.outputs[c]?).isSome

instance (w : WalletState) (c : Commitment) : Decidable (w.Owns c) := inferInstanceAs (Decidable (_ = true))

def updateOutput (c : Commitment) (f : OwnedOutput → OwnedOutput) : Call Unit := do
  let out ← Durable.query fun w => okOr w.outputs[c]? (.OutputNotFound c)
  Durable.modify fun w => { w with outputs := w.outputs.insert c (f out) }

def markSpent (c : Commitment) : Call Unit := updateOutput c ({ · with spent := true })

def reserve (c : Commitment) (txHash : Hash256) : Call Unit := updateOutput c ({ · with reservedForTx := some txHash })

def releaseReservation (c : Commitment) : Call Unit := updateOutput c ({ · with reservedForTx := none })

/-- Take an output in, unless it is owned. -/
def register (out : OwnedOutput) : Call Unit := Durable.modify fun w =>
  if w.Owns out.commitment then w else { w with outputs := w.outputs.insert out.commitment out }

def removePending (txHash : Hash256) : Call Unit :=
  Durable.modify fun w => { w with pendingTxs := w.pendingTxs.erase txHash }

/-! ## Building, cancelling, submitting -/

def OwnedOutput.isMatureFor (out : OwnedOutput) (currentHeight maturity : UInt64) : Bool :=
  !out.isCoinbase || currentHeight.toNat - out.blockHeight.toNat ≥ maturity.toNat

def OwnedOutput.isSpendableFor (out : OwnedOutput) (currentHeight maturity : UInt64) : Bool :=
  !out.spent && out.reservedForTx.isNone && out.isMatureFor currentHeight maturity

/-- Greedy selection: go on until the sum is reached. -/
def takeUntil (needed : Nat) : Nat → List OwnedOutput → Except WalletError (List OwnedOutput × Nat)
  | sum, [] => return ([], sum)
  | sum, out :: rest =>
    if sum ≥ needed then return ([], sum)
    else do
      let sum ← okOr (checkedAdd64 sum out.value.toNat) (.Crypto "coin selection sum overflow")
      let (selected, total) ← takeUntil needed sum rest
      return (out :: selected, total)

def selectForSpend (w : WalletState) (needed : Nat) (currentHeight : UInt64) :
    Except WalletError (List OwnedOutput × Nat) := do
  let spendable := (w.outputs.toList.map (·.2)).filter (·.isSpendableFor currentHeight w.coinbaseMaturity)
  let (selected, sum) ← takeUntil needed 0 (spendable.mergeSort fun a b => a.value ≥ b.value)
  rejectIf (sum < needed) (.InsufficientFunds (.ofNat sum) (.ofNat needed))
  return (selected, sum)

structure BuiltSpend where
  tx : Transaction
  txHash : Hash256
  txBytes : List UInt8
  selectedCommitments : List Commitment
  pendingChange : Option PendingChange
  fee : UInt64

section Calls

variable (L : WalletLibraries) (D : Disk)

/-- Select coins and build the transaction; nothing changes. -/
def buildSpendUnreserved (recipientBlinding changeBlinding : Wallet.BlindingFactor) (amount fee currentHeight : UInt64)
    (w : WalletState) : Except WalletError BuiltSpend := do
  let required := min (amount.toNat + fee.toNat) (u64Bound - 1)
  let (selected, total) ← selectForSpend w required currentHeight
  let change := UInt64.ofNat (total - required)
  let pendingChange := if change > 0
    then some ⟨commit L.X change.toNat changeBlinding.val.toNat, change, changeBlinding.val⟩ else none
  let outputs := (amount, recipientBlinding.val) :: pendingChange.toList.map fun c => (c.value, c.blinding)
  let tx ← (L.build selected outputs fee).mapError .Crypto
  let txBytes ← tx.serialize.mapError fun e => .Crypto (toString e)
  return ⟨tx, L.X.blake2b256 txBytes, txBytes, selected.map (·.commitment), pendingChange, fee⟩

def recordJournal (txHash : Hash256) (event : TxJournalEvent (List UInt8) PendingChange) : Call Unit :=
  Durable.query fun _ => D.append txHash event

def save : Call Unit := Durable.query fun _ => D.save

/-- Reserve the inputs of a built spend and store it.  The pending entry of a sent slate is stored in the same way. -/
def reserveBuiltSpend (built : BuiltSpend) : Call Unit := do
  recordJournal D built.txHash (.Built built.selectedCommitments (some built.txBytes) (.ofNat built.tx.outputs.length)
    built.fee built.pendingChange)
  built.selectedCommitments.forM (reserve · built.txHash)
  let pending : PendingTx := ⟨built.txHash, built.selectedCommitments, built.txBytes, built.pendingChange, none, none⟩
  Durable.modify fun w => { w with pendingTxs := w.pendingTxs.insert built.txHash pending }
  save D

def pendingTx (txHash : Hash256) : Call PendingTx :=
  Durable.query fun w => okOr w.pendingTxs[txHash]? (.Io "pending tx not found")

def cancelTx (txHash : Hash256) : Call Unit := do
  let pending ← pendingTx txHash
  recordJournal D txHash .Canceled
  pending.inputs.forM releaseReservation
  removePending txHash
  save D

def markSubmitted (txHash : Hash256) : Call Unit := do
  let _ ← pendingTx txHash
  recordJournal D txHash .Submitted

/-! ## Canonical blocks -/

def consumedInputs (txs : List Transaction) : List Commitment := txs.flatMap (·.inputs)

def createdOutputs (txs : List Transaction) : List Commitment := txs.flatMap fun tx => tx.outputs.map (·.commitment)

/-- A pending transaction one of whose inputs the block consumes. -/
def confirmPending (consumed : List Commitment) (height : UInt64) (hash : Option Hash256) (txHash : Hash256) : Call Unit := do
  recordJournal D txHash (.Confirmed height)
  match ← Durable.query fun w => .ok w.pendingTxs[txHash]? with
  | none => return ()
  | some pending => do
    removePending txHash
    pending.inputs.forM fun c => do
      if c ∈ consumed then markSpent c
      releaseReservation c
    pending.change.toList.forM fun change =>
      register ⟨change.commitment, change.value, change.blinding, height, hash, false, false, none⟩

structure PendingReceiveCandidate where
  txHash : Hash256
  commitment : Commitment
  amount : UInt64
  blinding : BitVec 256

def receiveCandidate (w : WalletState) (txHash : Hash256) (bytes : List UInt8) (secrets : Option (BitVec 256)) :
    Except WalletError PendingReceiveCandidate := do
  let blinding ← okOr secrets (.Crypto "pending receive slate is missing recipient secrets")
  let slate ← (L.slateFromBytes bytes).mapError .Crypto
  rejectIf (slate.chainId ≠ w.chainId) (.Crypto "pending receive slate chain_id does not match wallet")
  rejectIf (slate.amount.toNat > maxSupplyNoms) (.Crypto "pending receive slate has invalid amount")
  let output ← okOr slate.recipientOutput (.Crypto "pending receive slate is missing recipient output")
  rejectIf (isScalarValid blinding = false) (.Crypto "invalid blinding factor")
  rejectIf (commit L.X slate.amount.toNat blinding.toNat ≠ output.commitment)
    (.Crypto "pending receive slate commitment does not match stored recipient blinding")
  return ⟨txHash, output.commitment, slate.amount, blinding⟩

/-- The received slates under way, in the order of their hashes. -/
def pendingReceiveCandidates (w : WalletState) : Except WalletError (List PendingReceiveCandidate) :=
  (w.pendingTxs.toList.filterMap fun (txHash, pending) =>
    pending.receiveSlate.map fun bytes => (txHash, bytes, pending.receiveSlateSecrets)).mapM
    fun (txHash, bytes, secrets) => receiveCandidate L w txHash bytes secrets

def confirmReceive (height : UInt64) (hash : Option Hash256) (receive : PendingReceiveCandidate) : Call Unit := do
  match ← Durable.query fun _ => D.replayed receive.txHash with
  | some (.Received ..) => pure ()
  | _ => recordJournal D receive.txHash (.ReceiveConfirmed receive.commitment receive.amount height hash receive.txHash)
  removePending receive.txHash
  register ⟨receive.commitment, receive.amount, receive.blinding, height, hash, false, false, none⟩

/-- Look for the wallet's own coinbase, with and without the fees of the block. -/
def scanBlock (txs : List Transaction) (height : UInt64) (hash : Option Hash256) : Call Unit :=
  match L.coinbaseBlindingForHeight height with
  | none => return ()
  | some blinding =>
    let reward := blockReward height.toNat
    let totalFees := txs.foldlM (fun acc tx => do checkedAdd64 acc (← tx.totalFee.toOption)) 0
    let values := reward :: (totalFees.bind (checkedAdd64 reward)).toList
    (createdOutputs txs).forM fun c =>
      ((values.find? (commit L.X · blinding.toNat = c)).toList).forM fun value =>
        register ⟨c, .ofNat value, blinding, height, hash, true, false, none⟩

def applyCanonicalBlock (txs : List Transaction) (height : UInt64) (hash : Option Hash256) : Call Unit := do
  let resolved ← Durable.query fun w =>
    .ok ((w.pendingTxs.toList.filter fun entry => entry.2.inputs.any (· ∈ consumedInputs txs)).map (·.1))
  resolved.forM (confirmPending D (consumedInputs txs) height hash)
  if createdOutputs txs ≠ [] then
    let candidates ← Durable.query (pendingReceiveCandidates L)
    (candidates.filter (·.commitment ∈ createdOutputs txs)).forM (confirmReceive D height hash)
  scanBlock L txs height hash
  save D

inductive WalletAction where
  | buildSpend (recipientBlinding changeBlinding : Wallet.BlindingFactor) (amount fee currentHeight : UInt64)
  | reserveBuiltSpend (built : BuiltSpend)
  | cancelTx (txHash : Hash256)
  | markSubmitted (txHash : Hash256)
  | applyCanonicalBlock (txs : List Transaction) (height : UInt64) (hash : Option Hash256)

def WalletAction.call : WalletAction → Call Unit
  | .buildSpend recipientBlinding changeBlinding amount fee currentHeight => do
      let built ← Durable.query (buildSpendUnreserved L recipientBlinding changeBlinding amount fee currentHeight)
      NodeWallet.reserveBuiltSpend D built
  | .reserveBuiltSpend built => NodeWallet.reserveBuiltSpend D built
  | .cancelTx txHash => NodeWallet.cancelTx D txHash
  | .markSubmitted txHash => NodeWallet.markSubmitted D txHash
  | .applyCanonicalBlock txs height hash => NodeWallet.applyCanonicalBlock L D txs height hash

def next (w : WalletState) (step : Disk × WalletAction) : WalletState := (step.2.call L step.1 w).final

/-! ## What a block confirms -/

/-- **No phantom**: what the wallet owns after a block and did not own before is an output of the block. -/
def NoPhantom (txs : List Transaction) (w w' : WalletState) : Prop :=
  ∀ c, w'.Owns c → w.Owns c ∨ c ∈ createdOutputs txs

/-- The condition on a block: where it consumes an input of a pending transaction, it has the change of that transaction, or
    the wallet owns the change already. -/
def Mined (w : WalletState) (txs : List Transaction) : Prop :=
  ∀ (txHash : Hash256) (pending : PendingTx) (change : PendingChange), w.pendingTxs[txHash]? = some pending →
    pending.change = some change → (pending.inputs.any (· ∈ consumedInputs txs)) = true →
      change.commitment ∈ createdOutputs txs ∨ w.Owns change.commitment

def WalletAction.Mined (w : WalletState) : Disk × WalletAction → Prop
  | (_, .applyCanonicalBlock txs _ _) => NodeWallet.Mined w txs
  | _ => True

end Calls

/-- How a wallet develops while a block is applied: pending entries go, outputs of the block come. -/
structure Confirms (created : List Commitment) (before w : WalletState) : Prop where
  pending : ∀ (txHash : Hash256) (p : PendingTx), w.pendingTxs[txHash]? = some p → before.pendingTxs[txHash]? = some p
  kept : ∀ c, before.Owns c → w.Owns c
  mined : ∀ c, w.Owns c → before.Owns c ∨ c ∈ created

section Confirms

variable {L : WalletLibraries} {D : Disk} {created : List Commitment} {before : WalletState} {height : UInt64}
  {hash : Option Hash256} {txs : List Transaction}

theorem owns_insert {a : Commitment} :
    ({ w with outputs := w.outputs.insert c out } : WalletState).Owns a ↔ c = a ∨ w.Owns a := by
  show ((w.outputs.insert c out)[a]?).isSome = true ↔ c = a ∨ (w.outputs[a]?).isSome = true
  rw [getElem?_insert]
  split <;> simp_all

theorem Confirms.insert (hw : Confirms created before w)
    (h : w.Owns c ∨ c ∈ created) : Confirms created before { w with outputs := w.outputs.insert c out } := by
  refine ⟨hw.pending, fun a ha => owns_insert.mpr (.inr (hw.kept a ha)), fun a ha => ?_⟩
  rcases owns_insert.mp ha with rfl | ha
  · exact h.elim (hw.mined c) .inr
  · exact hw.mined a ha

theorem preserves_updateOutput {f : OwnedOutput → OwnedOutput} :
    (updateOutput c f).Preserves (Confirms created before) := by
  intro w hw
  unfold updateOutput
  cases hfnd : w.outputs[c]? with
  | none =>
    rw [Durable.run_bind_error (by rw [Durable.run_query, hfnd]; rfl)]
    exact hw
  | some out =>
    rw [Durable.run_bind_ok (by rw [Durable.run_query, hfnd]; rfl)]
    exact hw.insert (.inl (by rw [WalletState.Owns, hfnd]; rfl))

theorem preserves_register (h : out.commitment ∈ created ∨ before.Owns out.commitment) :
    (register out).Preserves (Confirms created before) := by
  intro w hw
  show Confirms created before (if w.Owns out.commitment then w else _)
  split
  · exact hw
  · exact hw.insert (h.symm.imp_left (hw.kept _))

theorem preserves_removePending : (removePending txHash).Preserves (Confirms created before) := by
  intro w hw
  refine ⟨fun a p hp => hw.pending a p ?_, hw.kept, hw.mined⟩
  have hfnd : (w.pendingTxs.erase txHash)[a]? = some p := hp
  rw [getElem?_erase] at hfnd
  split at hfnd
  · cases hfnd
  · exact hfnd

/-- **One pending transaction**, whose change the block has or the wallet owns. -/
theorem preserves_confirmPending {consumed : List Commitment}
    (h : ∀ (pending : PendingTx) change, before.pendingTxs[txHash]? = some pending → pending.change = some change →
      change.commitment ∈ created ∨ before.Owns change.commitment) :
    (confirmPending D consumed height hash txHash).Preserves (Confirms created before) := by
  refine .bind .query fun _ => ?_
  intro w hw
  rw [Durable.run_bind_ok rfl]
  cases hfnd : w.pendingTxs[txHash]? with
  | none => exact hw
  | some pending =>
    refine Durable.Preserves.bind preserves_removePending (fun _ => .bind (.forM fun c _ => ?_) fun _ => ?_) w hw
    · dsimp only
      split
      · exact .bind preserves_updateOutput fun _ => preserves_updateOutput
      · exact preserves_updateOutput
    · refine .forM fun change hchg => preserves_register ?_
      exact h pending change (hw.pending _ _ hfnd) (Option.mem_toList.mp hchg)

theorem preserves_confirmReceive {receive : PendingReceiveCandidate} (h : receive.commitment ∈ created) :
    (confirmReceive D height hash receive).Preserves (Confirms created before) := by
  have hend (out : OwnedOutput) (hout : out.commitment = receive.commitment) :
      (removePending receive.txHash >>= fun _ => register out).Preserves (Confirms created before) :=
    .bind preserves_removePending fun _ => preserves_register (.inl (hout ▸ h))
  refine .bind .query fun status => ?_
  dsimp only
  split
  · exact hend _ rfl
  · exact .bind .query fun _ => hend _ rfl

theorem preserves_scanBlock : (scanBlock L txs height hash).Preserves (Confirms (createdOutputs txs) before) := by
  unfold scanBlock
  split
  · exact .query
  · exact .forM fun c hc => .forM fun value _ => preserves_register (.inl hc)

/-- **One block.** -/
theorem noPhantom_applyCanonicalBlock (h : Mined before txs) :
    NoPhantom txs before (applyCanonicalBlock L D txs height hash before).final := by
  suffices hconfirms : Confirms (createdOutputs txs) before (applyCanonicalBlock L D txs height hash before).final from
    hconfirms.mined
  unfold applyCanonicalBlock
  rw [Durable.run_bind_ok rfl]
  refine Durable.Preserves.bind (.forM fun txHash hresolved => preserves_confirmPending ?_) (fun _ => ?_) before
    ⟨fun _ _ h => h, fun _ h => h, fun _ => .inl⟩
  · -- the pending transactions that count as confirmed are those the condition is about
    intro pending change hpend hchg
    obtain ⟨⟨key, found⟩, hmem, rfl⟩ := List.mem_map.mp hresolved
    obtain ⟨hmem, hconsumed⟩ := List.mem_filter.mp hmem
    have hfnd : before.pendingTxs[key]? = some found := Std.ExtTreeMap.mem_toList_iff_getElem?_eq_some.mp hmem
    obtain rfl : found = pending := Option.some.inj (hfnd.symm.trans hpend)
    exact h key found change hfnd hchg hconsumed
  · have hend : (scanBlock L txs height hash >>= fun _ => save D).Preserves (Confirms (createdOutputs txs) before) :=
      .bind preserves_scanBlock fun _ => .query
    dsimp only
    split
    · refine .bind .query fun candidates => .bind (.forM fun receive hreceive => preserves_confirmReceive ?_) fun _ => hend
      exact of_decide_eq_true (List.mem_filter.mp hreceive).2
    · exact hend

/-- **A block makes no output spendable that it does not have**, in every run whose blocks have the change of each pending
    transaction they consume an input of. -/
theorem confirmed_change_mined {r : Lib.Recorded WalletState (Disk × WalletAction)}
    (hrun : Lib.Recorded.Run (fun w => w.pendingTxs = ∅) WalletAction.Mined (next L) r) :
    ∀ t ∈ r.history, ∀ disk txs height hash, t.action = (disk, .applyCanonicalBlock txs height hash) →
      NoPhantom txs t.before t.after := by
  refine (Lib.Recorded.invariant (I := fun _ => True) (fun _ _ => trivial) ?_ hrun).2
  rintro w ⟨disk, action⟩ - hmined
  refine ⟨trivial, ?_⟩
  rintro disk' txs height hash haction
  cases haction
  exact noPhantom_applyCanonicalBlock hmined

end Confirms

/-! ## A small wallet -/

namespace SmallSpends

/-- A builder that commits to the outputs it is given, for a locked wallet that has received nothing. -/
def libraries : WalletLibraries where
  X := Wallet.SmallWallet.libraries
  slateFromBytes _ := .error "no slate"
  build selected outputs _ := .ok ⟨selected.map (·.commitment),
    outputs.map fun (value, blinding) => ⟨commit Wallet.SmallWallet.libraries value.toNat blinding.toNat, []⟩, [], 0⟩
  coinbaseBlindingForHeight _ := none

def disk : Disk := ⟨fun _ _ => .ok (), fun _ => .ok none, .ok ()⟩

def coin : OwnedOutput := ⟨Miniature.encodePoint (1000, 5), 1000, 5, 1, none, false, false, none⟩

def start : WalletState := ⟨7, 1, (∅ : Table Commitment OwnedOutput).insert coin.commitment coin, ∅⟩

def spend (amount : UInt64) (change : Wallet.BlindingFactor) : WalletAction := .buildSpend ⟨.ofNat 256 3, by decide⟩ change amount 10 5

def first : WalletAction := spend 600 ⟨.ofNat 256 11, by decide⟩

def second : WalletAction := spend 700 ⟨.ofNat 256 13, by decide⟩

/-- What the first spend builds. -/
def built : Option BuiltSpend :=
  (buildSpendUnreserved libraries ⟨.ofNat 256 3, by decide⟩ ⟨.ofNat 256 11, by decide⟩ 600 10 5 start).toOption

def block : WalletAction := .applyCanonicalBlock (built.toList.map (·.tx)) 6 none

def cancelled : WalletAction := .cancelTx ((built.map (·.txHash)).getD 0)

def run (actions : List WalletAction) : Lib.Recorded WalletState (Disk × WalletAction) :=
  (actions.map (disk, ·)).foldl (Lib.Recorded.record (next libraries)) ⟨start, []⟩

/-- The check of the condition. -/
theorem mined_of_all {txs : List Transaction} (h : (w.pendingTxs.toList.all fun entry =>
    entry.2.change.all fun change => decide (change.commitment ∈ createdOutputs txs)) = true) : Mined w txs := by
  intro txHash pending change hpend hchg _
  have hentry := List.all_eq_true.mp h _ (Std.ExtTreeMap.mem_toList_iff_getElem?_eq_some.mpr hpend)
  rw [hchg] at hentry
  exact .inl (of_decide_eq_true hentry)

/-- A spend is cancelled and replaced by another one of the same coin; then the first is mined.  The wallet owns the change
    of the second, which no block has. -/
theorem replaced_change_owned : ∃ r, Lib.Recorded.Run (fun w => w.pendingTxs = ∅) (fun _ _ => True) (next libraries) r ∧
    r.history.map (·.action.2) = [block, second, cancelled, first] ∧
    ∃ t ∈ r.history, ∃ txs, t.action = (disk, .applyCanonicalBlock txs 6 none) ∧ ¬ NoPhantom txs t.before t.after := by
  refine ⟨run [first, cancelled, second, block], ?_, rfl, _, List.mem_cons_self, _, rfl, fun h => ?_⟩
  · exact Reach.foldl (fun _ _ _ => trivial) (.start ⟨rfl, rfl⟩)
  · have hphantom := h (commit libraries.X 290 13) (by decide +kernel)
    revert hphantom
    decide +kernel

/-- When the pending spend itself is mined, the change the wallet gets is in the block. -/
theorem mined_change_owned : ∃ r, Lib.Recorded.Run (fun w => w.pendingTxs = ∅) WalletAction.Mined (next libraries) r ∧
    r.history.map (·.action.2) = [block, first] ∧ r.state.Owns (commit libraries.X 390 11) ∧
    ∀ t ∈ r.history, ∀ disk txs height hash, t.action = (disk, .applyCanonicalBlock txs height hash) →
      NoPhantom txs t.before t.after := by
  have hrun : Lib.Recorded.Run (fun w => w.pendingTxs = ∅) WalletAction.Mined (next libraries) (run [first, block]) := by
    have hstart : Lib.Recorded.Run (fun w => w.pendingTxs = ∅) WalletAction.Mined (next libraries) ⟨start, []⟩ := .start rfl
    exact (hstart.step (a := (disk, first)) trivial).step (a := (disk, block)) (mined_of_all (by decide +kernel))
  exact ⟨_, hrun, rfl, by decide +kernel, confirmed_change_mined hrun⟩

end SmallSpends

end DomProtocol.NodeWallet
