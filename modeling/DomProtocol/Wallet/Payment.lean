import DomProtocol.Wallet.Reconcile
import DomProtocol.Wallet.Slate

/-!
# `Wallet.Payment` — interactive payments over the wallet state

A send reserves the selected inputs, stores its change and keeps the signing secrets in a pending slate; finalizing an
answered slate returns a transaction and wipes the secrets.  Every operation validates first and leaves the state alone when
it fails, except a submission that the node refuses, which releases the reservations.
-/

namespace DomProtocol.Wallet

open Lib

/-! ## State -/

inductive SlateRole where
  | Sender
  | Receiver
  deriving DecidableEq, Repr

inductive SlateLifecycle where
  | Built
  | Submitted
  | Finalized
  | Confirmed
  | Failed
  | Canceled
  deriving DecidableEq, Repr

inductive SlateSecrets where
  | Sender (excessBlinding nonce : BitVec 256)
  | Receiver (outputBlinding : BitVec 256)
  deriving DecidableEq, Repr

structure PendingSlate where
  slateHash : Hash256
  role : SlateRole
  slateBytes : List UInt8
  secrets : Option SlateSecrets
  reservedInputs : List Commitment
  producedOutput : Option Commitment
  finalizedTx : Option (List UInt8)
  status : SlateLifecycle
  deriving DecidableEq, Repr

inductive Network where
  | Mainnet
  | Testnet
  | Regtest
  deriving DecidableEq, Repr

def Network.coinbaseMaturity : Network → Nat
  | Mainnet | Testnet => DomProtocol.coinbaseMaturity
  | Regtest => regtestCoinbaseMaturity

structure StoreMeta where
  lastReconciledTip : Nat
  lastReconciledHash : Option Hash256
  deriving DecidableEq, Repr

structure WalletV2State where
  network : Network
  chainId : Hash256
  outputs : OutputStore
  pendingSlates : List PendingSlate
  storeMeta : StoreMeta

namespace WalletV2State

/-- The first pending slate of a kind, with its position. -/
def position (state : WalletV2State) (p : PendingSlate → Bool) : Option (PendingSlate × Nat) :=
  state.pendingSlates.zipIdx.find? fun (slate, _) => p slate

/-- Change the pending slate at a position. -/
def modifySlate (state : WalletV2State) (idx : Nat) (f : PendingSlate → PendingSlate) : WalletV2State :=
  { state with pendingSlates := state.pendingSlates.modify idx f }

end WalletV2State

inductive PaymentError where
  | InsufficientFunds (available need : Nat)
  | AmountOverflow
  | Slate (e : SlateError)
  | Serialization (message : String)
  | NotFound
  | MissingRecipientOutput
  | SecretsUnavailable
  | Store (e : StoreError)
  /-- The thread aborts. -/
  | panicked (message : String)
  deriving DecidableEq, Repr

/-! ## Coin selection -/

def isSpendable (out : StoredOutput) (tip maturity : Nat) : Bool :=
  out.status = .Confirmed ∧ out.isReserved = false ∧
    (out.isCoinbase = false ∨ out.originBlock.any fun b => decide (maturity ≤ tip - b.height))

/-- Largest value first, then by commitment. -/
def selectsBefore (a b : StoredOutput) : Bool :=
  b.value < a.value ∨ a.value = b.value ∧ a.commitment ≤ b.commitment

/-- Take candidates until the need is covered. -/
def accumulate (need : Nat) : List StoredOutput → Nat → Except PaymentError (List Commitment × Nat)
  | [], sum => .ok ([], sum)
  | out :: rest, sum =>
    if need ≤ sum then .ok ([], sum)
    else do
      let sum ← okOr (checkedAdd64 sum out.value) .AmountOverflow
      let (selected, total) ← accumulate need rest sum
      return (out.commitment :: selected, total)

def selectInputs (state : WalletV2State) (need : Nat) : Except PaymentError (List Commitment × Nat) := do
  let candidates := (state.outputs.outputs.filter fun out =>
    isSpendable out state.storeMeta.lastReconciledTip state.network.coinbaseMaturity).mergeSort selectsBefore
  let total ← candidates.foldlM (fun acc out => okOr (checkedAdd64 acc out.value) PaymentError.AmountOverflow) 0
  rejectIf (total < need) (.InsufficientFunds total need)
  accumulate need candidates 0

/-! ## Operations -/

section Operations

variable (X : Externals)

structure SentSlate where
  slate : Slate
  slateHash : Hash256

/-- Store the change of a send, if it has any. -/
def storeChange (outputs : OutputStore) (now : Nat) : Option ChangeMaterial → Except PaymentError OutputStore
  | none => .ok outputs
  | some change => (outputs.insert (.newUnconfirmed change.commitment change.value change.blinding .Change false now)).mapError
      .Store

def createSend (state : WalletV2State) (amount fee : UInt64) (now : Nat) (draws : SendDraws) :
    Except PaymentError (SentSlate × WalletV2State) := do
  let need ← okOr (checkedAdd64 amount.toNat fee.toNat) .AmountOverflow
  let (selected, sum) ← selectInputs state need
  let inputs ← selected.mapM fun c => do
    let out ← okOr (state.outputs.get c) (PaymentError.panicked "selected output exists")
    return SlateInput.mk c out.blinding
  -- all that can fail comes before the first change of the state
  let sender ← (buildSend X inputs (sum - need) amount fee state.chainId draws).mapError .Slate
  let slateBytes ← sender.slate.serialize.mapError fun e => .Serialization (toString e)
  let slateHash := X.blake2b256 slateBytes
  let outputs ← storeChange state.outputs now sender.change
  let pending : PendingSlate :=
    { slateHash := slateHash
      role := .Sender
      slateBytes := slateBytes
      secrets := some (.Sender sender.excessBlinding sender.nonce)
      reservedInputs := selected
      producedOutput := sender.change.map (·.commitment)
      finalizedTx := none
      status := .Built }
  return (⟨sender.slate, slateHash⟩,
    { state with
      outputs := selected.foldl (fun outputs c => outputs.reserve slateHash now c) outputs
      pendingSlates := state.pendingSlates ++ [pending] })

/-- Release every reservation of a list of inputs. -/
def releaseAll (outputs : OutputStore) (now : Nat) (reserved : List Commitment) : OutputStore :=
  reserved.foldl (fun outputs c => outputs.releaseReservation now c) outputs

/-- Delete an output if its status allows it. -/
def discard (outputs : OutputStore) : Option Commitment → OutputStore
  | none => outputs
  | some c => if (outputs.get c).any (·.canDelete) then outputs.erase c else outputs

def cancel (state : WalletV2State) (slateHash : Hash256) (now : Nat) : Except PaymentError WalletV2State := do
  let (slate, idx) ← okOr (state.position fun p => p.slateHash = slateHash) .NotFound
  let released := releaseAll state.outputs now slate.reservedInputs
  return { state with outputs := discard released slate.producedOutput }.modifySlate idx ({ · with status := .Canceled })

def receive (state : WalletV2State) (slate : Slate) (now : Nat) (draws : ReceiveDraws) :
    Except PaymentError (Slate × WalletV2State) := do
  let (slate, blinding) ← (respondReceive X slate state.chainId draws).mapError .Slate
  let output ← okOr slate.recipientOutput .MissingRecipientOutput
  let slateBytes ← slate.serialize.mapError fun e => .Serialization (toString e)
  let outputs ← (state.outputs.insert
    (.newUnconfirmed output.commitment slate.amount.toNat blinding .ReceiveSlate false now)).mapError .Store
  let pending : PendingSlate :=
    { slateHash := X.blake2b256 slateBytes
      role := .Receiver
      slateBytes := slateBytes
      secrets := some (.Receiver blinding)
      reservedInputs := []
      producedOutput := some output.commitment
      finalizedTx := none
      status := .Built }
  return (slate, { state with outputs := outputs, pendingSlates := state.pendingSlates ++ [pending] })

/-- Finalize an answered slate; the hash is the one the pending slate is kept under. -/
def finalizeTracked (state : WalletV2State) (answered : Slate) :
    Except PaymentError ((Transaction × Hash256) × WalletV2State) := do
  let senderBytes ← (senderPhaseSlate answered).serialize.mapError fun e => .Serialization (toString e)
  let senderHash := X.blake2b256 senderBytes
  let (slate, idx) ← okOr (state.position fun p => p.slateHash = senderHash ∧ p.role = .Sender) .NotFound
  match slate.secrets with
  | some (.Sender excess nonce) => do
      let tx ← (finalizeSlate X answered excess nonce state.chainId).mapError .Slate
      let txBytes ← tx.serialize.mapError fun e => .Serialization (toString e)
      return ((tx, senderHash),
        state.modifySlate idx ({ · with status := .Finalized, finalizedTx := some txBytes, secrets := none }))
  | _ => throw .SecretsUnavailable

/-- What the network answers to a submission. -/
structure SubmitOutcome where
  txHash : Hash256
  relayed : Bool
  warning : Option String
  deriving DecidableEq, Repr

inductive SubmitError where
  | NotFound
  | NotFinalized
  | Decode (message : String)
  | Sink (message : String)
  deriving DecidableEq, Repr

/-- The finalized transaction of a sender slate, with the slate. -/
def finalizedTransaction (state : WalletV2State) (slateHash : Hash256) :
    Except SubmitError (Transaction × PendingSlate × Nat) := do
  let (slate, idx) ← okOr (state.position fun p => p.slateHash = slateHash ∧ p.role = .Sender) .NotFound
  let bytes ← okOr slate.finalizedTx .NotFinalized
  let tx ← (Reader.fromBytes (Transaction.deserialize X) bytes).mapError fun e => .Decode (toString e)
  return (tx, slate, idx)

def submitFinalized (state : WalletV2State) (sink : Transaction → Except String SubmitOutcome) (slateHash : Hash256)
    (now : Nat) : Except SubmitError SubmitOutcome × WalletV2State :=
  match finalizedTransaction X state slateHash with
  | .error e => (.error e, state)
  | .ok (tx, slate, idx) =>
    match sink tx with
    | .ok outcome => (.ok outcome, state.modifySlate idx ({ · with status := .Submitted }))
    | .error e => (.error (.Sink e), { state with outputs := releaseAll state.outputs now slate.reservedInputs })

/-- Reconcile the store and move the cursors to the tip of the view. -/
def WalletV2State.reconcile (state : WalletV2State) (view : CanonicalView) (now : Nat) :
    Except TransitionError (ReconcileReport × WalletV2State) := do
  let (report, outputs) ← Wallet.reconcile state.outputs view now
  let storeMeta := match report.tip with
    | some tip => ⟨tip.height, some tip.hash⟩
    | none => state.storeMeta
  return (report, { state with outputs := outputs, storeMeta := storeMeta })

end Operations

end DomProtocol.Wallet
