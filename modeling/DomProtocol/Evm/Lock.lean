import DomProtocol.Evm.Binding
import DomProtocol.Lib.TableSum

/-!
# `Evm.Lock` — the condition lock contracts

One core with two asset variants.  The contracts run on a world that has their storage, what they really hold of each
asset, and the calls they made.  Everything outside answers in order: how much gas is left, what a balance probe returns,
how a call ends and what ran during it.  What runs during a call is any list of acts, calls back into the contract
included, and is rolled back when the call fails.
-/

namespace DomProtocol.Evm

open Lib Std Session

inductive Variant where
  | native
  | erc20
  deriving DecidableEq, Repr

structure Deployment where
  machine : Machine
  chainId : U256
  self : Address
  variant : Variant

/-- Stored state of one lock; a lock without a funder is unknown. -/
structure Lock where
  funder : Address
  beneficiary : Address
  adaptorAddress : Address
  asset : Address
  amount : U256
  deadline : UInt64
  binding : Digest32
  settled : Bool
  deriving DecidableEq, Repr

inductive Event where
  | LockOpened (lockId binding : Digest32) (funder beneficiary asset : Address) (amount : U256) (adaptorAddress : Address)
      (deadline : UInt64)
  | Claimed (lockId binding : Digest32) (beneficiary : Address) (t : U256)
  | Refunded (lockId binding : Digest32) (funder : Address) (amount : U256)
  | PayoutDeferred (payee asset : Address) (amount : U256)
  | Withdrawal (account asset payee : Address) (amount : U256)
  deriving DecidableEq, Repr

inductive Revert where
  | LockExists
  | LockUnknown
  | AlreadySettled
  | BadAmount
  | BadDeadline
  | ZeroAddress
  | NotBeneficiary
  | Expired
  | NotExpired
  | WrongSecret
  | NothingToWithdraw
  | PayoutFailed
  | AssetMismatch
  | ValueMismatch
  | AmountExceedsCredit (credit requested : U256)
  | NonCanonicalScalar
  | BadDirection
  | NotAContract
  | InexactTransfer (expected received : U256)
  | UnmeasurableAsset
  /-- Checked arithmetic. -/
  | Arithmetic
  /-- Value sent to a function that takes none. -/
  | NotPayable
  /-- More value than there is. -/
  | ImpossibleValue
  | ReentrancyGuardReentrantCall
  | SafeERC20FailedOperation
  | OutOfGas
  deriving DecidableEq, Repr

/-- A call of the contract that was to move value out and did not fail. -/
structure Transfer where
  payee : Address
  asset : Address
  amount : U256
  deriving DecidableEq, Repr

instance : Ord (Address × Address) := lexOrd

instance : TransOrd (Address × Address) :=
  inferInstanceAs (TransCmp (compareLex (compareOn Prod.fst) (compareOn Prod.snd)))

instance : LawfulEqOrd (Address × Address) where
  eq_of_compare h := by
    obtain ⟨hfst, hsnd⟩ := compareLex_eq_eq.mp h
    exact Prod.ext (LawfulEqOrd.eq_of_compare hfst) (LawfulEqOrd.eq_of_compare hsnd)

structure World where
  /-- What the contract really holds of each asset; the native asset is the zero address. -/
  balance : Address → U256
  locks : Table Digest32 Lock
  pendingWithdrawals : Table (Address × Address) U256
  /-- The reentrancy guard. -/
  entered : Bool
  events : List Event
  sent : List Transfer

namespace World

def lockOf (w : World) (lockId : Digest32) : Lock := w.locks[lockId]?.getD ⟨0, 0, 0, 0, 0, 0, 0, false⟩

def credit (w : World) (account asset : Address) : U256 := w.pendingWithdrawals[(account, asset)]?.getD 0

def setLock (w : World) (lockId : Digest32) (lock : Lock) : World := { w with locks := w.locks.insert lockId lock }

def setCredit (w : World) (account asset : Address) (amount : U256) : World :=
  { w with pendingWithdrawals := w.pendingWithdrawals.insert (account, asset) amount }

def debit (w : World) (asset : Address) (amount : U256) : World :=
  { w with balance := fun a => if a = asset then (if amount ≤ w.balance a then w.balance a - amount else 0) else w.balance a }

/-- A transfer that would overflow the balance does not happen. -/
def deposit (w : World) (asset : Address) (amount : U256) : World :=
  { w with balance := fun a =>
      if a = asset ∧ (w.balance a).toNat + amount.toNat < 2 ^ 256 then w.balance a + amount else w.balance a }

end World

structure Message where
  sender : Address
  value : U256
  /-- `block.timestamp`. -/
  timestamp : Nat
  codeLength : Address → Nat
  /-- Nobody calls from the zero address. -/
  sender_ne : sender ≠ 0

/-- One answer of the outside; a question reads the part it is about. -/
structure Reply where
  gas : Nat
  ok : Bool
  /-- What a capped `balanceOf` probe answers when this is held; nothing unless it is exactly one word. -/
  probe : U256 → Option U256
  /-- What a token takes from the contract when asked to transfer this. -/
  takes : U256 → U256
  /-- What runs during the call. -/
  effect : World → World

abbrev ContractM := Session World Reply Revert

/-! ## Questions and calls -/

def gasleft : ContractM Nat := do return (← ask .OutOfGas).gas

/-- Bounded, non-reverting `balanceOf(address(this))`. -/
def probeBalance (asset : Address) : ContractM (Option U256) := do
  let reply ← ask .OutOfGas
  let w ← get
  return reply.probe (w.balance asset)

def emit (event : Event) : ContractM Unit := modify fun w => { w with events := w.events ++ [event] }

section Contract

variable (D : Deployment)

/-- A call that carries value.  It fails when the value is not there, and the contract itself takes none. -/
def callValue (payee : Address) (amount : U256) : ContractM Bool := do
  let reply ← ask .OutOfGas
  let w ← get
  let ok := reply.ok ∧ amount ≤ w.balance 0 ∧ payee ≠ D.self
  modify fun w =>
    if ok then
      let after := reply.effect (w.debit 0 amount)
      { after with sent := after.sent ++ [⟨payee, 0, amount⟩] }
    else w
  return ok

/-- `IERC20.transfer`, returndata discarded. -/
def callTransfer (asset payee : Address) (amount : U256) : ContractM Bool := do
  let reply ← ask .OutOfGas
  modify fun w =>
    if reply.ok then
      let after := (reply.effect w).debit asset (reply.takes amount)
      { after with sent := after.sent ++ [⟨payee, asset, amount⟩] }
    else w
  return reply.ok

/-- `SafeERC20.safeTransferFrom`: what comes in is what runs during the call. -/
def safeTransferFrom : ContractM Unit := do
  let reply ← ask .OutOfGas
  reject (reply.ok = false) .SafeERC20FailedOperation
  modify reply.effect

/-! ## Asset hooks -/

def payoutGasFloor : Nat :=
  match D.variant with
  | .native => 96000
  | .erc20 => 200000

def requireSupportedAsset (msg : Message) (asset : Address) : ContractM Unit :=
  match D.variant with
  | .native => reject (asset ≠ 0) .AssetMismatch
  | .erc20 => do
      reject (asset = 0) .AssetMismatch
      reject (msg.codeLength asset = 0) .NotAContract

def takeTokens (asset : Address) (amount : U256) : ContractM Unit := do
  let before ← expect (← probeBalance asset) .UnmeasurableAsset
  safeTransferFrom
  let after ← expect (← probeBalance asset) .UnmeasurableAsset
  reject (after < before) .Arithmetic
  reject (after - before ≠ amount) (.InexactTransfer amount (after - before))

def takeCustody (msg : Message) (asset : Address) (amount : U256) : ContractM Unit := do
  requireSupportedAsset D msg asset
  match D.variant with
  | .native => reject (msg.value ≠ amount) .ValueMismatch
  | .erc20 => do
      reject (msg.value ≠ 0) .ValueMismatch
      takeTokens asset amount

/-- The measured decrease, never more than was asked for. -/
def measuredDelivery (before after amount : U256) : U256 :=
  let moved := if after < before then before - after else 0
  if amount < moved then amount else moved

/-- Moves up to `amount` of `asset` to `to` and reports how much provably left custody. -/
def deliver (asset payee : Address) (amount : U256) (assumeDeliveredWhenUnmeasured : Bool) : ContractM U256 := do
  let before ← probeBalance asset
  let callSucceeded ← callTransfer asset payee amount
  let after ← probeBalance asset
  if callSucceeded = false then return 0
  match before, after with
  | some balanceBefore, some balanceAfter => return measuredDelivery balanceBefore balanceAfter amount
  | _, _ => return if assumeDeliveredWhenUnmeasured then amount else 0

variable (payee asset : Address) (amount : U256)

/-- A value-bearing call delivers all or nothing. -/
def sendValue : ContractM U256 := do
  return if ← callValue D payee amount then amount else 0

def tryPushPayout : ContractM U256 :=
  match D.variant with
  | .native => sendValue D payee amount
  | .erc20 => deliver asset payee amount true

def pullTransfer : ContractM U256 :=
  match D.variant with
  | .native => sendValue D payee amount
  | .erc20 => deliver asset payee amount false

/-! ## Settlement -/

def addSaturating (a b : U256) : U256 := if a + b < a then BitVec.allOnes 256 else a + b

def pushAboveFloor : ContractM U256 := do
  let gas ← gasleft
  if payoutGasFloor D ≤ gas then tryPushPayout D payee asset amount else return 0

def creditShortfall (shortfall : U256) : ContractM Unit := do
  if shortfall = 0 then return ()
  modify fun w => w.setCredit payee asset (addSaturating (w.credit payee asset) shortfall)
  emit (.PayoutDeferred payee asset shortfall)

def payout : ContractM Unit := do
  let delivered ← pushAboveFloor D payee asset amount
  reject (amount < delivered) .Arithmetic
  creditShortfall payee asset (amount - delivered)

def nonReentrant (body : ContractM Unit) : ContractM Unit := do
  let w ← get
  reject (w.entered = true) .ReentrancyGuardReentrantCall
  modify fun w => { w with entered := true }
  body
  modify fun w => { w with entered := false }

def lockFor (sender : Address) (terms : LockTerms) (binding : Digest32) : Lock where
  funder := sender
  beneficiary := terms.beneficiary
  adaptorAddress := terms.adaptorAddress
  asset := terms.asset
  amount := terms.amount
  deadline := terms.deadline
  binding := binding
  settled := false

variable (msg : Message)

def openLock (terms : LockTerms) : ContractM Unit := do
  reject (1 < terms.direction) .BadDirection
  reject (terms.beneficiary = 0 ∨ terms.adaptorAddress = 0) .ZeroAddress
  reject (terms.amount = 0) .BadAmount
  reject (terms.deadline.toNat ≤ msg.timestamp) .BadDeadline
  let binding := LockBinding.deriveBinding D.machine terms D.chainId D.self
  let lockId := LockBinding.deriveLockId D.machine binding msg.sender
  let w ← get
  reject ((w.lockOf lockId).funder ≠ 0) .LockExists
  modify fun w => w.setLock lockId (lockFor msg.sender terms binding)
  emit (.LockOpened lockId binding msg.sender terms.beneficiary terms.asset terms.amount terms.adaptorAddress terms.deadline)
  takeCustody D msg terms.asset terms.amount

def claim (lockId : Digest32) (t : U256) : ContractM Unit := do
  let w ← get
  let l := w.lockOf lockId
  reject (l.funder = 0) .LockUnknown
  reject (l.settled = true) .AlreadySettled
  reject (msg.sender ≠ l.beneficiary) .NotBeneficiary
  reject (l.deadline.toNat ≤ msg.timestamp) .Expired
  let recovered ← expect (LockBinding.addressOfScalarTimesG D.machine t) .NonCanonicalScalar
  reject (recovered = 0 ∨ recovered ≠ l.adaptorAddress) .WrongSecret
  modify fun w => w.setLock lockId { l with settled := true }
  emit (.Claimed lockId l.binding l.beneficiary t)
  payout D l.beneficiary l.asset l.amount

def refund (lockId : Digest32) : ContractM Unit := do
  let w ← get
  let l := w.lockOf lockId
  reject (l.funder = 0) .LockUnknown
  reject (l.settled = true) .AlreadySettled
  reject (msg.timestamp < l.deadline.toNat) .NotExpired
  modify fun w => w.setLock lockId { l with settled := true }
  emit (.Refunded lockId l.binding l.funder l.amount)
  payout D l.funder l.asset l.amount

/-- `_withdraw`; no requested amount means the whole credit. -/
def withdrawCredit (asset payee : Address) (requested : Option U256) : ContractM Unit := do
  requireSupportedAsset D msg asset
  let w ← get
  let credit := w.credit msg.sender asset
  reject (credit = 0) .NothingToWithdraw
  let amount := requested.getD credit
  reject (credit < amount) (.AmountExceedsCredit credit amount)
  modify fun w => w.setCredit msg.sender asset (credit - amount)
  let delivered ← pullTransfer D payee asset amount
  reject (delivered ≠ amount) .PayoutFailed
  emit (.Withdrawal msg.sender asset payee amount)

def withdrawTo (asset payee : Address) : ContractM Unit := do
  reject (payee = 0) .ZeroAddress
  withdrawCredit D msg asset payee none

def withdrawAmount (asset payee : Address) (amount : U256) : ContractM Unit := do
  reject (payee = 0) .ZeroAddress
  reject (amount = 0) .BadAmount
  withdrawCredit D msg asset payee (some amount)

/-! ## Calls -/

inductive Call where
  | openLock (terms : LockTerms)
  | claim (lockId : Digest32) (t : U256)
  | refund (lockId : Digest32)
  | withdraw (asset : Address)
  | withdrawTo (asset payee : Address)
  | withdrawAmount (asset payee : Address) (amount : U256)
  deriving DecidableEq, Repr

def Call.body : Call → ContractM Unit
  | openLock terms => Evm.openLock D msg terms
  | claim lockId t => Evm.claim D msg lockId t
  | refund lockId => Evm.refund D msg lockId
  | withdraw asset => withdrawCredit D msg asset msg.sender none
  | withdrawTo asset payee => Evm.withdrawTo D msg asset payee
  | withdrawAmount asset payee amount => Evm.withdrawAmount D msg asset payee amount

/-- Only `open` takes value, and the value is there before the code runs. -/
def Call.receive : Call → ContractM Unit
  | openLock _ => do
      let w ← get
      reject (2 ^ 256 ≤ (w.balance 0).toNat + msg.value.toNat) .ImpossibleValue
      modify fun w => w.deposit 0 msg.value
  | _ => reject (msg.value ≠ 0) .NotPayable

def Call.program (call : Call) : ContractM Unit := do
  call.receive msg
  nonReentrant (call.body D msg)

/-- The world after a call that went through. -/
def Call.execute (call : Call) (w : World) (replies : List Reply) : Except Revert World := do
  let (_, w', _) ← call.program D msg w replies
  return w'

end Contract

/-! ## Acts of the outside -/

structure ReplyOf (α : Type) where
  gas : Nat
  ok : Bool
  probe : U256 → Option U256
  takes : U256 → U256
  acts : List α

/-- What anybody can do to the contract, at any time and during any call it makes. -/
inductive Act where
  /-- A direct transfer. -/
  | deposit (asset : Address) (amount : U256)
  /-- A token lowers the contract's balance on its own. -/
  | slash (asset : Address) (amount : U256)
  | call (msg : Message) (request : Call) (replies : List (ReplyOf Act))

section Acts

variable (D : Deployment)

mutual

/-- The world after an act; a reverted call leaves it as it was. -/
def Act.run : Act → World → World
  | .deposit asset amount => fun w => w.deposit asset amount
  | .slash asset amount => fun w => if asset = 0 then w else w.debit asset amount
  | .call msg request replies => fun w => (request.execute D msg w (replyEffects replies)).toOption.getD w

def runActs : List Act → World → World
  | [] => fun w => w
  | act :: rest => fun w => runActs rest (act.run w)

def replyEffects : List (ReplyOf Act) → List Reply
  | [] => []
  | reply :: rest => replyEffect reply :: replyEffects rest

def replyEffect : ReplyOf Act → Reply
  | ⟨gas, ok, probe, takes, acts⟩ => ⟨gas, ok, probe, takes, runActs acts⟩

end

end Acts

end DomProtocol.Evm
