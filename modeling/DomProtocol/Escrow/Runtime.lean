import DomProtocol.Escrow.Wire

/-!
# `Escrow.Runtime` — accounts, and what the program calls outside itself

The ledger gives every address its account; an instruction names accounts by address, so two mentions of one address are
one account.  The system program, the token program, the address derivation, the rent and the curve syscall are not part
of the program: they are the operations of a `Cluster`, and `Lawful` says what is relied on about them.  `Foreign` says
what the instructions of all other programs can do to accounts that the escrow program or its derived addresses own.
-/

namespace DomProtocol.Escrow

open Lib

/-! ## Accounts -/

structure Account where
  lamports : UInt64
  data : List UInt8
  owner : Pubkey
  executable : Bool
  deriving DecidableEq, Repr

abbrev Ledger := Pubkey → Account

namespace Ledger

def set (ledger : Ledger) (key : Pubkey) (account : Account) : Ledger :=
  fun other => if other = key then account else ledger other

def setLamports (ledger : Ledger) (key : Pubkey) (lamports : UInt64) : Ledger :=
  ledger.set key { ledger key with lamports }

def setData (ledger : Ledger) (key : Pubkey) (data : List UInt8) : Ledger := ledger.set key { ledger key with data }

end Ledger

/-- An account as an instruction names it. -/
structure AccountInfo where
  key : Pubkey
  isSigner : Bool
  isWritable : Bool
  deriving DecidableEq, Repr

structure Clock where
  slot : UInt64
  unixTimestamp : Int64
  deriving DecidableEq, Repr

def programId : Pubkey := 0x226ba939f1ce8f2a9372254b4f571b0c2460baf05197aa3440f55a7f554f207c

def systemProgram : Pubkey := 0

/-- The id of the classic SPL Token program. -/
def splToken : Pubkey := 0x06ddf6e1d765a193d9cbe146ceeb79ac1cb485ed5f5b37913a8cf5857eff00a9

/-- The fields of a token account that matter here. -/
structure TokenAccount where
  mint : Pubkey
  owner : Pubkey
  amount : UInt64
  delegate : Option Pubkey
  closeAuthority : Option Pubkey
  frozen : Bool
  isNative : Bool
  deriving DecidableEq, Repr

structure Mint where
  decimals : UInt8
  isInitialized : Bool
  deriving DecidableEq, Repr

/-! ## Outside the program -/

/-- What the program calls and does not contain. -/
structure Cluster where
  findProgramAddress : List (List UInt8) → Pubkey × UInt8
  minimumBalance : Nat → UInt64
  /-- The system program: from, to, amount. -/
  systemTransfer : Ledger → Pubkey → Pubkey → UInt64 → Option Ledger
  /-- The system program: payer, new account, lamports, space, owner. -/
  createAccount : Ledger → Pubkey → Pubkey → UInt64 → Nat → Pubkey → Option Ledger
  unpackToken : List UInt8 → Option TokenAccount
  unpackMint : List UInt8 → Option Mint
  /-- The token program: account, mint, owner. -/
  initializeAccount3 : Ledger → Pubkey → Pubkey → Pubkey → Option Ledger
  /-- The token program: source, mint, destination, authority, amount, decimals. -/
  transferChecked : Ledger → Pubkey → Pubkey → Pubkey → Pubkey → UInt64 → UInt8 → Option Ledger
  /-- The token program: account, destination, authority. -/
  closeAccount : Ledger → Pubkey → Pubkey → Pubkey → Option Ledger
  /-- The curve syscall: scalar and point, both as bytes. -/
  multiplyEdwards : List UInt8 → List UInt8 → Option Digest32

/-- Canonical compressed Ed25519 basepoint: `58` followed by 31 bytes `66`. -/
def ed25519Basepoint : List UInt8 := 0x58 :: List.replicate 31 0x66

/-- At most the lamports of an account change. -/
def OnlyLamports (a b : Account) : Prop := b.data = a.data ∧ b.owner = a.owner

/-- The amount is the only part of a token account that a transfer by its owner changes. -/
structure SameHolder (t t' : TokenAccount) : Prop where
  mint : t'.mint = t.mint
  owner : t'.owner = t.owner
  delegate : t.delegate = none → t'.delegate = none
  closeAuthority : t.closeAuthority = none → t'.closeAuthority = none

section Laws

variable (C : Cluster)

def tokenAt (ledger : Ledger) (key : Pubkey) : Option TokenAccount :=
  if (ledger key).owner = splToken then C.unpackToken (ledger key).data else none

def mintAt (ledger : Ledger) (key : Pubkey) : Option Mint :=
  if (ledger key).owner = splToken then C.unpackMint (ledger key).data else none

/-- An address derived for the escrow program; nobody holds a key for it. -/
def IsDerived (key : Pubkey) : Prop := ∃ seeds, (C.findProgramAddress seeds).1 = key

structure LamportsMoved (source destination : Pubkey) (amount : UInt64) (ledger ledger' : Ledger) : Prop where
  owner : (ledger source).owner = systemProgram
  rest : ∀ key, OnlyLamports (ledger key) (ledger' key)
  balance : ∀ key, (ledger' key).lamports.toNat + (if key = source then amount.toNat else 0) =
    (ledger key).lamports.toNat + (if key = destination then amount.toNat else 0)

structure AccountCreated (payer account : Pubkey) (lamports : UInt64) (space : Nat) (owner : Pubkey)
    (ledger ledger' : Ledger) : Prop where
  payerOwner : (ledger payer).owner = systemProgram
  fresh : (ledger account).owner = systemProgram
  created : (ledger' account).lamports = lamports ∧ (ledger' account).data = List.replicate space 0 ∧
    (ledger' account).owner = owner
  paid : payer ≠ account → OnlyLamports (ledger payer) (ledger' payer)
  rest : ∀ key, key ≠ payer → key ≠ account → ledger' key = ledger key

/-- What the initialization of a token account does. -/
structure AccountInitialized (account mint owner : Pubkey) (ledger ledger' : Ledger) : Prop where
  fresh : (ledger account).owner = splToken ∧ C.unpackToken (ledger account).data = none
  initialized : ∃ token, tokenAt C ledger' account = some token ∧ token.mint = mint ∧ token.owner = owner ∧
    token.delegate = none ∧ token.closeAuthority = none
  rest : ∀ key, key ≠ account → ledger' key = ledger key

structure TokensMoved (source mint destination authority : Pubkey) (amount : UInt64) (ledger ledger' : Ledger) : Prop where
  sender : ∃ token, tokenAt C ledger source = some token ∧ token.mint = mint ∧
    (token.owner = authority ∨ token.delegate = some authority)
  receiver : ∃ token, tokenAt C ledger destination = some token ∧ token.mint = mint
  rest : ∀ key, tokenAt C ledger key = none → ledger' key = ledger key
  balance : ∀ key token, tokenAt C ledger key = some token → ∃ token', tokenAt C ledger' key = some token' ∧
    SameHolder token token' ∧
    token'.amount.toNat + (if key = source then amount.toNat else 0) =
      token.amount.toNat + (if key = destination then amount.toNat else 0)

/-- What the closing of a token account does. -/
structure AccountClosed (account destination authority : Pubkey) (ledger ledger' : Ledger) : Prop where
  holder : ∃ token, tokenAt C ledger account = some token ∧
    (token.owner = authority ∨ token.closeAuthority = some authority)
  rest : ∀ key, key ≠ account → OnlyLamports (ledger key) (ledger' key) ∧
    (ledger key).lamports ≤ (ledger' key).lamports

/-- What a checked transfer needs to go through. -/
structure Transferable (source mint destination authority : Pubkey) (amount : UInt64) (decimals : UInt8)
    (ledger : Ledger) : Prop where
  sender : ∃ token, tokenAt C ledger source = some token ∧ token.mint = mint ∧ token.owner = authority ∧
    token.frozen = false ∧ amount ≤ token.amount ∧ (token.isNative → amount ≤ (ledger source).lamports)
  receiver : ∃ token, tokenAt C ledger destination = some token ∧ token.mint = mint ∧ token.frozen = false ∧
    token.amount.toNat + amount.toNat < 2 ^ 64 ∧
    (token.isNative → (ledger destination).lamports.toNat + amount.toNat < 2 ^ 64)
  minted : ∃ found, mintAt C ledger mint = some found ∧ found.decimals = decimals

/-- **What is relied on.**  `point n` is the compressed Ed25519 point of the scalar `n`. -/
structure Lawful (point : Nat → Digest32) : Prop where
  rent : ∀ size, 0 < C.minimumBalance size
  systemTransfer : ∀ ledger source destination amount ledger',
    C.systemTransfer ledger source destination amount = some ledger' →
      LamportsMoved source destination amount ledger ledger'
  createAccount : ∀ ledger payer account lamports space owner ledger',
    C.createAccount ledger payer account lamports space owner = some ledger' →
      AccountCreated payer account lamports space owner ledger ledger'
  initializeAccount3 : ∀ ledger account mint owner ledger',
    C.initializeAccount3 ledger account mint owner = some ledger' → AccountInitialized C account mint owner ledger ledger'
  transferChecked : ∀ ledger source mint destination authority amount decimals ledger',
    C.transferChecked ledger source mint destination authority amount decimals = some ledger' →
      TokensMoved C source mint destination authority amount ledger ledger'
  transferable : ∀ ledger source mint destination authority amount decimals,
    Transferable C source mint destination authority amount decimals ledger →
      ∃ ledger', C.transferChecked ledger source mint destination authority amount decimals = some ledger'
  closeAccount : ∀ ledger account destination authority ledger',
    C.closeAccount ledger account destination authority = some ledger' →
      AccountClosed C account destination authority ledger ledger'
  /-- Token accounts and mints have different sizes. -/
  mints : ∀ data mint, C.unpackMint data = some mint → C.unpackToken data = none
  curve : ∀ scalar, scalar < 2 ^ 252 → C.multiplyEdwards (leBytes 32 scalar) ed25519Basepoint = some (point scalar)

/-- **The instructions of other programs.**  The runtime lets only its owner write or debit an account, an account
without lamports goes away, nobody but the program signs for its derived addresses, and the token program moves tokens
only for the holder, a delegate or a close authority. -/
structure Foreign (ledger ledger' : Ledger) : Prop where
  owned : ∀ key, (ledger key).owner = programId → 0 < (ledger key).lamports →
    OnlyLamports (ledger key) (ledger' key) ∧ (ledger key).lamports ≤ (ledger' key).lamports
  dormant : ∀ key, (ledger key).owner = programId → (ledger key).lamports = 0 →
    OnlyLamports (ledger key) (ledger' key) ∨ (ledger' key).owner = systemProgram
  derived : ∀ key, IsDerived C key → (ledger key).owner = systemProgram → (ledger' key).owner = systemProgram
  tokens : ∀ key token, tokenAt C ledger key = some token → IsDerived C token.owner → token.delegate = none →
    token.closeAuthority = none → ∃ token', tokenAt C ledger' key = some token' ∧ SameHolder token token' ∧
      token.amount ≤ token'.amount
  mints : ∀ key mint, mintAt C ledger key = some mint → ∃ mint', mintAt C ledger' key = some mint' ∧
    mint'.decimals = mint.decimals

end Laws

end DomProtocol.Escrow
