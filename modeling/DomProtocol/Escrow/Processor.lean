import DomProtocol.Escrow.Runtime

/-!
# `Escrow.Processor` — the instruction processor of the Solana escrow program

Every instruction takes its accounts from the list the caller gives, in order, checks each of them and writes the ledger.
A result is the ledger after the instruction; after an error the runtime keeps the ledger as it was.
-/

namespace DomProtocol.Escrow

open Lib

inductive EscrowProgramError where
  | InvalidInstruction
  | InvalidAccounts
  | MissingSignature
  | InvalidOwner
  | InvalidPda
  | InvalidState
  | InvalidAmount
  | InvalidSecret
  | TimelockNotReached
  | Arithmetic
  | AlreadyInitialized
  | TokenAccountRejected
  deriving DecidableEq, Repr

inductive ProgramError where
  | Custom (error : EscrowProgramError)
  | NotEnoughAccountKeys
  /-- An error of an invoked program. -/
  | Invoked
  deriving DecidableEq, Repr

abbrev ProgramM := Except ProgramError

def checkedAdd (a b : UInt64) : Option UInt64 := if a.toNat + b.toNat < 2 ^ 64 then some (a + b) else none

def checkedSub (a b : UInt64) : Option UInt64 := if b ≤ a then some (a - b) else none

/-! ## Account lists -/

def nextAccountInfo : List AccountInfo → ProgramM (AccountInfo × List AccountInfo)
  | [] => throw .NotEnoughAccountKeys
  | account :: rest => return (account, rest)

def ensureNoExtra (rest : List AccountInfo) : ProgramM Unit := rejectIf (rest ≠ []) (.Custom .InvalidAccounts)

variable (C : Cluster) (ledger : Ledger) (account : AccountInfo)

def requireWritable : ProgramM Unit :=
  rejectIf (account.isWritable = false) (.Custom .InvalidAccounts)

def requireSignerWritable : ProgramM Unit := do
  rejectIf (account.isSigner = false) (.Custom .MissingSignature)
  requireWritable account

def requireKey (key : Pubkey) : ProgramM Unit :=
  rejectIf (account.key ≠ key) (.Custom .InvalidAccounts)

def requireOwner (owner : Pubkey) : ProgramM Unit :=
  rejectIf ((ledger account.key).owner ≠ owner) (.Custom .InvalidOwner)

def requireUninitialized : ProgramM Unit :=
  rejectIf ((ledger account.key).lamports ≠ 0 ∨ (ledger account.key).data ≠ [] ∨ (ledger account.key).executable = true)
    (.Custom .AlreadyInitialized)

def requireFutureDeadline (clock : Clock) (deadline : Int64) : ProgramM Unit :=
  rejectIf (deadline ≤ clock.unixTimestamp) (.Custom .InvalidState)

/-! ## Balances and state -/

def moveLamports (source destination : Pubkey) (amount : UInt64) : ProgramM Ledger := do
  let newSource ← okOr (checkedSub (ledger source).lamports amount) (.Custom .Arithmetic)
  let newDestination ← okOr (checkedAdd (ledger destination).lamports amount) (.Custom .Arithmetic)
  return (ledger.setLamports source newSource).setLamports destination newDestination

def drainAccount (source destination : Pubkey) : ProgramM Ledger := do
  let newDestination ← okOr (checkedAdd (ledger destination).lamports (ledger source).lamports) (.Custom .Arithmetic)
  return (ledger.setLamports source 0).setLamports destination newDestination

def loadState : ProgramM EscrowStateV1 := do
  requireWritable account
  requireOwner ledger account programId
  (EscrowStateV1.decode (ledger account.key).data).mapError fun _ => .Custom .InvalidState

def saveState (state : EscrowStateV1) : ProgramM Ledger := do
  state.validate.mapError fun _ => .Custom .InvalidState
  rejectIf ((ledger account.key).data.length ≠ stateLen) (.Custom .InvalidState)
  return ledger.setData account.key state.encode

def stateAddress (settlementId : Digest32) : Pubkey × UInt8 :=
  C.findProgramAddress [stateSeed, hashBytes settlementId]

def nativeVaultAddress (stateKey : Pubkey) : Pubkey × UInt8 :=
  C.findProgramAddress [nativeVaultSeed, hashBytes stateKey]

def tokenVaultAddress (stateKey : Pubkey) : Pubkey × UInt8 :=
  C.findProgramAddress [tokenVaultSeed, hashBytes stateKey]

def vaultAuthorityAddress (stateKey : Pubkey) : Pubkey × UInt8 :=
  C.findProgramAddress [vaultAuthoritySeed, hashBytes stateKey]

def unpackTokenAccount : ProgramM TokenAccount :=
  okOr (C.unpackToken (ledger account.key).data) (.Custom .TokenAccountRejected)

def requireStatePdas (stateAccount : AccountInfo) (state : EscrowStateV1) : ProgramM Unit :=
  rejectIf (stateAccount.key ≠ (stateAddress C state.settlementId).1 ∨
    state.stateBump ≠ (stateAddress C state.settlementId).2) (.Custom .InvalidPda)

def validateNativeVault (stateAccount vault : AccountInfo) (state : EscrowStateV1) : ProgramM Unit :=
  rejectIf (vault.key ≠ (nativeVaultAddress C stateAccount.key).1 ∨
    state.vaultBump ≠ (nativeVaultAddress C stateAccount.key).2 ∨ vault.key ≠ state.vault ∨
    (ledger vault.key).owner ≠ programId ∨ (ledger vault.key).data ≠ []) (.Custom .InvalidPda)

def validateVaultTokenKey (stateAccount vault : AccountInfo) (state : EscrowStateV1) : ProgramM Unit :=
  rejectIf (vault.key ≠ (tokenVaultAddress C stateAccount.key).1 ∨
    state.vaultBump ≠ (tokenVaultAddress C stateAccount.key).2 ∨ vault.key ≠ state.vault) (.Custom .InvalidPda)

def validateVaultAuthority (stateAccount authority : AccountInfo) (state : EscrowStateV1) : ProgramM Unit :=
  rejectIf (authority.key ≠ (vaultAuthorityAddress C stateAccount.key).1 ∨
    state.authorityBump ≠ (vaultAuthorityAddress C stateAccount.key).2) (.Custom .InvalidPda)

def validateVaultToken (vault authority mint tokenProgram : AccountInfo) (state : EscrowStateV1) : ProgramM Unit := do
  rejectIf (vault.key ≠ state.vault ∨ (ledger vault.key).owner ≠ tokenProgram.key) (.Custom .TokenAccountRejected)
  let token ← unpackTokenAccount C ledger vault
  rejectIf (token.owner ≠ authority.key ∨ token.mint ≠ mint.key ∨ token.amount ≠ state.amount)
    (.Custom .TokenAccountRejected)

def validateTokenAccounts (funder stateAccount source vault mint tokenProgram : AccountInfo)
    (state : EscrowStateV1) : ProgramM Unit := do
  requireKey tokenProgram splToken
  requireKey mint state.mint
  validateVaultTokenKey C stateAccount vault state
  rejectIf ((ledger source.key).owner ≠ tokenProgram.key ∨ (ledger vault.key).owner ≠ tokenProgram.key)
    (.Custom .TokenAccountRejected)
  let sourceState ← unpackTokenAccount C ledger source
  rejectIf (sourceState.owner ≠ funder.key ∨ sourceState.mint ≠ mint.key ∨ sourceState.amount < state.amount)
    (.Custom .TokenAccountRejected)
  let vaultState ← unpackTokenAccount C ledger vault
  rejectIf (vaultState.owner ≠ (vaultAuthorityAddress C stateAccount.key).1 ∨ vaultState.mint ≠ mint.key)
    (.Custom .TokenAccountRejected)

def createPdaAccount (payer account : AccountInfo) (lamports : UInt64) (space : Nat)
    (owner : Pubkey) : ProgramM Ledger :=
  okOr (C.createAccount ledger payer.key account.key lamports space owner) .Invoked

/-! ## Initialization -/

/-- The first state of an escrow of lamports. -/
def initialNative (funder stateKey vault : Pubkey) (params : InitializeParamsV1) : EscrowStateV1 where
  status := .Initialized
  assetKind := .NativeSol
  stateBump := (stateAddress C params.settlementId).2
  vaultBump := (nativeVaultAddress C stateKey).2
  authorityBump := (vaultAuthorityAddress C stateKey).2
  tokenDecimals := 0
  settlementId := params.settlementId
  termsHash := params.termsHash
  setupId := params.setupId
  funder := funder
  recipient := params.recipient
  refundRecipient := params.refundRecipient
  tokenProgram := 0
  mint := 0
  vault := vault
  domAdaptorPoint := params.domAdaptorPoint
  claimPointEd25519 := params.claimPointEd25519
  amount := params.amount
  fundedAmount := 0
  refundAfterUnix := params.refundAfterUnix
  terminalSlot := 0
  revealedSecretBe := 0

/-- The first state of an escrow of tokens. -/
def initialSpl (funder stateKey vault mint tokenProgram : Pubkey) (decimals : UInt8) (params : InitializeParamsV1) :
    EscrowStateV1 where
  status := .Initialized
  assetKind := .LegacySpl
  stateBump := (stateAddress C params.settlementId).2
  vaultBump := (tokenVaultAddress C stateKey).2
  authorityBump := (vaultAuthorityAddress C stateKey).2
  tokenDecimals := decimals
  settlementId := params.settlementId
  termsHash := params.termsHash
  setupId := params.setupId
  funder := funder
  recipient := params.recipient
  refundRecipient := params.refundRecipient
  tokenProgram := tokenProgram
  mint := mint
  vault := vault
  domAdaptorPoint := params.domAdaptorPoint
  claimPointEd25519 := params.claimPointEd25519
  amount := params.amount
  fundedAmount := 0
  refundAfterUnix := params.refundAfterUnix
  terminalSlot := 0
  revealedSecretBe := 0

variable (clock : Clock) (accounts : List AccountInfo)

def initializeNative (params : InitializeParamsV1) : ProgramM Ledger := do
  let (funder, rest) ← nextAccountInfo accounts
  let (stateAccount, rest) ← nextAccountInfo rest
  let (vaultAccount, rest) ← nextAccountInfo rest
  let (system, rest) ← nextAccountInfo rest
  ensureNoExtra rest
  requireSignerWritable funder
  requireWritable stateAccount
  requireWritable vaultAccount
  requireKey system systemProgram
  requireUninitialized ledger stateAccount
  requireUninitialized ledger vaultAccount
  requireFutureDeadline clock params.refundAfterUnix
  requireKey stateAccount (stateAddress C params.settlementId).1
  requireKey vaultAccount (nativeVaultAddress C stateAccount.key).1
  let ledger ← createPdaAccount C ledger funder stateAccount (C.minimumBalance stateLen) stateLen programId
  let ledger ← createPdaAccount C ledger funder vaultAccount (C.minimumBalance 0) 0 programId
  saveState ledger stateAccount (initialNative C funder.key stateAccount.key vaultAccount.key params)

def initializeSpl (params : InitializeParamsV1) : ProgramM Ledger := do
  let (funder, rest) ← nextAccountInfo accounts
  let (stateAccount, rest) ← nextAccountInfo rest
  let (authority, rest) ← nextAccountInfo rest
  let (vaultAccount, rest) ← nextAccountInfo rest
  let (mintAccount, rest) ← nextAccountInfo rest
  let (tokenProgram, rest) ← nextAccountInfo rest
  let (system, rest) ← nextAccountInfo rest
  ensureNoExtra rest
  requireSignerWritable funder
  requireWritable stateAccount
  requireWritable vaultAccount
  requireKey tokenProgram splToken
  requireKey system systemProgram
  requireOwner ledger mintAccount tokenProgram.key
  requireUninitialized ledger stateAccount
  requireUninitialized ledger vaultAccount
  requireFutureDeadline clock params.refundAfterUnix
  let mint ← okOr (C.unpackMint (ledger mintAccount.key).data) (.Custom .TokenAccountRejected)
  rejectIf (mint.isInitialized = false) (.Custom .TokenAccountRejected)
  requireKey stateAccount (stateAddress C params.settlementId).1
  requireKey authority (vaultAuthorityAddress C stateAccount.key).1
  requireKey vaultAccount (tokenVaultAddress C stateAccount.key).1
  let ledger ← createPdaAccount C ledger funder stateAccount (C.minimumBalance stateLen) stateLen programId
  -- 165 is the length of a token account
  let ledger ← createPdaAccount C ledger funder vaultAccount (C.minimumBalance 165) 165 tokenProgram.key
  let ledger ← okOr (C.initializeAccount3 ledger vaultAccount.key mintAccount.key authority.key) .Invoked
  saveState ledger stateAccount
    (initialSpl C funder.key stateAccount.key vaultAccount.key mintAccount.key tokenProgram.key mint.decimals params)

/-! ## Funding -/

section Fund

variable (funder stateAccount : AccountInfo) (rest : List AccountInfo) (state : EscrowStateV1)

def fundNative : ProgramM Ledger := do
  let (vault, rest) ← nextAccountInfo rest
  let (system, rest) ← nextAccountInfo rest
  ensureNoExtra rest
  requireWritable vault
  requireKey system systemProgram
  validateNativeVault C ledger stateAccount vault state
  rejectIf ((ledger vault.key).lamports ≠ C.minimumBalance 0) (.Custom .InvalidAmount)
  let ledger ← okOr (C.systemTransfer ledger funder.key vault.key state.amount) .Invoked
  let expected ← okOr (checkedAdd (C.minimumBalance 0) state.amount) (.Custom .Arithmetic)
  rejectIf ((ledger vault.key).lamports ≠ expected) (.Custom .InvalidAmount)
  return ledger

def fundSpl : ProgramM Ledger := do
  let (source, rest) ← nextAccountInfo rest
  let (vault, rest) ← nextAccountInfo rest
  let (mint, rest) ← nextAccountInfo rest
  let (tokenProgram, rest) ← nextAccountInfo rest
  ensureNoExtra rest
  requireWritable source
  requireWritable vault
  validateTokenAccounts C ledger funder stateAccount source vault mint tokenProgram state
  let current ← unpackTokenAccount C ledger vault
  rejectIf (current.amount ≠ 0) (.Custom .InvalidAmount)
  let ledger ← okOr (C.transferChecked ledger source.key mint.key vault.key funder.key state.amount state.tokenDecimals)
    .Invoked
  let updated ← unpackTokenAccount C ledger vault
  rejectIf (updated.amount ≠ state.amount) (.Custom .InvalidAmount)
  return ledger

def fundAsset : ProgramM Ledger :=
  match state.assetKind with
  | .NativeSol => fundNative C ledger funder stateAccount rest state
  | .LegacySpl => fundSpl C ledger funder stateAccount rest state

end Fund

def fund : ProgramM Ledger := do
  let (funder, rest) ← nextAccountInfo accounts
  let (stateAccount, rest) ← nextAccountInfo rest
  requireSignerWritable funder
  requireWritable stateAccount
  let state ← loadState ledger stateAccount
  requireStatePdas C stateAccount state
  requireKey funder state.funder
  rejectIf (state.status ≠ .Initialized ∨ state.fundedAmount ≠ 0) (.Custom .InvalidState)
  let ledger ← fundAsset C ledger funder stateAccount rest state
  saveState ledger stateAccount { state with fundedAmount := state.amount, status := .Funded }

/-! ## Claim and refund -/

/-- Verify `secret * G_ed25519 == expected`, using Solana's curve syscall. -/
def verifySharedSecret (secretBigEndian expected : Digest32) : ProgramM Unit := do
  rejectIf (secretBigEndian = 0 ∨ expected = 0) (.Custom .InvalidSecret)
  let littleEndian := (hashBytes secretBigEndian).reverse
  -- the same domain as off-chain: 252 bits
  rejectIf (littleEndian.getD 31 0 &&& 0xf0 ≠ 0) (.Custom .InvalidSecret)
  let point ← okOr (C.multiplyEdwards littleEndian ed25519Basepoint) (.Custom .InvalidSecret)
  rejectIf (point ≠ expected) (.Custom .InvalidSecret)

section Terminal

variable (rest : List AccountInfo) (stateAccount : AccountInfo) (state : EscrowStateV1)

def terminalNative (destinationOwner : Pubkey) : ProgramM (List AccountInfo × Ledger) := do
  let (vault, rest) ← nextAccountInfo rest
  let (destination, rest) ← nextAccountInfo rest
  requireWritable vault
  requireWritable destination
  requireKey destination destinationOwner
  validateNativeVault C ledger stateAccount vault state
  let ledger ← moveLamports ledger vault.key destination.key state.amount
  rejectIf ((ledger vault.key).lamports ≠ C.minimumBalance 0) (.Custom .InvalidAmount)
  return (rest, ledger)

def terminalSpl (destinationOwner : Pubkey) : ProgramM (List AccountInfo × Ledger) := do
  let (authority, rest) ← nextAccountInfo rest
  let (vault, rest) ← nextAccountInfo rest
  let (destination, rest) ← nextAccountInfo rest
  let (mint, rest) ← nextAccountInfo rest
  let (tokenProgram, rest) ← nextAccountInfo rest
  requireWritable vault
  requireWritable destination
  requireKey tokenProgram splToken
  requireKey mint state.mint
  validateVaultAuthority C stateAccount authority state
  validateVaultToken C ledger vault authority mint tokenProgram state
  let destinationState ← unpackTokenAccount C ledger destination
  rejectIf ((ledger destination.key).owner ≠ tokenProgram.key ∨ destinationState.mint ≠ mint.key ∨
    destinationState.owner ≠ destinationOwner) (.Custom .TokenAccountRejected)
  let ledger ← okOr (C.transferChecked ledger vault.key mint.key destination.key authority.key state.amount
    state.tokenDecimals) .Invoked
  let updated ← unpackTokenAccount C ledger vault
  rejectIf (updated.amount ≠ 0) (.Custom .InvalidAmount)
  return (rest, ledger)

def terminalTransfer (refund : Bool) : ProgramM (List AccountInfo × Ledger) :=
  let destinationOwner := if refund then state.refundRecipient else state.recipient
  match state.assetKind with
  | .NativeSol => terminalNative C ledger rest stateAccount state destinationOwner
  | .LegacySpl => terminalSpl C ledger rest stateAccount state destinationOwner

end Terminal

def claim (revealedSecretBe : Digest32) : ProgramM Ledger := do
  let (stateAccount, rest) ← nextAccountInfo accounts
  let state ← loadState ledger stateAccount
  requireStatePdas C stateAccount state
  rejectIf (state.status ≠ .Funded ∨ state.fundedAmount ≠ state.amount) (.Custom .InvalidState)
  verifySharedSecret C revealedSecretBe state.claimPointEd25519
  let (rest, ledger) ← terminalTransfer C ledger rest stateAccount state false
  ensureNoExtra rest
  saveState ledger stateAccount { state with
    status := .Claimed, fundedAmount := 0, revealedSecretBe := revealedSecretBe, terminalSlot := clock.slot }

def refund : ProgramM Ledger := do
  let (stateAccount, rest) ← nextAccountInfo accounts
  let state ← loadState ledger stateAccount
  requireStatePdas C stateAccount state
  rejectIf (state.status ≠ .Funded ∨ state.fundedAmount ≠ state.amount) (.Custom .InvalidState)
  rejectIf (clock.unixTimestamp < state.refundAfterUnix) (.Custom .TimelockNotReached)
  let (rest, ledger) ← terminalTransfer C ledger rest stateAccount state true
  ensureNoExtra rest
  saveState ledger stateAccount { state with
    status := .Refunded, fundedAmount := 0, revealedSecretBe := 0, terminalSlot := clock.slot }

/-! ## Closing -/

def closeNative (stateAccount : AccountInfo) (rest : List AccountInfo) (state : EscrowStateV1) : ProgramM Ledger := do
  let (vault, rest) ← nextAccountInfo rest
  let (funder, rest) ← nextAccountInfo rest
  ensureNoExtra rest
  requireWritable vault
  requireWritable funder
  requireKey funder state.funder
  validateNativeVault C ledger stateAccount vault state
  let ledger ← drainAccount ledger vault.key funder.key
  drainAccount ledger stateAccount.key funder.key

/-- Any empty token account of the vault authority is accepted as the vault here. -/
def closeSpl (stateAccount : AccountInfo) (rest : List AccountInfo) (state : EscrowStateV1) : ProgramM Ledger := do
  let (authority, rest) ← nextAccountInfo rest
  let (vault, rest) ← nextAccountInfo rest
  let (funder, rest) ← nextAccountInfo rest
  let (tokenProgram, rest) ← nextAccountInfo rest
  ensureNoExtra rest
  requireWritable vault
  requireWritable funder
  requireKey funder state.funder
  requireKey tokenProgram splToken
  validateVaultAuthority C stateAccount authority state
  let vaultState ← unpackTokenAccount C ledger vault
  rejectIf ((ledger vault.key).owner ≠ tokenProgram.key ∨ vaultState.owner ≠ authority.key ∨ vaultState.amount ≠ 0)
    (.Custom .TokenAccountRejected)
  let ledger ← okOr (C.closeAccount ledger vault.key funder.key authority.key) .Invoked
  drainAccount ledger stateAccount.key funder.key

def close : ProgramM Ledger := do
  let (stateAccount, rest) ← nextAccountInfo accounts
  let state ← loadState ledger stateAccount
  requireStatePdas C stateAccount state
  rejectIf (state.status ≠ .Claimed ∧ state.status ≠ .Refunded) (.Custom .InvalidState)
  match state.assetKind with
  | .NativeSol => closeNative C ledger stateAccount rest state
  | .LegacySpl => closeSpl C ledger stateAccount rest state

/-! ## Instructions -/

def EscrowInstructionV1.run : EscrowInstructionV1 → ProgramM Ledger
  | InitializeNative params => initializeNative C ledger clock accounts params
  | InitializeSpl params => initializeSpl C ledger clock accounts params
  | Fund => fund C ledger accounts
  | Claim revealedSecretBe => claim C ledger clock accounts revealedSecretBe
  | Refund => refund C ledger clock accounts
  | Close => close C ledger accounts

def process (id : Pubkey) (ledger : Ledger) (clock : Clock) (accounts : List AccountInfo) (data : List UInt8) :
    ProgramM Ledger := do
  rejectIf (id ≠ programId) (.Custom .InvalidAccounts)
  let instruction ← (EscrowInstructionV1.decode data).mapError fun _ => .Custom .InvalidInstruction
  instruction.run C ledger clock accounts

end DomProtocol.Escrow
