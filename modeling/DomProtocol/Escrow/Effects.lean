import DomProtocol.Escrow.Processor

/-!
# `Escrow.Effects` — what each instruction does to the ledger

One lemma for each instruction says which accounts it took, what it checked about them and which ledger it left.  Later
proofs use these and never take the processor apart again.
-/

namespace DomProtocol.Escrow

open Lib

variable {params : InitializeParamsV1} {funder : AccountInfo}

/-! ## Arithmetic and lists -/

theorem checkedAdd_eq_some {a b c : UInt64} : checkedAdd a b = some c ↔ c.toNat = a.toNat + b.toNat := by
  unfold checkedAdd
  constructor
  · intro h
    split at h
    · rename_i hroom
      cases h
      rw [UInt64.toNat_add, Nat.mod_eq_of_lt hroom]
    · cases h
  · intro h
    have hroom : a.toNat + b.toNat < 2 ^ 64 := h ▸ c.toNat_lt
    rw [if_pos hroom]
    congr 1
    apply UInt64.toNat_inj.mp
    rw [UInt64.toNat_add, Nat.mod_eq_of_lt hroom, h]

theorem checkedSub_eq_some {a b c : UInt64} : checkedSub a b = some c ↔ a.toNat = c.toNat + b.toNat := by
  unfold checkedSub
  constructor
  · intro h
    split at h
    · rename_i hle
      cases h
      rw [UInt64.toNat_sub_of_le _ _ hle]
      have hle' := UInt64.le_iff_toNat_le.mp hle
      omega
    · cases h
  · intro h
    have hle : b ≤ a := UInt64.le_iff_toNat_le.mpr (by omega)
    rw [if_pos hle]
    congr 1
    apply UInt64.toNat_inj.mp
    rw [UInt64.toNat_sub_of_le _ _ hle]
    omega

variable {account : AccountInfo}

@[simp] theorem nextAccountInfo_eq_ok {accounts rest : List AccountInfo} :
    nextAccountInfo accounts = .ok (account, rest) ↔ accounts = account :: rest := by
  cases accounts with
  | nil => exact ⟨nofun, nofun⟩
  | cons first others => simp [nextAccountInfo]

variable {u : Unit}

@[simp] theorem ensureNoExtra_eq_ok {rest : List AccountInfo} : ensureNoExtra rest = .ok u ↔ rest = [] := by
  simp [ensureNoExtra]

@[simp] theorem requireWritable_eq_ok :
    requireWritable account = .ok u ↔ account.isWritable = true := by
  simp [requireWritable]

@[simp] theorem requireSignerWritable_eq_ok :
    requireSignerWritable account = .ok u ↔ account.isSigner = true ∧ account.isWritable = true := by
  simp [requireSignerWritable]

@[simp] theorem requireKey_eq_ok {key : Pubkey} :
    requireKey account key = .ok u ↔ account.key = key := by
  simp [requireKey]

section Ledgers

variable (ledger : Ledger) (key other : Pubkey)

theorem setLamports_apply (lamports : UInt64) : ledger.setLamports key lamports other =
    { ledger other with lamports := if other = key then lamports else (ledger other).lamports } := by
  unfold Ledger.setLamports Ledger.set
  split
  · rename_i heq
    rw [heq]
  · rfl

theorem setData_apply (data : List UInt8) : ledger.setData key data other =
    { ledger other with data := if other = key then data else (ledger other).data } := by
  unfold Ledger.setData Ledger.set
  split
  · rename_i heq
    rw [heq]
  · rfl

end Ledgers

variable {source destination : Pubkey}

theorem moveLamports_eq_ok {ledger ledger' : Ledger} {amount : UInt64}
    (h : moveLamports ledger source destination amount = .ok ledger') :
    (∀ key, OnlyLamports (ledger key) (ledger' key)) ∧
      (ledger' destination).lamports.toNat = (ledger destination).lamports.toNat + amount.toNat ∧
      (source ≠ destination → (ledger source).lamports.toNat = (ledger' source).lamports.toNat + amount.toNat) ∧
      ∀ key, key ≠ source → key ≠ destination → ledger' key = ledger key := by
  simp only [moveLamports, inversion, checkedSub_eq_some, checkedAdd_eq_some] at h
  obtain ⟨newSource, hsou, newDestination, hdest, rfl⟩ := h
  simp only [setLamports_apply]
  refine ⟨fun key => ⟨rfl, rfl⟩, ?_, ?_, ?_⟩
  · simpa using hdest
  · intro hne
    simpa [hne] using hsou
  · intro key hsou' hdest'
    simp [hsou', hdest']

theorem drainAccount_eq_ok {ledger ledger' : Ledger} (h : drainAccount ledger source destination = .ok ledger') :
    (∀ key, OnlyLamports (ledger key) (ledger' key)) ∧
      ∀ key, key ≠ source → (ledger key).lamports ≤ (ledger' key).lamports := by
  simp only [drainAccount, inversion, checkedAdd_eq_some] at h
  obtain ⟨newDestination, hdest, rfl⟩ := h
  simp only [setLamports_apply]
  refine ⟨fun key => ⟨rfl, rfl⟩, fun key hne => ?_⟩
  by_cases heq : key = destination
  · rw [heq]
    apply UInt64.le_iff_toNat_le.mpr
    simp only [if_true]
    omega
  · simp [hne, heq]

section Loading

variable (C : Cluster)

/-- A state account as the program reads it. -/
structure Loaded (ledger : Ledger) (key : Pubkey) (s : EscrowStateV1) : Prop where
  owner : (ledger key).owner = programId
  decoded : EscrowStateV1.decode (ledger key).data = .ok s
  address : key = (stateAddress C s.settlementId).1
  bump : s.stateBump = (stateAddress C s.settlementId).2

/-- A state account as the program writes it. -/
structure Saved (ledger ledger' : Ledger) (key : Pubkey) (s : EscrowStateV1) : Prop where
  valid : s.validate = .ok ()
  length : (ledger key).data.length = stateLen
  written : ledger' = ledger.setData key s.encode

variable {C} {ledger ledger' : Ledger} {account : AccountInfo} {s : EscrowStateV1}

theorem loaded_of_ok (hload : loadState ledger account = .ok s) (hpdas : requireStatePdas C account s = .ok ()) :
    Loaded C ledger account.key s := by
  simp only [loadState, requireOwner, inversion, Decidable.not_not] at hload
  simp only [requireStatePdas, rejectIf_eq_ok, not_or, Decidable.not_not] at hpdas
  exact ⟨hload.2.1, hload.2.2, hpdas.1, hpdas.2⟩

theorem saved_of_ok (h : saveState ledger account s = .ok ledger') : Saved ledger ledger' account.key s := by
  simp only [saveState, inversion, Decidable.not_not] at h
  exact ⟨h.1, h.2.1, h.2.2.symm⟩

end Loading

/-! ## Instructions -/

section Instructions

variable (C : Cluster)

/-- The deposit of an escrow into its vault. -/
inductive Deposited (ledger moved : Ledger) (key : Pubkey) (s : EscrowStateV1) : Prop where
  | native (hkind : s.assetKind = .NativeSol) (hvault : s.vault = (nativeVaultAddress C key).1)
      (hbefore : (ledger s.vault).lamports = C.minimumBalance 0)
      (htransfer : C.systemTransfer ledger s.funder s.vault s.amount = some moved)
      (hafter : (moved s.vault).lamports.toNat = (C.minimumBalance 0).toNat + s.amount.toNat)
  | spl (source : Pubkey) (held empty updated : TokenAccount) (hkind : s.assetKind = .LegacySpl)
      (hvault : s.vault = (tokenVaultAddress C key).1)
      (hsource : tokenAt C ledger source = some held) (hholder : held.owner = s.funder) (hmint : held.mint = s.mint)
      (hempty : tokenAt C ledger s.vault = some empty) (hzero : empty.amount = 0)
      (hauthority : empty.owner = (vaultAuthorityAddress C key).1)
      (htransfer : C.transferChecked ledger source s.mint s.vault s.funder s.amount s.tokenDecimals = some moved)
      (hupdated : C.unpackToken (moved s.vault).data = some updated) (hafter : updated.amount = s.amount)

inductive PaidOut (ledger moved : Ledger) (key : Pubkey) (s : EscrowStateV1) (owner : Pubkey) : Prop where
  | native (hkind : s.assetKind = .NativeSol) (hvault : s.vault = (nativeVaultAddress C key).1)
      (hmove : moveLamports ledger s.vault owner s.amount = .ok moved)
      (hafter : (moved s.vault).lamports = C.minimumBalance 0)
  | spl (destination : Pubkey) (held target : TokenAccount) (hkind : s.assetKind = .LegacySpl)
      (hheld : tokenAt C ledger s.vault = some held) (hauthority : held.owner = (vaultAuthorityAddress C key).1)
      (hamount : held.amount = s.amount)
      (htarget : tokenAt C ledger destination = some target) (hmint : target.mint = s.mint) (howner : target.owner = owner)
      (htransfer : C.transferChecked ledger s.vault s.mint destination (vaultAuthorityAddress C key).1 s.amount
        s.tokenDecimals = some moved)

inductive Emptied (ledger ledger' : Ledger) (key : Pubkey) (s : EscrowStateV1) : Prop where
  | native (drained : Ledger) (hvault : drainAccount ledger (nativeVaultAddress C key).1 s.funder = .ok drained)
      (hstate : drainAccount drained key s.funder = .ok ledger')
  | spl (vault : Pubkey) (held : TokenAccount) (closed : Ledger) (hheld : tokenAt C ledger vault = some held)
      (hauthority : held.owner = (vaultAuthorityAddress C key).1)
      (hclose : C.closeAccount ledger vault s.funder (vaultAuthorityAddress C key).1 = some closed)
      (hstate : drainAccount closed key s.funder = .ok ledger')

structure Fresh (ledger : Ledger) (key : Pubkey) (s : EscrowStateV1) : Prop where
  unused : (ledger key).lamports = 0
  blank : (ledger key).data = [] ∧ ¬ (ledger key).executable = true
  address : key = (stateAddress C s.settlementId).1
  bump : s.stateBump = (stateAddress C s.settlementId).2
  authorityBump : s.authorityBump = (vaultAuthorityAddress C key).2
  status : s.status = .Initialized

inductive Opened (ledger ledger' : Ledger) (key : Pubkey) (s : EscrowStateV1) : Prop where
  | native (created vaulted : Ledger) (hkind : s.assetKind = .NativeSol) (hvault : s.vault = (nativeVaultAddress C key).1)
      (hbump : s.vaultBump = (nativeVaultAddress C key).2)
      (hstate : C.createAccount ledger s.funder key (C.minimumBalance stateLen) stateLen programId = some created)
      (hcreate : C.createAccount created s.funder s.vault (C.minimumBalance 0) 0 programId = some vaulted)
      (hsave : Saved vaulted ledger' key s)
  | spl (mint : Mint) (created vaulted initialized : Ledger) (hkind : s.assetKind = .LegacySpl)
      (hvault : s.vault = (tokenVaultAddress C key).1) (hbump : s.vaultBump = (tokenVaultAddress C key).2)
      (hmint : mintAt C ledger s.mint = some mint) (hdecimals : s.tokenDecimals = mint.decimals)
      (hstate : C.createAccount ledger s.funder key (C.minimumBalance stateLen) stateLen programId = some created)
      (hcreate : C.createAccount created s.funder s.vault (C.minimumBalance 165) 165 splToken = some vaulted)
      (hopening : C.initializeAccount3 vaulted s.vault s.mint (vaultAuthorityAddress C key).1 = some initialized)
      (hsave : Saved initialized ledger' key s)

variable {C} {ledger ledger' : Ledger} {clock : Clock} {accounts : List AccountInfo}

/-- **Opening.** -/
theorem initialize_eq_ok (params) {instruction : EscrowInstructionV1}
    (hinst : instruction = .InitializeNative params ∨ instruction = .InitializeSpl params)
    (h : instruction.run C ledger clock accounts = .ok ledger') : ∃ funder stateAccount rest s,
    accounts = funder :: stateAccount :: rest ∧ Fresh C ledger stateAccount.key s ∧
      Opened C ledger ledger' stateAccount.key s := by
  rcases hinst with rfl | rfl <;> simp only [EscrowInstructionV1.run, initializeNative, initializeSpl, createPdaAccount,
    requireUninitialized, requireOwner, inversion, Prod.exists, nextAccountInfo_eq_ok, requireSignerWritable_eq_ok,
    requireWritable_eq_ok, requireKey_eq_ok, not_or, Decidable.not_not] at h
  · obtain ⟨funder, _, rfl, stateAccount, _, rfl, vaultAccount, _, rfl, system, _, rfl, -, -, -, -, -, ⟨hunu, hblank⟩, -,
      -, hstate, hvlt, created, hcrt, vaulted, hvltd, hsave⟩ := h
    refine ⟨funder, stateAccount, _, initialNative C funder.key stateAccount.key vaultAccount.key params, rfl, ?_, ?_⟩
    · exact ⟨hunu, hblank, hstate, rfl, rfl, rfl⟩
    · exact .native created vaulted rfl hvlt rfl hcrt hvltd (saved_of_ok hsave)
  · obtain ⟨funder, _, rfl, stateAccount, _, rfl, authority, _, rfl, vaultAccount, _, rfl, mintAccount, _, rfl,
      tokenProgram, _, rfl, system, _, rfl, -, -, -, -, hprog, -, hmto, ⟨hunu, hblank⟩, -, -, mint, hmint, -, hstate,
      hauth, hvlt, created, hcrt, vaulted, hvltd, initialized, hinit, hsave⟩ := h
    rw [hprog] at hmto hvltd
    rw [hauth] at hinit
    have hfnd : mintAt C ledger mintAccount.key = some mint := by rw [mintAt, if_pos hmto, hmint]
    refine ⟨funder, stateAccount, _, initialSpl C funder.key stateAccount.key vaultAccount.key mintAccount.key
      tokenProgram.key mint.decimals params, rfl, ?_, ?_⟩
    · exact ⟨hunu, hblank, hstate, rfl, rfl, rfl⟩
    · exact .spl mint created vaulted initialized rfl hvlt rfl hfnd rfl hcrt hvltd hinit (saved_of_ok hsave)

theorem tokenAt_of_unpack {key : Pubkey} {token : TokenAccount} (hown : (ledger key).owner = splToken)
    (hunpack : C.unpackToken (ledger key).data = some token) : tokenAt C ledger key = some token := by
  rw [tokenAt, if_pos hown, hunpack]

variable {stateAccount : AccountInfo} {rest : List AccountInfo} {s : EscrowStateV1}

theorem deposited_of_fundNative (hkind : s.assetKind = .NativeSol)
    (hfnr : funder.key = s.funder) (h : fundNative C ledger funder stateAccount rest s = .ok ledger') :
    Deposited C ledger ledger' stateAccount.key s := by
  simp only [fundNative, validateNativeVault, inversion, Prod.exists, nextAccountInfo_eq_ok, ensureNoExtra_eq_ok,
    requireWritable_eq_ok, requireKey_eq_ok, checkedAdd_eq_some, not_or, Decidable.not_not] at h
  obtain ⟨vault, _, -, system, _, -, -, -, -, ⟨hvlt, -, hsto, -, -⟩, hbef, moved, htrf, expected, hexp,
    haft, rfl⟩ := h
  rw [hfnr] at htrf
  rw [hsto] at hvlt hbef htrf haft
  exact .native hkind hvlt hbef htrf (haft ▸ hexp)

theorem deposited_of_fundSpl (hkind : s.assetKind = .LegacySpl)
    (hfnr : funder.key = s.funder) (h : fundSpl C ledger funder stateAccount rest s = .ok ledger') :
    Deposited C ledger ledger' stateAccount.key s := by
  simp only [fundSpl, validateTokenAccounts, validateVaultTokenKey, unpackTokenAccount, inversion, Prod.exists,
    nextAccountInfo_eq_ok, ensureNoExtra_eq_ok, requireWritable_eq_ok, requireKey_eq_ok, not_or,
    Decidable.not_not] at h
  obtain ⟨source, _, -, vault, _, -, mint, _, -, tokenProgram, _, -, -, -, -,
    ⟨hprog, hmint, ⟨hvlt, -, hsto⟩, ⟨hsoo, hvown⟩, held, hheld, ⟨hhdr, hhlm, -⟩, empty, hemp,
      ⟨hauth, -⟩⟩, current, hcur, hzero, moved, htrf, updated, hupd, haft, rfl⟩ := h
  obtain rfl : current = empty := Option.some.inj (hcur.symm.trans hemp)
  rw [hprog] at hsoo hvown
  rw [hmint] at hhlm htrf
  rw [hfnr] at hhdr htrf
  rw [hsto] at hvlt hvown hemp htrf hupd
  exact .spl source.key held current updated hkind hvlt (tokenAt_of_unpack hsoo hheld) hhdr hhlm
    (tokenAt_of_unpack hvown hemp) hzero hauth htrf hupd haft

/-- **Funding.** -/
theorem fund_eq_ok (h : fund C ledger accounts = .ok ledger') : ∃ funder stateAccount rest s moved,
    accounts = funder :: stateAccount :: rest ∧ funder.isSigner = true ∧ Loaded C ledger stateAccount.key s ∧
      funder.key = s.funder ∧ s.status = .Initialized ∧ Deposited C ledger moved stateAccount.key s ∧
      Saved moved ledger' stateAccount.key { s with fundedAmount := s.amount, status := .Funded } := by
  simp only [fund, inversion, Prod.exists, nextAccountInfo_eq_ok, requireSignerWritable_eq_ok, requireWritable_eq_ok,
    requireKey_eq_ok, not_or, Decidable.not_not] at h
  obtain ⟨funder, _, rfl, stateAccount, rest, rfl, ⟨hsgr, -⟩, -, s, hload, hpdas, hfnr, ⟨hstat, -⟩, moved, hmove,
    hsave⟩ := h
  refine ⟨funder, stateAccount, rest, s, moved, rfl, hsgr, loaded_of_ok hload hpdas, hfnr, hstat, ?_,
    saved_of_ok hsave⟩
  unfold fundAsset at hmove
  split at hmove
  · rename_i hkind
    exact deposited_of_fundNative hkind hfnr hmove
  · rename_i hkind
    exact deposited_of_fundSpl hkind hfnr hmove

theorem paidOut_of_terminalTransfer {rest' : List AccountInfo} {refund : Bool}
    (h : terminalTransfer C ledger rest stateAccount s refund = .ok (rest', ledger')) :
    PaidOut C ledger ledger' stateAccount.key s (if refund then s.refundRecipient else s.recipient) := by
  unfold terminalTransfer at h
  generalize (if refund then s.refundRecipient else s.recipient) = owner at h ⊢
  dsimp only at h
  split at h
  · rename_i hkind
    simp only [terminalNative, validateNativeVault, inversion, Prod.exists, nextAccountInfo_eq_ok,
      requireWritable_eq_ok, requireKey_eq_ok, not_or, Decidable.not_not, Prod.mk.injEq] at h
    obtain ⟨vault, _, -, destination, _, -, -, -, hdest, ⟨hvlt, -, hsto, -, -⟩, moved, hmove, haft, -, rfl⟩ := h
    rw [hdest] at hmove
    rw [hsto] at hvlt hmove haft
    exact .native hkind hvlt hmove haft
  · rename_i hkind
    simp only [terminalSpl, validateVaultAuthority, validateVaultToken, unpackTokenAccount, inversion, Prod.exists,
      nextAccountInfo_eq_ok, requireWritable_eq_ok, requireKey_eq_ok, not_or, Decidable.not_not, Prod.mk.injEq] at h
    obtain ⟨authority, _, -, vault, _, -, destination, _, -, mint, _, -, tokenProgram, _, -, -, -, hprog, hmint,
      ⟨hauth, -⟩, ⟨⟨hsto, hvown⟩, held, hheld, hhlo, -, hamt⟩, target, htgt,
      ⟨htgto, htgtm, hown⟩, moved, htrf, _, -, -, -, rfl⟩ := h
    rw [hprog] at hvown htgto
    rw [hsto] at hvown hheld htrf
    rw [hmint] at htgtm htrf
    rw [hauth] at hhlo htrf
    exact .spl destination.key held target hkind (tokenAt_of_unpack hvown hheld) hhlo hamt
      (tokenAt_of_unpack htgto htgt) htgtm hown htrf

/-- **Claim.** -/
theorem claim_eq_ok {secret : Digest32} (h : claim C ledger clock accounts secret = .ok ledger') :
    ∃ stateAccount rest s moved, accounts = stateAccount :: rest ∧ Loaded C ledger stateAccount.key s ∧
      s.status = .Funded ∧ verifySharedSecret C secret s.claimPointEd25519 = .ok () ∧
      PaidOut C ledger moved stateAccount.key s s.recipient ∧ Saved moved ledger' stateAccount.key { s with
        status := .Claimed, fundedAmount := 0, revealedSecretBe := secret, terminalSlot := clock.slot } := by
  simp only [claim, inversion, Prod.exists, nextAccountInfo_eq_ok, ensureNoExtra_eq_ok, not_or,
    Decidable.not_not] at h
  obtain ⟨stateAccount, rest, rfl, s, hload, hpdas, ⟨hstat, -⟩, hsec, _, moved, hpaid, -, hsave⟩ := h
  exact ⟨stateAccount, rest, s, moved, rfl, loaded_of_ok hload hpdas, hstat, hsec,
    paidOut_of_terminalTransfer hpaid, saved_of_ok hsave⟩

/-- **Refund.** -/
theorem refund_eq_ok (h : refund C ledger clock accounts = .ok ledger') :
    ∃ stateAccount rest s moved, accounts = stateAccount :: rest ∧ Loaded C ledger stateAccount.key s ∧
      s.status = .Funded ∧ s.refundAfterUnix ≤ clock.unixTimestamp ∧
      PaidOut C ledger moved stateAccount.key s s.refundRecipient ∧ Saved moved ledger' stateAccount.key { s with
        status := .Refunded, fundedAmount := 0, revealedSecretBe := 0, terminalSlot := clock.slot } := by
  simp only [refund, inversion, Prod.exists, nextAccountInfo_eq_ok, ensureNoExtra_eq_ok, not_or,
    Decidable.not_not] at h
  obtain ⟨stateAccount, rest, rfl, s, hload, hpdas, ⟨hstat, -⟩, htime, _, moved, hpaid, -, hsave⟩ := h
  exact ⟨stateAccount, rest, s, moved, rfl, loaded_of_ok hload hpdas, hstat, Int64.not_lt.mp htime,
    paidOut_of_terminalTransfer hpaid, saved_of_ok hsave⟩

/-- **Closing.** -/
theorem close_eq_ok (h : close C ledger accounts = .ok ledger') : ∃ stateAccount rest s,
    accounts = stateAccount :: rest ∧ Loaded C ledger stateAccount.key s ∧ Emptied C ledger ledger' stateAccount.key s := by
  simp only [close, inversion, Prod.exists, nextAccountInfo_eq_ok] at h
  obtain ⟨stateAccount, rest, rfl, s, hload, hpdas, -, h⟩ := h
  refine ⟨stateAccount, rest, s, rfl, loaded_of_ok hload hpdas, ?_⟩
  split at h
  · simp only [closeNative, validateNativeVault, inversion, Prod.exists, nextAccountInfo_eq_ok, ensureNoExtra_eq_ok,
      requireWritable_eq_ok, requireKey_eq_ok, not_or, Decidable.not_not] at h
    obtain ⟨vault, _, -, funder, _, -, -, -, -, hfnr, ⟨hvlt, -⟩, drained, hdrn, hstate⟩ := h
    rw [hvlt, hfnr] at hdrn
    rw [hfnr] at hstate
    exact .native drained hdrn hstate
  · simp only [closeSpl, validateVaultAuthority, unpackTokenAccount, inversion, Prod.exists, nextAccountInfo_eq_ok,
      ensureNoExtra_eq_ok, requireWritable_eq_ok, requireKey_eq_ok, not_or, Decidable.not_not] at h
    obtain ⟨authority, _, -, vault, _, -, funder, _, -, tokenProgram, _, -, -, -, -, hfnr, hprog, ⟨hauth, -⟩,
      held, hheld, ⟨hvown, hhlo, -⟩, closed, hcls, hstate⟩ := h
    rw [hprog] at hvown
    rw [hauth] at hhlo hcls
    rw [hfnr] at hcls hstate
    exact .spl vault.key held closed (tokenAt_of_unpack hvown hheld) hhlo hcls hstate

end Instructions

end DomProtocol.Escrow
