import DomProtocol.Escrow.Custody
import DomProtocol.Lib.Reach

/-!
# `Escrow.Payout` — an escrow from its initialization to its close

The instructions on an escrow itself: funding, claim and refund keep its accounts, move exactly the agreed amount and set
the status.  Along a run every action is recorded with the ledgers before and after it, so that what left the vault, where
it went and how often is read off balances and not off the program's own bookkeeping.
-/

namespace DomProtocol.Escrow

open Lib

section Payout

variable (C : Cluster)

/-! ## Balances -/

/-- What the vault of an escrow holds of its asset. -/
def vaultBalance (ledger : Ledger) (s : EscrowStateV1) : Nat :=
  match s.assetKind with
  | .NativeSol => (ledger s.vault).lamports.toNat
  | .LegacySpl => (tokenAt C ledger s.vault).elim 0 (·.amount.toNat)

/-- The owner of an account of the asset got exactly the amount. -/
inductive Received (s : EscrowStateV1) (owner : Pubkey) (before after : Ledger) : Prop where
  | native (hkind : s.assetKind = .NativeSol)
      (hbalance : (after owner).lamports.toNat = (before owner).lamports.toNat + s.amount.toNat)
  | spl (account : Pubkey) (token token' : TokenAccount) (hkind : s.assetKind = .LegacySpl)
      (hbefore : tokenAt C before account = some token) (hafter : tokenAt C after account = some token')
      (howner : token.owner = owner) (hmint : token.mint = s.mint)
      (hbalance : token'.amount.toNat = token.amount.toNat + s.amount.toNat)

/-- The owner of an account of the asset gave exactly the amount. -/
inductive Gave (s : EscrowStateV1) (owner : Pubkey) (before after : Ledger) : Prop where
  | native (hkind : s.assetKind = .NativeSol)
      (hbalance : (before owner).lamports.toNat = (after owner).lamports.toNat + s.amount.toNat)
  | spl (account : Pubkey) (token token' : TokenAccount) (hkind : s.assetKind = .LegacySpl)
      (hbefore : tokenAt C before account = some token) (hafter : tokenAt C after account = some token')
      (howner : token.owner = owner) (hmint : token.mint = s.mint)
      (hbalance : token.amount.toNat = token'.amount.toNat + s.amount.toNat)

structure SameTerms (s s' : EscrowStateV1) : Prop where
  assetKind : s'.assetKind = s.assetKind
  stateBump : s'.stateBump = s.stateBump
  vaultBump : s'.vaultBump = s.vaultBump
  authorityBump : s'.authorityBump = s.authorityBump
  tokenDecimals : s'.tokenDecimals = s.tokenDecimals
  settlementId : s'.settlementId = s.settlementId
  funder : s'.funder = s.funder
  recipient : s'.recipient = s.recipient
  refundRecipient : s'.refundRecipient = s.refundRecipient
  mint : s'.mint = s.mint
  vault : s'.vault = s.vault
  claimPointEd25519 : s'.claimPointEd25519 = s.claimPointEd25519
  amount : s'.amount = s.amount
  refundAfterUnix : s'.refundAfterUnix = s.refundAfterUnix

variable {C} {ledger ledger' moved : Ledger} {key : Pubkey} {s s' : EscrowStateV1} {point : Nat → Digest32}

theorem SameTerms.update (s : EscrowStateV1) (status : EscrowStatus) (funded slot : UInt64) (secret : Digest32) :
    SameTerms s { s with status, fundedAmount := funded, revealedSecretBe := secret, terminalSlot := slot } :=
  ⟨rfl, rfl, rfl, rfl, rfl, rfl, rfl, rfl, rfl, rfl, rfl, rfl, rfl, rfl⟩

theorem vaultBalance_congr (h : SameTerms s s') : vaultBalance C ledger s' = vaultBalance C ledger s := by
  rw [vaultBalance, vaultBalance, h.assetKind, h.vault]

theorem Quiet.balance (h : Holds C ledger key s) (hqt : Quiet C key s ledger ledger') :
    vaultBalance C ledger s ≤ vaultBalance C ledger' s := by
  cases h.vault with
  | native hkind =>
    simp only [vaultBalance, hkind]
    exact UInt64.le_iff_toNat_le.mp (hqt.native hkind).2
  | spl token mint hkind _ _ htok =>
    obtain ⟨token', htok', -, hle⟩ := hqt.tokens hkind token htok
    simp only [vaultBalance, hkind, htok, htok', Option.elim_some]
    exact UInt64.le_iff_toNat_le.mp hle

/-! ## Writing the state -/

theorem Saved.lamports (h : Saved moved ledger' key s) (a : Pubkey) : (ledger' a).lamports = (moved a).lamports := by
  rw [h.written, setData_apply]

theorem Saved.state (h : Saved moved ledger' key s) : ledger' key = { moved key with data := s.encode } := by
  rw [h.written, setData_apply, if_pos rfl]

theorem Saved.frame (h : Saved moved ledger' key s) {a : Pubkey} (ha : a ≠ key) : ledger' a = moved a := by
  rw [h.written, setData_apply, if_neg ha]

theorem Saved.tokenAt (h : Saved moved ledger' key s) (hown : (moved key).owner = programId) (a : Pubkey) :
    tokenAt C ledger' a = tokenAt C moved a := by
  by_cases ha : a = key
  · have hkeep : (ledger' key).owner = programId := h.state ▸ hown
    rw [ha, tokenAt_of_owner fun hspl => programId_ne_splToken (hkeep.symm.trans hspl),
      tokenAt_of_owner fun hspl => programId_ne_splToken (hown.symm.trans hspl)]
  · rw [Escrow.tokenAt, h.frame ha]
    rfl

theorem Saved.balance (h : Saved moved ledger' key s') (hown : (moved key).owner = programId) (s : EscrowStateV1) :
    vaultBalance C ledger' s = vaultBalance C moved s := by
  rw [vaultBalance, vaultBalance, h.lamports, h.tokenAt hown]

/-- **The accounts after the state was written.** -/
theorem Holds.saved (hu : Unshared C key) (h : Holds C moved key s) (htms : SameTerms s s')
    (hsave : Saved moved ledger' key s') : Holds C ledger' key s' := by
  have hkey := hsave.state
  have hvlt : s.vault ≠ key := fun heq => h.vault_ne_state hu s.settlementId (heq.trans h.address)
  refine ⟨?_, ?_, hsave.valid, ?_, ?_, ?_, ?_, ?_⟩
  · rw [hkey]
    exact h.owner
  · rw [hkey]
  · rw [hkey]
    exact h.lamports
  · rw [htms.settlementId]
    exact h.address
  · rw [htms.settlementId, htms.stateBump]
    exact h.bump
  · rw [htms.authorityBump]
    exact h.authorityBump
  · cases h.vault with
    | native hkind haddr hbump hown hdata hlam =>
      refine .native (htms.assetKind.trans hkind) (htms.vault.trans haddr) (htms.vaultBump.trans hbump) ?_ ?_ ?_
        <;> rw [htms.vault, hsave.frame hvlt]
      · exact hown
      · exact hdata
      · exact hlam
    | spl token mint hkind haddr hbump htok hmint hauth hdlg hcls hminted hdecm =>
      have hne : s.mint ≠ key := by
        rintro heq
        exact programId_ne_splToken (h.owner.symm.trans (heq ▸ (owner_of_mintAt hminted).1))
      refine .spl token mint (htms.assetKind.trans hkind) (htms.vault.trans haddr)
        (htms.vaultBump.trans hbump) ?_ (hmint.trans htms.mint.symm) hauth hdlg hcls ?_
        (hdecm.trans htms.tokenDecimals.symm)
      · rw [htms.vault, hsave.tokenAt h.owner]
        exact htok
      · rw [htms.mint, mintAt, hsave.frame hne]
        exact hminted

/-! ## Moving the asset -/

theorem Holds.lamports_moved (h : Holds C ledger key s) (hrest : ∀ a, OnlyLamports (ledger a) (moved a))
    (hkey : 0 < (moved key).lamports) (hvlt : s.assetKind = .NativeSol → 0 < (moved s.vault).lamports) :
    Holds C moved key s := by
  refine ⟨(hrest key).2.trans h.owner, (hrest key).1.trans h.data, h.valid, hkey, h.address, h.bump, h.authorityBump, ?_⟩
  cases h.vault with
  | native hkind haddr hbump hown hdata _ =>
    exact .native hkind haddr hbump ((hrest _).2.trans hown) ((hrest _).1.trans hdata) (hvlt hkind)
  | spl token mint hkind haddr hbump htok hmint hauth hdlg hcls hminted hdecm =>
    exact .spl token mint hkind haddr hbump ((tokenAt_congr (hrest _)).trans htok) hmint hauth hdlg hcls
      ((mintAt_congr (hrest _)).trans hminted) hdecm

variable (hC : Lawful C point) (h : Holds C ledger key s)

include hC h in
theorem Holds.tokens_moved {a b mint authority : Pubkey} {amount : UInt64}
    (hmvd : TokensMoved C a mint b authority amount ledger moved) : Holds C moved key s := by
  have hkey := hmvd.frame h.owner
  refine ⟨hkey ▸ h.owner, hkey ▸ h.data, h.valid, hkey ▸ h.lamports, h.address, h.bump, h.authorityBump, ?_⟩
  cases h.vault with
  | native hkind haddr hbump hown hdata hlam =>
    have hvlt := hmvd.frame hown
    exact .native hkind haddr hbump (hvlt ▸ hown) (hvlt ▸ hdata) (hvlt ▸ hlam)
  | spl token found hkind haddr hbump htok hmint hauth hdlg hcls hminted hdecm =>
    obtain ⟨token', htok', hsame, -⟩ := hmvd.balance _ token htok
    exact .spl token' found hkind haddr hbump htok' (hsame.mint.trans hmint) (hsame.owner.trans hauth)
      (hsame.delegate hdlg) (hsame.closeAuthority hcls) (hmvd.frame_mint hC hminted) hdecm

theorem TokensMoved.between {a b mint authority : Pubkey} {amount : UInt64} {t u : TokenAccount}
    (hmvd : TokensMoved C a mint b authority amount ledger moved) (hne : a ≠ b) (ht : tokenAt C ledger a = some t)
    (hu : tokenAt C ledger b = some u) : ∃ t' u', tokenAt C moved a = some t' ∧ tokenAt C moved b = some u' ∧
      t.amount.toNat = t'.amount.toNat + amount.toNat ∧ u'.amount.toNat = u.amount.toNat + amount.toNat := by
  obtain ⟨t', ht', -, hout⟩ := hmvd.balance a t ht
  obtain ⟨u', hu', -, hin⟩ := hmvd.balance b u hu
  rw [if_pos rfl, if_neg hne] at hout
  rw [if_neg hne.symm, if_pos rfl] at hin
  exact ⟨t', u', ht', hu', hout.symm, hin⟩

include hC h in
/-- **The deposit** is exactly the amount, from the stored funder. -/
theorem Holds.deposit (hfree : ¬ IsDerived C s.funder) (hdep : Deposited C ledger moved key s)
    (hsave : Saved moved ledger' key s') :
    vaultBalance C ledger' s = vaultBalance C ledger s + s.amount.toNat ∧ Gave C s s.funder ledger ledger' := by
  have hmvd : Holds C moved key s := h.quiet (h.quiet_deposited hC hfree hdep)
  rw [hsave.balance hmvd.owner]
  cases hdep with
  | native hkind _ _ htrf _ =>
    have hlam := hC.systemTransfer _ _ _ _ _ htrf
    have hne : s.vault ≠ s.funder := fun heq =>
      programId_ne_systemProgram ((h.nativeVault_owner hkind).symm.trans (heq ▸ hlam.owner))
    have hvlt := hlam.balance s.vault
    have hfnr := hlam.balance s.funder
    rw [if_neg hne, if_pos rfl] at hvlt
    rw [if_neg hne.symm, if_pos rfl] at hfnr
    refine ⟨?_, .native hkind ?_⟩
    · simp only [vaultBalance, hkind]
      omega
    · rw [hsave.lamports]
      omega
  | spl source held empty updated hkind _ hsou hhdr hmint hemp _ hauth htrf _ _ =>
    have htoks := hC.transferChecked _ _ _ _ _ _ _ _ htrf
    -- the source is held by somebody with a key, the vault is not
    have hne : source ≠ s.vault := by
      rintro rfl
      obtain rfl : held = empty := Option.some.inj (hsou.symm.trans hemp)
      exact hfree ⟨_, hauth.symm.trans hhdr⟩
    obtain ⟨held', empty', hheld', hemp', hgiven, hvlt⟩ := htoks.between hne hsou hemp
    refine ⟨?_, .spl source held held' hkind hsou ?_ hhdr hmint hgiven⟩
    · simpa only [vaultBalance, hkind, hemp, hemp', Option.elim_some] using hvlt
    · rw [hsave.tokenAt hmvd.owner]
      exact hheld'

/-- An address that is none of the escrow's own. -/
structure Outside (C : Cluster) (key : Pubkey) (s : EscrowStateV1) (owner : Pubkey) : Prop where
  state : owner ≠ key
  vault : owner ≠ s.vault
  authority : owner ≠ (vaultAuthorityAddress C key).1

variable {owner : Pubkey}

variable (hu : Unshared C key)

include hC hu h in
theorem Holds.paid (hpaid : PaidOut C ledger moved key s owner) : Holds C moved key s := by
  cases hpaid with
  | native hkind hvlt hmove haft =>
    obtain ⟨hrest, hdest, -, hfrm⟩ := moveLamports_eq_ok hmove
    have hkey : key ≠ s.vault := hvlt ▸ (h.key_ne_vault hu key).1
    have hpos := UInt64.lt_iff_toNat_lt.mp h.lamports
    refine h.lamports_moved hrest (UInt64.lt_iff_toNat_lt.mpr ?_) fun _ => haft ▸ hC.rent 0
    by_cases hown : key = owner
    · rw [hown, hdest, ← hown]
      exact Nat.lt_add_right _ hpos
    · rw [hfrm key hkey hown]
      exact hpos
  | spl _ _ _ _ _ _ _ _ _ _ htrf => exact h.tokens_moved hC (hC.transferChecked _ _ _ _ _ _ _ _ htrf)

include hC hu h in
/-- **The payout** is exactly the amount, to the owner. -/
theorem Holds.payout (hosd : Outside C key s owner) (hpaid : PaidOut C ledger moved key s owner)
    (hsave : Saved moved ledger' key s') :
    vaultBalance C ledger s = vaultBalance C ledger' s + s.amount.toNat ∧ Received C s owner ledger ledger' := by
  have hmvd : Holds C moved key s := h.paid hC hu hpaid
  rw [hsave.balance hmvd.owner]
  cases hpaid with
  | native hkind _ hmove _ =>
    obtain ⟨-, hdest, hsou, -⟩ := moveLamports_eq_ok hmove
    have hout := hsou hosd.vault.symm
    refine ⟨by simpa only [vaultBalance, hkind] using hout, .native hkind ?_⟩
    rw [hsave.lamports]
    exact hdest
  | spl destination held target hkind hheld hauth _ htgt hmint hown htrf =>
    have htoks := hC.transferChecked _ _ _ _ _ _ _ _ htrf
    have hne : s.vault ≠ destination := by
      rintro rfl
      obtain rfl : held = target := Option.some.inj (hheld.symm.trans htgt)
      exact hosd.authority (hown.symm.trans hauth)
    obtain ⟨held', target', hheld', htgt', hout, hin⟩ := htoks.between hne hheld htgt
    refine ⟨?_, .spl destination target target' hkind htgt ?_ hown hmint hin⟩
    · simpa only [vaultBalance, hkind, hheld, hheld', Option.elim_some] using hout
    · rw [hsave.tokenAt hmvd.owner]
      exact htgt'

/-! ## The start -/

theorem AccountCreated.owner_ne_system {payer account : Pubkey} {lamports : UInt64} {space : Nat}
    (h : AccountCreated payer account lamports space owner ledger ledger') (hown : owner ≠ systemProgram) :
    (ledger' account).owner ≠ systemProgram := h.created.2.2 ▸ hown

include hC hu in
/-- **A new escrow holds its accounts.** -/
theorem holds_of_opened (hfr : Fresh C ledger key s) (hopd : Opened C ledger ledger' key s) : Holds C ledger' key s := by
  cases hopd with
  | native created vaulted hkind hvlt hbump hstate hcr hsave =>
    have hcrt := hC.createAccount _ _ _ _ _ _ _ hstate
    have hvltd := hC.createAccount _ _ _ _ _ _ _ hcr
    have hkey : vaulted key = created key :=
      hvltd.frame (hcrt.owner_ne_system programId_ne_systemProgram)
    have hwrt := hsave.state
    have hne : s.vault ≠ key := by
      rw [hvlt, hfr.address]
      exact hfr.address ▸ hu.nativeVault.ne (by simp) (.inl stateSeed_ne_nativeVaultSeed)
    refine ⟨?_, ?_, hsave.valid, ?_, hfr.address, hfr.bump, hfr.authorityBump, .native hkind hvlt hbump ?_ ?_ ?_⟩
    · rw [hwrt, hkey]
      exact hcrt.created.2.2
    · rw [hwrt]
    · rw [hwrt, hkey]
      exact hcrt.created.1 ▸ hC.rent stateLen
    · rw [hsave.frame hne]
      exact hvltd.created.2.2
    · rw [hsave.frame hne]
      exact hvltd.created.2.1
    · rw [hsave.frame hne]
      exact hvltd.created.1 ▸ hC.rent 0
  | spl mint created vaulted initialized hkind hvlt hbump hmint hdecm hstate hcr hopg hsave =>
    have hcrt := hC.createAccount _ _ _ _ _ _ _ hstate
    have hvltd := hC.createAccount _ _ _ _ _ _ _ hcr
    have hinit := hC.initializeAccount3 _ _ _ _ _ hopg
    obtain ⟨token, htok, htokm, hauth, hdlg, hcls⟩ := hinit.initialized
    have hmto := (owner_of_mintAt hmint).1
    have hne : key ≠ s.vault := by
      intro heq
      exact programId_ne_systemProgram (hcrt.created.2.2.symm.trans (heq ▸ hvltd.fresh))
    have hkey : initialized key = created key := by
      rw [hinit.rest _ hne]
      exact hvltd.frame (hcrt.owner_ne_system programId_ne_systemProgram)
    have hown : (initialized key).owner = programId := hkey ▸ hcrt.created.2.2
    have hminted : created s.mint = ledger s.mint := hcrt.frame (hmto ▸ splToken_ne_systemProgram)
    have hmintVault : s.mint ≠ s.vault := by
      intro heq
      have hfrv := hvltd.fresh
      rw [← heq, hminted] at hfrv
      exact splToken_ne_systemProgram (hmto.symm.trans hfrv)
    have hmintKey : s.mint ≠ key := by
      intro heq
      have hfreshKey := hcrt.fresh
      rw [← heq] at hfreshKey
      exact splToken_ne_systemProgram (hmto.symm.trans hfreshKey)
    have hkept : ledger' s.mint = ledger s.mint := by
      rw [hsave.frame hmintKey, hinit.rest _ hmintVault, ← hminted]
      exact hvltd.frame (hminted ▸ hmto ▸ splToken_ne_systemProgram)
    have hwrt := hsave.state
    refine ⟨?_, ?_, hsave.valid, ?_, hfr.address, hfr.bump, hfr.authorityBump,
      .spl token mint hkind hvlt hbump ?_ htokm hauth hdlg hcls ?_ hdecm.symm⟩
    · rw [hwrt]
      exact hown
    · rw [hwrt]
    · rw [hwrt, hkey]
      exact hcrt.created.1 ▸ hC.rent stateLen
    · rw [hsave.tokenAt hown]
      exact htok
    · rw [mintAt, hkept]
      exact hmint

end Payout

end DomProtocol.Escrow
