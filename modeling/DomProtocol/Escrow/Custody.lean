import DomProtocol.Escrow.Effects

/-!
# `Escrow.Custody` — what an escrow keeps while others act

An escrow is known by the key of its state account.  `Holds` says how its accounts stand, `Quiet` that an action left its
state alone and took nothing from its vault.  Every instruction on another escrow is quiet for this one, and so is
whatever other programs do.
-/

namespace DomProtocol.Escrow

open Lib

variable {lamports : UInt64} {payer : Pubkey} {space : Nat} {moved : Ledger}

section Custody

variable (C : Cluster)

/-! ## Addresses -/

/-- No second seed of the program leads to the address of this one. -/
def Unique (seed : List UInt8) (value : Digest32) : Prop :=
  ∀ seed' ∈ [stateSeed, nativeVaultSeed, tokenVaultSeed, vaultAuthoritySeed], ∀ value',
    (C.findProgramAddress [seed', hashBytes value']).1 = (C.findProgramAddress [seed, hashBytes value]).1 →
      seed' = seed ∧ value' = value

/-- The four addresses of an escrow belong to no other escrow. -/
structure Unshared (key : Pubkey) : Prop where
  state : ∀ settlementId, key = (stateAddress C settlementId).1 → Unique C stateSeed settlementId
  nativeVault : Unique C nativeVaultSeed key
  tokenVault : Unique C tokenVaultSeed key
  authority : Unique C vaultAuthoritySeed key

/-! ## The accounts of an escrow -/

/-- The vault of an escrow is its derived account and nobody else can debit it. -/
inductive VaultOf (ledger : Ledger) (key : Pubkey) (s : EscrowStateV1) : Prop where
  | native (hkind : s.assetKind = .NativeSol) (haddress : s.vault = (nativeVaultAddress C key).1)
      (hbump : s.vaultBump = (nativeVaultAddress C key).2) (howner : (ledger s.vault).owner = programId)
      (hdata : (ledger s.vault).data = []) (hlamports : 0 < (ledger s.vault).lamports)
  | spl (token : TokenAccount) (mint : Mint) (hkind : s.assetKind = .LegacySpl)
      (haddress : s.vault = (tokenVaultAddress C key).1) (hbump : s.vaultBump = (tokenVaultAddress C key).2)
      (htoken : tokenAt C ledger s.vault = some token) (hmint : token.mint = s.mint)
      (hauthority : token.owner = (vaultAuthorityAddress C key).1) (hdelegate : token.delegate = none)
      (hclose : token.closeAuthority = none) (hminted : mintAt C ledger s.mint = some mint)
      (hdecimals : mint.decimals = s.tokenDecimals)

/-- **The accounts of an escrow in state `s`.** -/
structure Holds (ledger : Ledger) (key : Pubkey) (s : EscrowStateV1) : Prop where
  owner : (ledger key).owner = programId
  data : (ledger key).data = s.encode
  valid : s.validate = .ok ()
  lamports : 0 < (ledger key).lamports
  address : key = (stateAddress C s.settlementId).1
  bump : s.stateBump = (stateAddress C s.settlementId).2
  authorityBump : s.authorityBump = (vaultAuthorityAddress C key).2
  vault : VaultOf C ledger key s

def Spared (a b : Account) : Prop := OnlyLamports a b ∧ a.lamports ≤ b.lamports

/-- **A quiet change** for the escrow: its state stays and its vault loses nothing. -/
structure Quiet (key : Pubkey) (s : EscrowStateV1) (ledger ledger' : Ledger) : Prop where
  state : Spared (ledger key) (ledger' key)
  native : s.assetKind = .NativeSol → Spared (ledger s.vault) (ledger' s.vault)
  tokens : s.assetKind = .LegacySpl → ∀ token, tokenAt C ledger s.vault = some token →
    ∃ token', tokenAt C ledger' s.vault = some token' ∧ SameHolder token token' ∧ token.amount ≤ token'.amount
  mint : s.assetKind = .LegacySpl → ∀ mint, mintAt C ledger s.mint = some mint →
    ∃ mint', mintAt C ledger' s.mint = some mint' ∧ mint'.decimals = mint.decimals

variable {C} {ledger ledger' ledger'' : Ledger} {key : Pubkey} {s : EscrowStateV1}

theorem Spared.refl (a : Account) : Spared a a := ⟨⟨rfl, rfl⟩, UInt64.le_refl _⟩

theorem Spared.trans {a b c : Account} (h : Spared a b) (h' : Spared b c) : Spared a c :=
  ⟨⟨h'.1.1.trans h.1.1, h'.1.2.trans h.1.2⟩, UInt64.le_trans h.2 h'.2⟩

theorem Spared.positive {a b : Account} (h : Spared a b) (ha : 0 < a.lamports) : 0 < b.lamports :=
  UInt64.lt_of_lt_of_le ha h.2

theorem SameHolder.refl (t : TokenAccount) : SameHolder t t := ⟨rfl, rfl, id, id⟩

theorem SameHolder.trans {t u v : TokenAccount} (h : SameHolder t u) (h' : SameHolder u v) : SameHolder t v :=
  ⟨h'.mint.trans h.mint, h'.owner.trans h.owner, h'.delegate ∘ h.delegate, h'.closeAuthority ∘ h.closeAuthority⟩

theorem Quiet.trans (h : Quiet C key s ledger ledger') (h' : Quiet C key s ledger' ledger'') :
    Quiet C key s ledger ledger'' := by
  refine ⟨h.state.trans h'.state, fun hkind => (h.native hkind).trans (h'.native hkind), ?_, ?_⟩
  · intro hkind token htok
    obtain ⟨token', htok', hsame, hle⟩ := h.tokens hkind token htok
    obtain ⟨token'', htok'', hsame', hle'⟩ := h'.tokens hkind token' htok'
    exact ⟨token'', htok'', hsame.trans hsame', UInt64.le_trans hle hle'⟩
  · intro hkind mint hmint
    obtain ⟨mint', hmint', hsame⟩ := h.mint hkind mint hmint
    obtain ⟨mint'', hmint'', hsame'⟩ := h'.mint hkind mint' hmint'
    exact ⟨mint'', hmint'', hsame'.trans hsame⟩

variable {a : Pubkey}

theorem tokenAt_congr (h : OnlyLamports (ledger a) (ledger' a)) : tokenAt C ledger' a = tokenAt C ledger a := by
  rw [tokenAt, tokenAt, h.1, h.2]

theorem mintAt_congr (h : OnlyLamports (ledger a) (ledger' a)) : mintAt C ledger' a = mintAt C ledger a := by
  rw [mintAt, mintAt, h.1, h.2]

/-- **Quiet changes keep the accounts of an escrow.** -/
theorem Holds.quiet (h : Holds C ledger key s) (hqt : Quiet C key s ledger ledger') : Holds C ledger' key s := by
  refine ⟨hqt.state.1.2.trans h.owner, hqt.state.1.1.trans h.data, h.valid, hqt.state.positive h.lamports, h.address,
    h.bump, h.authorityBump, ?_⟩
  cases h.vault with
  | native hkind haddr hbump hown hdata hlam =>
    have hspr := hqt.native hkind
    exact .native hkind haddr hbump (hspr.1.2.trans hown) (hspr.1.1.trans hdata) (hspr.positive hlam)
  | spl token mint hkind haddr hbump htok hmint hauth hdlg hcls hminted hdecm =>
    obtain ⟨token', htok', hsame, -⟩ := hqt.tokens hkind token htok
    obtain ⟨mint', hminted', hdecm'⟩ := hqt.mint hkind mint hminted
    exact .spl token' mint' hkind haddr hbump htok' (hsame.mint.trans hmint) (hsame.owner.trans hauth)
      (hsame.delegate hdlg) (hsame.closeAuthority hcls) hminted' (hdecm'.trans hdecm)

variable {s' : EscrowStateV1}

theorem Holds.loaded (h : Holds C ledger key s) (hload : Loaded C ledger key s') : s' = s := by
  have hdec := hload.decoded
  rw [h.data, EscrowStateV1.decode_encode h.valid] at hdec
  exact (Except.ok.inj hdec).symm

/-! ## Whose account is whose -/

theorem programId_ne_systemProgram : programId ≠ systemProgram := by decide

theorem splToken_ne_systemProgram : splToken ≠ systemProgram := by decide

theorem programId_ne_splToken : programId ≠ splToken := by decide

theorem owner_of_tokenAt {token : TokenAccount} (h : tokenAt C ledger a = some token) :
    (ledger a).owner = splToken ∧ C.unpackToken (ledger a).data = some token := by
  unfold tokenAt at h
  split at h
  · exact ⟨‹_›, h⟩
  · cases h

theorem owner_of_mintAt {mint : Mint} (h : mintAt C ledger a = some mint) :
    (ledger a).owner = splToken ∧ C.unpackMint (ledger a).data = some mint := by
  unfold mintAt at h
  split at h
  · exact ⟨‹_›, h⟩
  · cases h

theorem tokenAt_of_owner (h : (ledger a).owner ≠ splToken) : tokenAt C ledger a = none := if_neg h

theorem tokenAt_of_mintAt {point : Nat → Digest32} (hC : Lawful C point) {mint : Mint}
    (h : mintAt C ledger a = some mint) : tokenAt C ledger a = none := by
  obtain ⟨hown, hunpack⟩ := owner_of_mintAt h
  rw [tokenAt, if_pos hown]
  exact hC.mints _ _ hunpack

theorem Holds.nativeVault_owner (h : Holds C ledger key s) (hkind : s.assetKind = .NativeSol) :
    (ledger s.vault).owner = programId := by
  cases h.vault with
  | native _ _ _ hown _ _ => exact hown
  | spl _ _ hkind' => exact absurd (hkind.symm.trans hkind') nofun

/-! ## Quiet actions -/

theorem quiet_of_onlyLamports (hrest : ∀ a, OnlyLamports (ledger a) (ledger' a))
    (hstate : (ledger key).lamports ≤ (ledger' key).lamports)
    (hvlt : s.assetKind = .NativeSol → (ledger s.vault).lamports ≤ (ledger' s.vault).lamports) :
    Quiet C key s ledger ledger' := by
  refine ⟨⟨hrest key, hstate⟩, fun hkind => ⟨hrest s.vault, hvlt hkind⟩, ?_, ?_⟩
  · intro _ token htok
    exact ⟨token, (tokenAt_congr (hrest _)).trans htok, .refl token, UInt64.le_refl _⟩
  · intro _ mint hmint
    exact ⟨mint, (mintAt_congr (hrest _)).trans hmint, rfl⟩

theorem Quiet.refl : Quiet C key s ledger ledger :=
  quiet_of_onlyLamports (fun _ => ⟨rfl, rfl⟩) (UInt64.le_refl _) (fun _ => UInt64.le_refl _)

variable {b : Pubkey} {amount : UInt64}

theorem Holds.quiet_transfer (h : Holds C ledger key s) (hmvd : LamportsMoved a b amount ledger ledger') :
    Quiet C key s ledger ledger' := by
  have hspr (k : Pubkey) (hk : (ledger k).owner = programId) : (ledger k).lamports ≤ (ledger' k).lamports := by
    have hbal := hmvd.balance k
    have hne : k ≠ a := fun heq => programId_ne_systemProgram (hk.symm.trans (heq ▸ hmvd.owner))
    rw [if_neg hne] at hbal
    exact UInt64.le_iff_toNat_le.mpr (by omega)
  exact quiet_of_onlyLamports hmvd.rest (hspr key h.owner) fun hkind => hspr _ (h.nativeVault_owner hkind)

variable {account : Pubkey}

theorem AccountCreated.frame {owner : Pubkey}
    (h : AccountCreated payer account lamports space owner ledger ledger') (ha : (ledger a).owner ≠ systemProgram) :
    ledger' a = ledger a := by
  refine h.rest a ?_ ?_
  · rintro rfl
    exact ha h.payerOwner
  · rintro rfl
    exact ha h.fresh

theorem Holds.quiet_create (h : Holds C ledger key s) {owner : Pubkey}
    (hcrt : AccountCreated payer account lamports space owner ledger ledger') : Quiet C key s ledger ledger' := by
  have hprog (a : Pubkey) (ha : (ledger a).owner = programId) : ledger' a = ledger a :=
    hcrt.frame (ha ▸ programId_ne_systemProgram)
  have htok (a : Pubkey) (ha : (ledger a).owner = splToken) : ledger' a = ledger a :=
    hcrt.frame (ha ▸ splToken_ne_systemProgram)
  refine ⟨hprog key h.owner ▸ .refl _, fun hkind => hprog _ (h.nativeVault_owner hkind) ▸ .refl _, ?_, ?_⟩
  · intro _ token hfnd
    refine ⟨token, ?_, .refl token, UInt64.le_refl _⟩
    rw [tokenAt, htok _ (owner_of_tokenAt hfnd).1]
    exact hfnd
  · intro _ mint hfnd
    refine ⟨mint, ?_, rfl⟩
    rw [mintAt, htok _ (owner_of_mintAt hfnd).1]
    exact hfnd

variable {mint : Pubkey}

theorem Holds.quiet_opening (h : Holds C ledger key s) {owner : Pubkey}
    (hinit : AccountInitialized C account mint owner ledger ledger')
    (hmint : s.assetKind = .LegacySpl → account ≠ s.mint) : Quiet C key s ledger ledger' := by
  have hprog (a : Pubkey) (ha : (ledger a).owner = programId) : ledger' a = ledger a :=
    hinit.rest a fun heq => programId_ne_splToken (ha.symm.trans (heq ▸ hinit.fresh.1))
  refine ⟨hprog key h.owner ▸ .refl _, fun hkind => hprog _ (h.nativeVault_owner hkind) ▸ .refl _, ?_, ?_⟩
  · intro _ token hfnd
    refine ⟨token, ?_, .refl token, UInt64.le_refl _⟩
    have hne : s.vault ≠ account := by
      intro heq
      have hnone := hinit.fresh.2
      rw [← heq, (owner_of_tokenAt hfnd).2] at hnone
      cases hnone
    rw [tokenAt, hinit.rest _ hne]
    exact hfnd
  · intro hkind found hfnd
    refine ⟨found, ?_, rfl⟩
    rw [mintAt, hinit.rest _ (hmint hkind).symm]
    exact hfnd

variable {point : Nat → Digest32}

variable {authority k : Pubkey}

theorem TokensMoved.frame (h : TokensMoved C a mint b authority amount ledger ledger')
    (hk : (ledger k).owner = programId) :
    ledger' k = ledger k :=
  h.rest k (tokenAt_of_owner fun hspl => programId_ne_splToken (hk.symm.trans hspl))

theorem TokensMoved.frame_mint (hC : Lawful C point) (h : TokensMoved C a mint b authority amount ledger ledger')
    {found : Mint} (hk : mintAt C ledger k = some found) : mintAt C ledger' k = some found := by
  rw [mintAt, h.rest k (tokenAt_of_mintAt hC hk)]
  exact hk

variable (hC : Lawful C point) (h : Holds C ledger key s)

include hC h in
theorem Holds.quiet_tokens (hmvd : TokensMoved C a mint b authority amount ledger ledger')
    (hauth : authority ≠ (vaultAuthorityAddress C key).1) : Quiet C key s ledger ledger' := by
  refine ⟨hmvd.frame h.owner ▸ .refl _, fun hkind => hmvd.frame (h.nativeVault_owner hkind) ▸ .refl _, ?_,
    fun _ found hfnd => ⟨found, hmvd.frame_mint hC hfnd, rfl⟩⟩
  intro hkind token htok
  obtain ⟨token', htok', hsame, hbal⟩ := hmvd.balance s.vault token htok
  have hne : s.vault ≠ a := by
    rintro rfl
    obtain ⟨held, hheld, -, hrt⟩ := hmvd.sender
    cases h.vault with
    | native hkind' => exact nomatch hkind.symm.trans hkind'
    | spl own _ _ _ _ hown _ howner hdlg =>
      obtain rfl : held = own := Option.some.inj (hheld.symm.trans hown)
      rcases hrt with hrt | hrt
      · exact hauth (hrt.symm.trans howner)
      · rw [hdlg] at hrt
        cases hrt
  rw [if_neg hne] at hbal
  exact ⟨token', htok', hsame, UInt64.le_iff_toNat_le.mpr (by omega)⟩

include hC h in
theorem Holds.quiet_close (hclsd : AccountClosed C account b authority ledger ledger')
    (hauth : authority ≠ (vaultAuthorityAddress C key).1) : Quiet C key s ledger ledger' := by
  obtain ⟨held, hheld, hrt⟩ := hclsd.holder
  have hprog (a : Pubkey) (ha : (ledger a).owner = programId) : Spared (ledger a) (ledger' a) :=
    hclsd.rest a fun heq => programId_ne_splToken (ha.symm.trans (heq ▸ (owner_of_tokenAt hheld).1))
  refine ⟨hprog key h.owner, fun hkind => hprog _ (h.nativeVault_owner hkind), ?_, ?_⟩
  · intro hkind token htok
    have hne : s.vault ≠ account := by
      rintro rfl
      cases h.vault with
      | native hkind' => exact nomatch hkind.symm.trans hkind'
      | spl own _ _ _ _ hown _ howner _ hcls =>
        obtain rfl : held = own := Option.some.inj (hheld.symm.trans hown)
        rcases hrt with hrt | hrt
        · exact hauth (hrt.symm.trans howner)
        · rw [hcls] at hrt
          cases hrt
    exact ⟨token, (tokenAt_congr (hclsd.rest _ hne).1).trans htok, .refl token, UInt64.le_refl _⟩
  · intro _ found hfnd
    have hne : s.mint ≠ account := by
      rintro rfl
      rw [tokenAt_of_mintAt hC hfnd] at hheld
      cases hheld
    exact ⟨found, (mintAt_congr (hclsd.rest _ hne).1).trans hfnd, rfl⟩

theorem quiet_moveLamports (hmove : moveLamports ledger a b amount = .ok ledger') (hkey : key ≠ a)
    (hvlt : s.vault ≠ a) : Quiet C key s ledger ledger' := by
  obtain ⟨hrest, hdest, -, hfrm⟩ := moveLamports_eq_ok hmove
  have hspr (k : Pubkey) (hk : k ≠ a) : (ledger k).lamports ≤ (ledger' k).lamports := by
    by_cases hkb : k = b
    · exact UInt64.le_iff_toNat_le.mpr (by rw [hkb, hdest]; omega)
    · exact hfrm k hk hkb ▸ UInt64.le_refl _
  exact quiet_of_onlyLamports hrest (hspr key hkey) fun _ => hspr _ hvlt

theorem quiet_drainAccount (hdrn : drainAccount ledger a b = .ok ledger') (hkey : key ≠ a) (hvlt : s.vault ≠ a) :
    Quiet C key s ledger ledger' := by
  obtain ⟨hrest, hspr⟩ := drainAccount_eq_ok hdrn
  exact quiet_of_onlyLamports hrest (hspr key hkey) fun _ => hspr _ hvlt

variable {other : Pubkey}

theorem quiet_save (hsave : Saved ledger ledger' other s') (hown : (ledger other).owner = programId)
    (hkey : key ≠ other) (hvlt : s.vault ≠ other) : Quiet C key s ledger ledger' := by
  have hfrm (a : Pubkey) (ha : a ≠ other) : ledger' a = ledger a := by
    rw [hsave.written, setData_apply, if_neg ha]
  refine ⟨hfrm key hkey ▸ .refl _, fun _ => hfrm _ hvlt ▸ .refl _, ?_, ?_⟩
  · intro _ token htok
    refine ⟨token, ?_, .refl token, UInt64.le_refl _⟩
    rw [tokenAt, hfrm _ hvlt]
    exact htok
  · intro _ found hfnd
    have hne : s.mint ≠ other := by
      rintro rfl
      exact programId_ne_splToken (hown.symm.trans (owner_of_mintAt hfnd).1)
    refine ⟨found, ?_, rfl⟩
    rw [mintAt, hfrm _ hne]
    exact hfnd

/-- **Other programs** are quiet. -/
theorem Holds.quiet_foreign (h : Holds C ledger key s) (hfor : Foreign C ledger ledger') :
    Quiet C key s ledger ledger' := by
  refine ⟨hfor.owned key h.owner h.lamports, ?_, ?_, fun _ => hfor.mints _⟩
  · intro hkind
    cases h.vault with
    | native _ _ _ howner _ hlam => exact hfor.owned _ howner hlam
    | spl _ _ hkind' => exact nomatch hkind.symm.trans hkind'
  · intro hkind token htok
    cases h.vault with
    | native hkind' => exact nomatch hkind.symm.trans hkind'
    | spl own _ _ _ _ hown _ howner hdlg hcls =>
      obtain rfl : token = own := Option.some.inj (htok.symm.trans hown)
      exact hfor.tokens _ token htok ⟨_, howner.symm⟩ hdlg hcls

/-! ## Instructions on other escrows -/

theorem Unique.ne {seed seed' : List UInt8} {value value' : Digest32} (h : Unique C seed value)
    (hmem : seed' ∈ [stateSeed, nativeVaultSeed, tokenVaultSeed, vaultAuthoritySeed])
    (hne : seed' ≠ seed ∨ value' ≠ value) :
    (C.findProgramAddress [seed, hashBytes value]).1 ≠ (C.findProgramAddress [seed', hashBytes value']).1 := by
  intro heq
  obtain ⟨hseed, hvalue⟩ := h seed' hmem value' heq.symm
  exact hne.elim (fun hne => hne hseed) fun hne => hne hvalue

theorem stateSeed_ne_nativeVaultSeed : stateSeed ≠ nativeVaultSeed := by decide +kernel

theorem stateSeed_ne_tokenVaultSeed : stateSeed ≠ tokenVaultSeed := by decide +kernel

theorem nativeVaultSeed_ne_tokenVaultSeed : nativeVaultSeed ≠ tokenVaultSeed := by decide +kernel

variable (hu : Unshared C key)

include hu h in
theorem Holds.vault_ne_state (settlementId : Digest32) :
    s.vault ≠ (stateAddress C settlementId).1 := by
  cases h.vault with
  | native _ haddr =>
    rw [haddr]
    exact hu.nativeVault.ne (by simp) (.inl stateSeed_ne_nativeVaultSeed)
  | spl _ _ _ haddr =>
    rw [haddr]
    exact hu.tokenVault.ne (by simp) (.inl stateSeed_ne_tokenVaultSeed)

include hu h in
theorem Holds.vault_ne_vault (hoth : other ≠ key) :
    s.vault ≠ (nativeVaultAddress C other).1 ∧ s.vault ≠ (tokenVaultAddress C other).1 := by
  cases h.vault with
  | native _ haddr =>
    rw [haddr]
    exact ⟨hu.nativeVault.ne (by simp) (.inr hoth),
      hu.nativeVault.ne (by simp) (.inl nativeVaultSeed_ne_tokenVaultSeed.symm)⟩
  | spl _ _ _ haddr =>
    rw [haddr]
    exact ⟨hu.tokenVault.ne (by simp) (.inl nativeVaultSeed_ne_tokenVaultSeed),
      hu.tokenVault.ne (by simp) (.inr hoth)⟩

include hu h in
theorem Holds.key_ne_vault (other : Pubkey) :
    key ≠ (nativeVaultAddress C other).1 ∧ key ≠ (tokenVaultAddress C other).1 := by
  rw [h.address]
  exact ⟨(hu.state _ h.address).ne (by simp) (.inl stateSeed_ne_nativeVaultSeed.symm),
    (hu.state _ h.address).ne (by simp) (.inl stateSeed_ne_tokenVaultSeed.symm)⟩

theorem Unshared.authority_ne (hu : Unshared C key) (hoth : other ≠ key) :
    (vaultAuthorityAddress C other).1 ≠ (vaultAuthorityAddress C key).1 :=
  (hu.authority.ne (by simp) (.inr hoth)).symm

theorem Deposited.owner (hC : Lawful C point) (h : Deposited C ledger moved other s')
    (hk : (ledger k).owner = programId) :
    (moved k).owner = programId := by
  cases h with
  | native _ _ _ htrf _ => exact ((hC.systemTransfer _ _ _ _ _ htrf).rest k).2.trans hk
  | spl _ _ _ _ _ _ _ _ _ _ _ _ htrf _ _ =>
    rw [(hC.transferChecked _ _ _ _ _ _ _ _ htrf).frame hk]
    exact hk

theorem PaidOut.owner {owner : Pubkey} (hC : Lawful C point)
    (h : PaidOut C ledger moved other s' owner) (hk : (ledger k).owner = programId) :
    (moved k).owner = programId := by
  cases h with
  | native _ _ hmove _ => exact ((moveLamports_eq_ok hmove).1 k).2.trans hk
  | spl _ _ _ _ _ _ _ _ _ _ htrf =>
    rw [(hC.transferChecked _ _ _ _ _ _ _ _ htrf).frame hk]
    exact hk

include hC h in
theorem Holds.quiet_deposited (hsgd : ¬ IsDerived C s'.funder) (hdep : Deposited C ledger ledger' other s') :
    Quiet C key s ledger ledger' := by
  cases hdep with
  | native _ _ _ htrf _ => exact h.quiet_transfer (hC.systemTransfer _ _ _ _ _ htrf)
  | spl _ _ _ _ _ _ _ _ _ _ _ _ htrf _ _ =>
    exact h.quiet_tokens hC (hC.transferChecked _ _ _ _ _ _ _ _ htrf) fun heq => hsgd ⟨_, heq.symm⟩

include hC hu h in
theorem Holds.quiet_paidOut {owner : Pubkey} (hoth : other ≠ key) (hpaid : PaidOut C ledger ledger' other s' owner) :
    Quiet C key s ledger ledger' := by
  cases hpaid with
  | native _ hvlt hmove _ =>
    rw [hvlt] at hmove
    exact quiet_moveLamports hmove (h.key_ne_vault hu other).1 (h.vault_ne_vault hu hoth).1
  | spl _ _ _ _ _ _ _ _ _ _ htrf =>
    exact h.quiet_tokens hC (hC.transferChecked _ _ _ _ _ _ _ _ htrf) (hu.authority_ne hoth)

include hC hu h in
theorem Holds.quiet_emptied (hload : Loaded C ledger other s') (hoth : other ≠ key)
    (hempd : Emptied C ledger ledger' other s') :
    Quiet C key s ledger ledger' := by
  have hvlt : s.vault ≠ other := hload.address ▸ h.vault_ne_state hu _
  cases hempd with
  | native drained hdrn hstate =>
    exact (quiet_drainAccount hdrn (h.key_ne_vault hu other).1 (h.vault_ne_vault hu hoth).1).trans
      (quiet_drainAccount hstate hoth.symm hvlt)
  | spl vault held closed _ _ hcls hstate =>
    have hqt := h.quiet_close hC (hC.closeAccount _ _ _ _ _ hcls) (hu.authority_ne hoth)
    exact hqt.trans (quiet_drainAccount hstate hoth.symm hvlt)

include hC hu h in
theorem Holds.quiet_opened (hfr : Fresh C ledger other s') (hoth : other ≠ key) (hopd : Opened C ledger ledger' other s') :
    Quiet C key s ledger ledger' := by
  have hvlt : s.vault ≠ other := hfr.address ▸ h.vault_ne_state hu _
  cases hopd with
  | native created vaulted _ _ _ hstate hcr hsave =>
    have hcrt := hC.createAccount _ _ _ _ _ _ _ hstate
    have hvltd := hC.createAccount _ _ _ _ _ _ _ hcr
    have hfst := h.quiet_create hcrt
    have hscd := (h.quiet hfst).quiet_create hvltd
    have hown : (vaulted other).owner = programId := by
      rw [hvltd.frame (hcrt.created.2.2 ▸ programId_ne_systemProgram)]
      exact hcrt.created.2.2
    exact (hfst.trans hscd).trans (quiet_save hsave hown hoth.symm hvlt)
  | spl mint created vaulted initialized _ _ _ _ _ hstate hcr hopg hsave =>
    have hcrt := hC.createAccount _ _ _ _ _ _ _ hstate
    have hvltd := hC.createAccount _ _ _ _ _ _ _ hcr
    have hinit := hC.initializeAccount3 _ _ _ _ _ hopg
    have hfst := h.quiet_create hcrt
    have hscd := (h.quiet hfst).quiet_create hvltd
    have hown : (vaulted other).owner = programId := by
      rw [hvltd.frame (hcrt.created.2.2 ▸ programId_ne_systemProgram)]
      exact hcrt.created.2.2
    have hown' : (initialized other).owner = programId := by
      rw [hinit.rest]
      · exact hown
      · intro heq
        exact programId_ne_splToken (hown.symm.trans (heq ▸ hinit.fresh.1))
    -- the new vault belonged to nobody a moment ago, and the mint to the token program
    have hmint : s.assetKind = .LegacySpl → s'.vault ≠ s.mint := by
      intro hkind heq
      cases (h.quiet hfst).vault with
      | native hkind' => exact nomatch hkind.symm.trans hkind'
      | spl _ _ _ _ _ _ _ _ _ _ hminted =>
        exact splToken_ne_systemProgram ((owner_of_mintAt hminted).1.symm.trans (heq ▸ hvltd.fresh))
    have hthird := ((h.quiet hfst).quiet hscd).quiet_opening hinit hmint
    exact ((hfst.trans hscd).trans hthird).trans (quiet_save hsave hown' hoth.symm hvlt)

def EscrowInstructionV1.target (accounts : List AccountInfo) : EscrowInstructionV1 → Option Pubkey
  | InitializeNative _ | InitializeSpl _ | Fund => accounts[1]?.map (·.key)
  | Claim _ | Refund | Close => accounts[0]?.map (·.key)

/-- Nobody signs for an address derived for the program. -/
def Signed (C : Cluster) (accounts : List AccountInfo) : Prop :=
  ∀ account ∈ accounts, account.isSigner = true → ¬ IsDerived C account.key

include hC hu h in
/-- **An instruction on another escrow is quiet.** -/
theorem Holds.quiet_run {clock : Clock} {accounts : List AccountInfo} {instruction : EscrowInstructionV1}
    (hsgd : Signed C accounts) (hoth : instruction.target accounts ≠ some key)
    (hrun : instruction.run C ledger clock accounts = .ok ledger') :
    Quiet C key s ledger ledger' := by
  have hvlt {other : Pubkey} {s' : EscrowStateV1} (hload : Loaded C ledger other s') : s.vault ≠ other :=
    hload.address ▸ h.vault_ne_state hu _
  cases instruction with
  | InitializeNative params | InitializeSpl params =>
    obtain ⟨funder, stateAccount, rest, s', rfl, hfr, hopd⟩ := initialize_eq_ok params (by simp) hrun
    exact h.quiet_opened hC hu hfr (fun heq => hoth (congrArg some heq)) hopd
  | Fund =>
    obtain ⟨funder, stateAccount, rest, s', moved, rfl, hsgr, hload, hfnr, -, hdep, hsave⟩ := fund_eq_ok hrun
    have hkey : key ≠ stateAccount.key := fun heq => hoth (congrArg some heq.symm)
    have hfree : ¬ IsDerived C s'.funder := hfnr ▸ hsgd funder List.mem_cons_self hsgr
    exact (h.quiet_deposited hC hfree hdep).trans
      (quiet_save hsave (hdep.owner hC hload.owner) hkey (hvlt hload))
  | Claim secret =>
    obtain ⟨stateAccount, rest, s', moved, rfl, hload, -, -, hpaid, hsave⟩ := claim_eq_ok hrun
    have hkey : key ≠ stateAccount.key := fun heq => hoth (congrArg some heq.symm)
    exact (h.quiet_paidOut hC hu hkey.symm hpaid).trans
      (quiet_save hsave (hpaid.owner hC hload.owner) hkey (hvlt hload))
  | Refund =>
    obtain ⟨stateAccount, rest, s', moved, rfl, hload, -, -, hpaid, hsave⟩ := refund_eq_ok hrun
    have hkey : key ≠ stateAccount.key := fun heq => hoth (congrArg some heq.symm)
    exact (h.quiet_paidOut hC hu hkey.symm hpaid).trans
      (quiet_save hsave (hpaid.owner hC hload.owner) hkey (hvlt hload))
  | Close =>
    obtain ⟨stateAccount, rest, s', rfl, hload, hempd⟩ := close_eq_ok hrun
    exact h.quiet_emptied hC hu hload (fun heq => hoth (congrArg some heq)) hempd

end Custody

end DomProtocol.Escrow
