import DomProtocol.Escrow.Run

/-!
# `Escrow.Deposits` — the exits of a funded escrow after deposits of third parties

Anybody can add lamports or tokens to a vault.  The payout checks exact balances, so a funded escrow can be left exactly
as long as nothing was added.  What was added is read off the history of the run.
-/

namespace DomProtocol.Escrow

open Lib EscrowStateV1

variable {vault account : AccountInfo}

section Deposits

variable (C : Cluster)

/-! ## What was added -/

/-- What an account holds of the asset of an escrow. -/
def holding (ledger : Ledger) (s : EscrowStateV1) (account : Pubkey) : Nat :=
  match s.assetKind with
  | .NativeSol => (ledger account).lamports.toNat
  | .LegacySpl => (tokenAt C ledger account).elim 0 (·.amount.toNat)

/-- What a vault holds right after its funding. -/
def agreed (s : EscrowStateV1) : Nat :=
  match s.assetKind with
  | .NativeSol => (C.minimumBalance 0).toNat + s.amount.toNat
  | .LegacySpl => s.amount.toNat

/-- What came into the vault since the escrow was funded. -/
def deposited (key : Pubkey) (s : EscrowStateV1) : List Transition → Nat
  | [] => 0
  | t :: earlier =>
    if t.isFund C key then 0
    else (vaultBalance C t.after s - vaultBalance C t.before s) + deposited key s earlier

/-- **What holds along a run**: while the escrow is funded, its vault has the agreed balance and what was added. -/
structure Backed (key : Pubkey) (s : EscrowStateV1) (w : Watched) (cur : EscrowStateV1) : Prop where
  holds : Holds C w.ledger key cur
  terms : SameTerms s cur
  balance : cur.status = .Funded → vaultBalance C w.ledger s = agreed C s + deposited C key s w.history

variable {C} {ledger ledger' moved : Ledger} {key : Pubkey} {s cur : EscrowStateV1} {point : Nat → Digest32}
  {w : Watched}

theorem agreed_congr (h : SameTerms s cur) : agreed C cur = agreed C s := by
  rw [agreed, agreed, h.assetKind, h.amount]

theorem Backed.quiet (h : Backed C key s w cur) {t : Transition} (hbef : t.before = w.ledger)
    (hqt : Quiet C key cur w.ledger t.after) (hfund : t.isFund C key = false) :
    Backed C key s ⟨t.after, t :: w.history⟩ cur := by
  refine ⟨h.holds.quiet hqt, h.terms, fun hstat => ?_⟩
  have hbal := h.balance hstat
  have hgrw := Quiet.balance h.holds hqt
  rw [vaultBalance_congr h.terms, vaultBalance_congr h.terms] at hgrw
  rw [deposited, hfund, hbef, if_neg Bool.false_ne_true]
  show vaultBalance C t.after s = _
  omega

variable (hC : Lawful C point) (h : Holds C ledger key s)

include hC h in
theorem Holds.agreed_of_deposited (hfree : ¬ IsDerived C s.funder) (hdep : Deposited C ledger moved key s)
    (hsave : Saved moved ledger' key cur) :
    vaultBalance C ledger' s = agreed C s := by
  have hbal := (h.deposit hC hfree hdep hsave).1
  cases hdep with
  | native hkind _ hbef _ _ =>
    simp only [vaultBalance, agreed, hkind, hbef] at hbal ⊢
    exact hbal
  | spl _ _ empty _ hkind _ _ _ _ hemp hzero _ _ _ _ =>
    simp only [vaultBalance, agreed, hkind, hemp, hzero, Option.elim_some] at hbal ⊢
    simpa using hbal

/-- **Step lemma.** -/
theorem Backed.step (hC : Lawful C point) (hu : Unshared C key) (h : Backed C key s w cur) {action : Action}
    (hperm : action.Permitted C w.ledger) (hcls : ¬ action.Executes C w.ledger key .Close) :
    ∃ cur', Backed C key s (w.next C action) cur' := by
  rcases h.holds.step_cases hC hu hperm hcls with ⟨hqt, hfund⟩ |
    ⟨clock, accounts, data, instruction, cur', moved, rfl, hexec, hhd, htms, hsave, hstep⟩
  · exact ⟨cur, h.quiet (t := ⟨w.ledger, action, action.next C w.ledger⟩) rfl hqt hfund⟩
  · rw [Watched.next]
    generalize (Action.exec clock accounts data).next C w.ledger = ledger' at *
    refine ⟨cur', hhd, h.terms.trans htms, fun hstat => ?_⟩
    cases hstep with
    | fund hfrom hto hfree hdep =>
      have hfund : Transition.isFund C key ⟨w.ledger, .exec clock accounts data, ledger'⟩ = true :=
        isFund_eq_true hexec
      have hexa := h.holds.agreed_of_deposited hC hfree hdep hsave
      rw [vaultBalance_congr h.terms, agreed_congr h.terms] at hexa
      rw [deposited, if_pos hfund]
      exact hexa
    | claim secret hfrom hto | refund hfrom hto => exact nomatch hto.symm.trans hstat

/-- **Run lemma.** -/
theorem backed_of_run (hC : Lawful C point) (hu : Unshared C key) (h : RunOf C key s w) :
    ∃ cur, Backed C key s w cur := by
  refine Reach.invariant (P := fun w => ∃ cur, Backed C key s w cur) ?_ ?_ h
  · intro w hw
    obtain ⟨hstat, hbks⟩ : _ ∧ Books C point key s w s := hw.books hC hu
    exact ⟨s, hbks.holds, hbks.terms, fun hfd => nomatch hstat.symm.trans hfd⟩
  · rintro w action ⟨cur, hbkd⟩ ⟨hperm, hcls⟩
    exact hbkd.step hC hu hperm hcls

/-! ## The exits -/

/-- The accounts of a payout to an owner, as the program asks for them, and a destination that can take the amount. -/
inductive RightAccounts (C : Cluster) (ledger : Ledger) (key : Pubkey) (s : EscrowStateV1) (owner : Pubkey) :
    List AccountInfo → Pubkey → Prop where
  | native (stateAccount vault destination : AccountInfo) (hkind : s.assetKind = .NativeSol)
      (hkeys : stateAccount.key = key ∧ vault.key = s.vault ∧ destination.key = owner)
      (hwritable : stateAccount.isWritable ∧ vault.isWritable ∧ destination.isWritable)
      (hroom : (ledger owner).lamports.toNat + s.amount.toNat < 2 ^ 64) :
      RightAccounts C ledger key s owner [stateAccount, vault, destination] owner
  | spl (stateAccount authority vault destination mint tokenProgram : AccountInfo) (held target : TokenAccount)
      (hkind : s.assetKind = .LegacySpl)
      (hkeys : stateAccount.key = key ∧ authority.key = (vaultAuthorityAddress C key).1 ∧ vault.key = s.vault ∧
        mint.key = s.mint ∧ tokenProgram.key = splToken)
      (hwritable : stateAccount.isWritable ∧ vault.isWritable ∧ destination.isWritable)
      (hheld : tokenAt C ledger s.vault = some held) (hthawed : held.frozen = false)
      (hwrapped : held.isNative → s.amount ≤ (ledger s.vault).lamports)
      (htarget : tokenAt C ledger destination.key = some target)
      (htargets : target.mint = s.mint ∧ target.owner = owner ∧ target.frozen = false)
      (hroom : target.amount.toNat + s.amount.toNat < 2 ^ 64)
      (hunwrapped : target.isNative → (ledger destination.key).lamports.toNat + s.amount.toNat < 2 ^ 64) :
      RightAccounts C ledger key s owner [stateAccount, authority, vault, destination, mint, tokenProgram] destination.key

theorem nextAccountInfo_cons (account : AccountInfo) (rest : List AccountInfo) :
    nextAccountInfo (account :: rest) = .ok (account, rest) := rfl

variable {destination : Pubkey}

theorem moveLamports_ok {source : Pubkey} {amount : UInt64}
    (hsou : amount.toNat ≤ (ledger source).lamports.toNat)
    (hroom : (ledger destination).lamports.toNat + amount.toNat < 2 ^ 64) :
    ∃ moved, moveLamports ledger source destination amount = .ok moved := by
  have hsub : checkedSub (ledger source).lamports amount = some ((ledger source).lamports - amount) :=
    if_pos (UInt64.le_iff_toNat_le.mpr hsou)
  have hadd : checkedAdd (ledger destination).lamports amount = some ((ledger destination).lamports + amount) :=
    if_pos hroom
  exact ⟨_, by rw [moveLamports, hsub, hadd]; rfl⟩

variable {owner : Pubkey} {rest : List AccountInfo}

/-- **A payout of lamports** goes through exactly when the vault has the agreed balance. -/
theorem Holds.terminalNative_iff (h : Holds C ledger key s) (hkind : s.assetKind = .NativeSol)
    (hacts : RightAccounts C ledger key s owner (account :: rest) destination)
    (hfloor : agreed C s ≤ vaultBalance C ledger s) :
    (∃ moved, terminalNative C ledger rest account s owner = .ok ([], moved) ∧
      holding C moved s destination = holding C ledger s destination + s.amount.toNat) ↔
      vaultBalance C ledger s = agreed C s ∧ destination ≠ s.vault := by
  obtain ⟨_, vault, destination, -, ⟨rfl, hvlt, rfl⟩, hwr, hroom⟩ | ⟨_, _, _, _, _, _, _, _, hspl⟩ := hacts
  swap
  · cases hkind.symm.trans hspl
  have hpos := h.amount_pos
  simp only [agreed, vaultBalance, holding, hkind] at hfloor ⊢
  simp only [terminalNative, validateNativeVault, nextAccountInfo_cons, ok_bind, inversion, requireWritable_eq_ok,
    requireKey_eq_ok, not_or, Decidable.not_not, Prod.mk.injEq, true_and]
  constructor
  · rintro ⟨_, ⟨-, -, -, moved, hmove, haft, rfl⟩, -⟩
    obtain ⟨-, hdest, hsou, -⟩ := moveLamports_eq_ok hmove
    rw [hvlt] at hsou haft
    by_cases hself : destination.key = s.vault
    · -- a payout into the vault itself adds the amount
      rw [hself, haft] at hdest
      omega
    · have hout := hsou (Ne.symm hself)
      rw [haft] at hout
      exact ⟨hout, hself⟩
  · rintro ⟨hbal, hne⟩
    have hheld : s.amount.toNat ≤ (ledger s.vault).lamports.toNat := by omega
    obtain ⟨moved, hmove⟩ := moveLamports_ok hheld hroom
    obtain ⟨-, hdest, hsou, -⟩ := moveLamports_eq_ok hmove
    have hout := hsou hne.symm
    have haft : (moved s.vault).lamports = C.minimumBalance 0 := UInt64.toNat_inj.mp (by omega)
    cases h.vault with
    | spl _ _ hkind' => cases hkind.symm.trans hkind'
    | native _ haddr hbump hown hdata _ =>
      refine ⟨moved, ⟨hwr.2.1, hwr.2.2, ?_, moved, ?_, ?_, rfl⟩, hdest⟩
      · rw [hvlt]
        exact ⟨haddr, hbump, rfl, hown, hdata⟩
      · rw [hvlt]
        exact hmove
      · rw [hvlt]
        exact haft

include hC h in
/-- **A payout of tokens** goes through exactly when the vault has the agreed balance. -/
theorem Holds.terminalSpl_iff (hkind : s.assetKind = .LegacySpl)
    (hacts : RightAccounts C ledger key s owner (account :: rest) destination) :
    (∃ moved, terminalSpl C ledger rest account s owner = .ok ([], moved) ∧
      holding C moved s destination = holding C ledger s destination + s.amount.toNat) ↔
      vaultBalance C ledger s = agreed C s ∧ destination ≠ s.vault := by
  obtain ⟨_, _, _, hnative⟩ | ⟨_, authority, vault, destination, mint, tokenProgram, held, target, -,
    ⟨rfl, hauth, hvlt, hmint, hprog⟩, hwr, hheld, hthw, hwrp, htgt, htgts, hroom, hunw⟩ := hacts
  · cases hkind.symm.trans hnative
  have hpos := h.amount_pos
  obtain ⟨hhlo, hheldData⟩ := owner_of_tokenAt hheld
  obtain ⟨htgto, htargetData⟩ := owner_of_tokenAt htgt
  simp only [agreed, vaultBalance, holding, hkind, hheld, htgt, Option.elim_some]
  simp only [terminalSpl, validateVaultAuthority, validateVaultToken, unpackTokenAccount, nextAccountInfo_cons,
    ok_bind, inversion, requireWritable_eq_ok, requireKey_eq_ok, not_or, Decidable.not_not, Prod.mk.injEq, true_and,
    hauth, hvlt, hmint, hprog, hheldData, htargetData, Option.some.injEq, exists_eq_left']
  constructor
  · rintro ⟨_, ⟨-, -, -, ⟨-, -, -, hamt⟩, -, moved, htrf, updated, hupd, hzero, rfl⟩, -⟩
    refine ⟨congrArg UInt64.toNat hamt, ?_⟩
    intro hself
    -- a payout into the vault itself leaves the amount there
    have htoks := hC.transferChecked _ _ _ _ _ _ _ _ htrf
    obtain ⟨held', hheld', -, hout⟩ := htoks.balance s.vault held hheld
    rw [if_pos rfl, if_pos hself.symm] at hout
    obtain rfl : updated = held' := Option.some.inj (hupd.symm.trans (owner_of_tokenAt hheld').2)
    have hzero' : updated.amount.toNat = 0 := congrArg UInt64.toNat hzero
    have hamt' : held.amount.toNat = s.amount.toNat := congrArg UInt64.toNat hamt
    omega
  · rintro ⟨hbal, hne⟩
    cases h.vault with
    | native hkind' => cases hkind.symm.trans hkind'
    | spl token found _ _ hbump htok htokm htoko _ _ hminted hdecm =>
      obtain rfl : held = token := Option.some.inj (hheld.symm.trans htok)
      have hamt : held.amount = s.amount := UInt64.toNat_inj.mp hbal
      obtain ⟨moved, htrf⟩ := hC.transferable ledger s.vault s.mint destination.key
        (vaultAuthorityAddress C account.key).1 s.amount s.tokenDecimals
        ⟨⟨held, hheld, htokm, htoko, hthw, hamt ▸ UInt64.le_refl _, hwrp⟩,
          ⟨target, htgt, htgts.1, htgts.2.2, hroom, hunw⟩, found, hminted, hdecm⟩
      have htoks := hC.transferChecked _ _ _ _ _ _ _ _ htrf
      obtain ⟨held', target', hheld', htgt', hout, hin⟩ := htoks.between (Ne.symm hne) hheld htgt
      have hzero : held'.amount = 0 := UInt64.toNat_inj.mp (by simp only [UInt64.toNat_zero]; omega)
      refine ⟨moved, ⟨hwr.2.1, hwr.2.2, h.authorityBump, ⟨hhlo, htoko, htokm, hamt⟩,
        ⟨htgto, htgts.1, htgts.2.1⟩, moved, htrf, held', (owner_of_tokenAt hheld').2, hzero, rfl⟩, ?_⟩
      rw [htgt', Option.elim_some]
      exact hin

variable {accounts : List AccountInfo}

include hC h in
theorem Holds.terminalTransfer_iff (hacts : RightAccounts C ledger key s owner accounts destination)
    (hfloor : agreed C s ≤ vaultBalance C ledger s) {refund : Bool}
    (hown : (if refund then s.refundRecipient else s.recipient) = owner) :
    ∃ stateAccount rest, accounts = stateAccount :: rest ∧ stateAccount.key = key ∧ stateAccount.isWritable = true ∧
      ((∃ moved, terminalTransfer C ledger rest stateAccount s refund = .ok ([], moved) ∧
        holding C moved s destination = holding C ledger s destination + s.amount.toNat) ↔
        vaultBalance C ledger s = agreed C s ∧ destination ≠ s.vault) := by
  have hright := hacts
  cases hright with
  | native stateAccount vault target hkind hkeys hwr =>
    refine ⟨stateAccount, _, rfl, hkeys.1, hwr.1, ?_⟩
    simp only [terminalTransfer, hkind, hown]
    exact h.terminalNative_iff hkind hacts hfloor
  | spl stateAccount authority vault target mint tokenProgram held token hkind hkeys hwr =>
    refine ⟨stateAccount, _, rfl, hkeys.1, hwr.1, ?_⟩
    simp only [terminalTransfer, hkind, hown]
    exact h.terminalSpl_iff hC hkind hacts

theorem Saved.holding (h : Saved moved ledger' key cur) (hown : (moved key).owner = programId) (s : EscrowStateV1)
    (account : Pubkey) : holding C ledger' s account = holding C moved s account := by
  rw [Escrow.holding, Escrow.holding, h.lamports, h.tokenAt hown]

theorem Holds.loadState_eq (h : Holds C ledger key s) (hkey : account.key = key)
    (hwr : account.isWritable = true) : loadState ledger account = .ok s ∧ requireStatePdas C account s = .ok () := by
  obtain rfl := hkey
  have hdec := decode_encode h.valid
  rw [← h.data] at hdec
  simp only [loadState, requireOwner, requireStatePdas, inversion, requireWritable_eq_ok, not_or, Decidable.not_not]
  exact ⟨⟨hwr, h.owner, hdec⟩, h.address, h.bump⟩

theorem Holds.saveState_iff (h : Holds C ledger key s) (hkey : account.key = key)
    {s' : EscrowStateV1} : (∃ ledger', saveState ledger account s' = .ok ledger') ↔ s'.validate = .ok () := by
  obtain rfl := hkey
  have hlen : (ledger account.key).data.length = stateLen := h.data ▸ s.length_encode
  simp only [saveState, inversion, Decidable.not_not, hlen, true_and, exists_and_left, exists_eq', and_true]

/-- The part of the checks of a state that depends on its status. -/
def EscrowStateV1.fitsStatus (s : EscrowStateV1) : Prop :=
  match s.status with
  | .Initialized => s.fundedAmount = 0
  | .Funded => s.fundedAmount = s.amount
  | .Claimed => s.fundedAmount = 0 ∧ s.terminalSlot ≠ 0 ∧ s.revealedSecretBe ≠ 0
  | .Refunded => s.fundedAmount = 0 ∧ s.terminalSlot ≠ 0 ∧ s.revealedSecretBe = 0
  | .Closed => True

theorem EscrowStateV1.fitsStatus_of_validate (h : s.validate = .ok ()) : s.fitsStatus := by
  unfold EscrowStateV1.validate at h
  unfold EscrowStateV1.fitsStatus
  cases hkind : s.assetKind <;> cases hstat : s.status <;>
    simp only [hkind, hstat, inversion, not_or, Decidable.not_not] at h ⊢ <;>
    exact h.2.2

theorem EscrowStateV1.validate_update (h : s.validate = .ok ()) (status : EscrowStatus) (funded slot : UInt64)
    (secret : Digest32) :
    { s with status, fundedAmount := funded, revealedSecretBe := secret, terminalSlot := slot }.validate = .ok () ↔
      { s with status, fundedAmount := funded, revealedSecretBe := secret, terminalSlot := slot }.fitsStatus := by
  unfold EscrowStateV1.validate at h ⊢
  unfold EscrowStateV1.fitsStatus
  cases hkind : s.assetKind <;> cases status <;>
    simp only [hkind, inversion, not_or, Decidable.not_not] at h ⊢ <;>
    exact ⟨fun hnew => hnew.2.2, fun hfits => ⟨h.1, h.2.1, hfits⟩⟩

theorem Holds.fundedAmount_eq (h : Holds C ledger key s) (hstat : s.status = .Funded) : s.fundedAmount = s.amount := by
  have hfits := fitsStatus_of_validate h.valid
  simpa only [fitsStatus, hstat] using hfits

variable (hu : Unshared C key) (hfloor : agreed C s ≤ vaultBalance C ledger s)

include hC hu h hfloor in
theorem Holds.exit_iff (hacts : RightAccounts C ledger key s owner accounts destination) (refund : Bool)
    (hown : (if refund then s.refundRecipient else s.recipient) = owner) :
    ∃ stateAccount rest, accounts = stateAccount :: rest ∧ stateAccount.key = key ∧ stateAccount.isWritable = true ∧
      ∀ s' : EscrowStateV1,
        ((∃ ledger', (∃ others moved, terminalTransfer C ledger rest stateAccount s refund = .ok (others, moved) ∧
            others = [] ∧ saveState moved stateAccount s' = .ok ledger') ∧
          holding C ledger' s destination = holding C ledger s destination + s.amount.toNat) ↔
          vaultBalance C ledger s = agreed C s ∧ destination ≠ s.vault ∧ s'.validate = .ok ()) := by
  obtain ⟨stateAccount, rest, rfl, hkey, hwr, hterm⟩ := h.terminalTransfer_iff hC hacts hfloor hown
  refine ⟨stateAccount, rest, rfl, hkey, hwr, fun s' => ⟨?_, ?_⟩⟩
  · rintro ⟨ledger', ⟨_, moved, hpaid, rfl, hsave⟩, hholding⟩
    have hmvd := h.paid hC hu (hkey ▸ paidOut_of_terminalTransfer hpaid)
    have hsaved := hkey ▸ saved_of_ok hsave
    obtain ⟨hbal, hne⟩ := hterm.mp ⟨moved, hpaid, (hsaved.holding hmvd.owner s destination).symm.trans hholding⟩
    exact ⟨hbal, hne, (hmvd.saveState_iff hkey).mp ⟨ledger', hsave⟩⟩
  · rintro ⟨hbal, hne, hval⟩
    obtain ⟨moved, hpaid, hholding⟩ := hterm.mpr ⟨hbal, hne⟩
    have hmvd := h.paid hC hu (hkey ▸ paidOut_of_terminalTransfer hpaid)
    obtain ⟨ledger', hsave⟩ := (hmvd.saveState_iff hkey).mpr hval
    have hsaved := hkey ▸ saved_of_ok hsave
    exact ⟨ledger', ⟨[], moved, hpaid, rfl, hsave⟩, (hsaved.holding hmvd.owner s destination).trans hholding⟩

include hC hu h in
/-- **A claim with the right secret and accounts.** -/
theorem Holds.claim_iff (hstat : s.status = .Funded) (hfloor : agreed C s ≤ vaultBalance C ledger s) (clock : Clock)
    (hacts : RightAccounts C ledger key s s.recipient accounts destination) {secret : Digest32}
    (hsec : verifySharedSecret C secret s.claimPointEd25519 = .ok ()) :
    (∃ ledger', claim C ledger clock accounts secret = .ok ledger' ∧
      holding C ledger' s destination = holding C ledger s destination + s.amount.toNat) ↔
      vaultBalance C ledger s = agreed C s ∧ destination ≠ s.vault ∧ clock.slot ≠ 0 := by
  obtain ⟨stateAccount, rest, rfl, hkey, hwr, hexit⟩ := h.exit_iff hC hu hfloor hacts false rfl
  obtain ⟨hload, hpdas⟩ := h.loadState_eq hkey hwr
  have hnz : secret ≠ 0 := ((verifySharedSecret_eq_ok hC).mp hsec).1
  simp only [claim, nextAccountInfo_cons, ok_bind, hload, hpdas, hstat, h.fundedAmount_eq hstat, hsec,
    inversion, ensureNoExtra_eq_ok, Prod.exists, not_true_eq_false, or_self, not_false_eq_true, true_and, ne_eq]
  rw [hexit, validate_update h.valid]
  simp only [fitsStatus, true_and, hnz, ne_eq, not_false_eq_true, and_true]

include hC hu h in
/-- **A refund from the deadline on with the right accounts.** -/
theorem Holds.refund_iff (hstat : s.status = .Funded) (hfloor : agreed C s ≤ vaultBalance C ledger s) (clock : Clock)
    (hacts : RightAccounts C ledger key s s.refundRecipient accounts destination)
    (htime : s.refundAfterUnix ≤ clock.unixTimestamp) : (∃ ledger', refund C ledger clock accounts = .ok ledger' ∧
      holding C ledger' s destination = holding C ledger s destination + s.amount.toNat) ↔
      vaultBalance C ledger s = agreed C s ∧ destination ≠ s.vault ∧ clock.slot ≠ 0 := by
  obtain ⟨stateAccount, rest, rfl, hkey, hwr, hexit⟩ := h.exit_iff hC hu hfloor hacts true rfl
  obtain ⟨hload, hpdas⟩ := h.loadState_eq hkey hwr
  simp only [refund, nextAccountInfo_cons, ok_bind, hload, hpdas, hstat, h.fundedAmount_eq hstat,
    Int64.not_lt.mpr htime, inversion, ensureNoExtra_eq_ok, Prod.exists, not_true_eq_false, or_self,
    not_false_eq_true, true_and, ne_eq]
  rw [hexit, validate_update h.valid]
  simp only [fitsStatus, true_and, and_true, ne_eq]

theorem RightAccounts.congr (h : RightAccounts C ledger key s owner accounts destination) (htms : SameTerms s cur) :
    RightAccounts C ledger key cur owner accounts destination := by
  cases h with
  | native stateAccount vault target hkind hkeys hwr hroom =>
    exact .native stateAccount vault target (htms.assetKind.trans hkind) (htms.vault ▸ hkeys) hwr
      (htms.amount ▸ hroom)
  | spl stateAccount authority vault target mint tokenProgram held token hkind hkeys hwr hheld hthw hwrp htgt
      htgts hroom hunw =>
      exact .spl stateAccount authority vault target mint tokenProgram held token (htms.assetKind.trans hkind)
        (htms.vault ▸ htms.mint ▸ hkeys) hwr (htms.vault ▸ hheld) hthw
        (htms.vault ▸ htms.amount ▸ hwrp) htgt (htms.mint ▸ htgts) (htms.amount ▸ hroom)
        (htms.amount ▸ hunw)

theorem holding_congr (h : SameTerms s cur) (account : Pubkey) : holding C ledger cur account = holding C ledger s account := by
  rw [holding, holding, h.assetKind]

/-- **The exits of a funded escrow.**  In every run, while the escrow is funded, a claim with the right secret and accounts
and from the deadline on a refund with the right accounts pay the agreed amount exactly as long as nothing was added to the
vault; the destination is not the vault itself and the slot is not zero. -/
theorem escrow_exits (hC : Lawful C point) (hu : Unshared C key) (h : RunOf C key s w)
    (hcur : EscrowStateV1.decode (w.ledger key).data = .ok cur) (hstatus : cur.status = .Funded) (clock : Clock)
    (accounts : List AccountInfo) (data : List UInt8) (destination : Pubkey) :
    (∀ secret, EscrowInstructionV1.decode data = .ok (.Claim secret) → secret ≠ 0 → secret.toNat < 2 ^ 252 →
      point secret.toNat = s.claimPointEd25519 → RightAccounts C w.ledger key s s.recipient accounts destination →
      ((∃ ledger', process C programId w.ledger clock accounts data = .ok ledger' ∧
        holding C ledger' s destination = holding C w.ledger s destination + s.amount.toNat) ↔
        deposited C key s w.history = 0 ∧ destination ≠ s.vault ∧ clock.slot ≠ 0)) ∧
    (EscrowInstructionV1.decode data = .ok .Refund → s.refundAfterUnix ≤ clock.unixTimestamp →
      RightAccounts C w.ledger key s s.refundRecipient accounts destination →
      ((∃ ledger', process C programId w.ledger clock accounts data = .ok ledger' ∧
        holding C ledger' s destination = holding C w.ledger s destination + s.amount.toNat) ↔
        deposited C key s w.history = 0 ∧ destination ≠ s.vault ∧ clock.slot ≠ 0)) := by
  obtain ⟨cur', hbacked⟩ := backed_of_run hC hu h
  obtain rfl : cur' = cur := by
    rw [hbacked.holds.data, decode_encode hbacked.holds.valid] at hcur
    exact Except.ok.inj hcur
  have hterms := hbacked.terms
  have hbalance := hbacked.balance hstatus
  rw [← vaultBalance_congr hterms, ← agreed_congr hterms] at hbalance
  have hexact : vaultBalance C w.ledger cur' = agreed C cur' ↔ deposited C key s w.history = 0 := by omega
  constructor
  · intro secret hdecode hnonzero hdomain hpoint haccounts
    have hclaimPoint : cur'.claimPointEd25519 ≠ 0 := by
      have hvalid := hbacked.holds.valid
      simp only [validate, inversion, not_or] at hvalid
      exact hvalid.1.2.2.2.2.2.2.2.1
    have hiff := hbacked.holds.claim_iff hC hu hstatus (by omega) clock
      (hterms.recipient ▸ haccounts.congr hterms)
      ((verifySharedSecret_eq_ok hC).mpr ⟨hnonzero, hclaimPoint, hdomain, hterms.claimPointEd25519 ▸ hpoint⟩)
    rw [hexact, hterms.vault, hterms.amount] at hiff
    simp only [holding_congr hterms] at hiff
    simpa only [process_eq_ok, hdecode, Except.ok.injEq, exists_eq_left', EscrowInstructionV1.run] using hiff
  · intro hdecode htime haccounts
    have hiff := hbacked.holds.refund_iff hC hu hstatus (by omega) clock
      (hterms.refundRecipient ▸ haccounts.congr hterms) (hterms.refundAfterUnix ▸ htime)
    rw [hexact, hterms.vault, hterms.amount] at hiff
    simp only [holding_congr hterms] at hiff
    simpa only [process_eq_ok, hdecode, Except.ok.injEq, exists_eq_left', EscrowInstructionV1.run] using hiff

/-! ## Dust -/

theorem foreign_of_lamports (hrest : ∀ a, OnlyLamports (ledger a) (ledger' a))
    (hmore : ∀ a, (ledger a).lamports ≤ (ledger' a).lamports) : Foreign C ledger ledger' := by
  refine ⟨fun a _ _ => ⟨hrest a, hmore a⟩, fun a _ _ => .inl (hrest a), fun a _ hown => (hrest a).2.trans hown, ?_, ?_⟩
  · intro a token htok _ _ _
    exact ⟨token, (tokenAt_congr (hrest a)).trans htok, .refl token, UInt64.le_refl _⟩
  · intro a mint hmint
    exact ⟨mint, (mintAt_congr (hrest a)).trans hmint, rfl⟩

end Deposits

namespace SmallEscrow

def funded : Watched := play [funding]

/-- Somebody sends one lamport to the vault. -/
def dust : Action := .foreign (funded.ledger.setLamports vaultKey ((funded.ledger vaultKey).lamports + 1))

def dusted : Watched := funded.next smallCluster dust

theorem runOf_dusted : RunOf smallCluster stateKey terms dusted := by
  refine .step (runOf_play (by decide +kernel)) dust ⟨foreign_of_lamports (fun a => ?_) (fun a => ?_), nofun⟩
  · rw [setLamports_apply]
    exact ⟨rfl, rfl⟩
  · rw [setLamports_apply]
    show (funded.ledger a).lamports ≤ if a = vaultKey then (funded.ledger vaultKey).lamports + 1 else (funded.ledger a).lamports
    split
    · rename_i heq
      rw [heq]
      decide +kernel
    · exact UInt64.le_refl _

theorem rightAccounts_claim {w : Watched} (hroom : (w.ledger 200).lamports.toNat + 50 < 2 ^ 64) :
    RightAccounts smallCluster w.ledger stateKey terms terms.recipient [stateInfo, vaultInfo, recipientInfo] 200 :=
  .native stateInfo vaultInfo recipientInfo rfl ⟨rfl, rfl, rfl⟩ ⟨rfl, rfl, rfl⟩ hroom

end SmallEscrow

open SmallEscrow in
/-- Without dust the claim pays. -/
theorem clean_claim_pays : ∃ ledger', process smallCluster programId funded.ledger (clockAt 3)
    [stateInfo, vaultInfo, recipientInfo] (EscrowInstructionV1.Claim 9).encode = .ok ledger' ∧
      holding smallCluster ledger' terms 200 = holding smallCluster funded.ledger terms 200 + 50 := by
  have hstate : ∃ cur, decode (funded.ledger stateKey).data = .ok cur ∧ cur.status = .Funded :=
    ⟨{ terms with status := .Funded, fundedAmount := 50 }, by decide +kernel, rfl⟩
  obtain ⟨cur, hcur, hstatus⟩ := hstate
  have hrun : RunOf smallCluster stateKey terms (play [funding]) := runOf_play (by decide +kernel)
  have hexits := (escrow_exits SmallCluster.lawful unshared hrun hcur hstatus (clockAt 3)
    [stateInfo, vaultInfo, recipientInfo] (EscrowInstructionV1.Claim 9).encode 200).1 9
    (by decide +kernel) (by decide) (by decide) (by decide) (rightAccounts_claim (by decide +kernel))
  exact hexits.mpr ⟨by decide +kernel, by decide +kernel, by decide⟩

open SmallEscrow in
/-- **One lamport from anybody closes both exits** of a funded escrow. -/
theorem dust_blocks_exits : RunOf smallCluster stateKey terms dusted ∧
    EscrowStateV1.decode (dusted.ledger stateKey).data = .ok { terms with status := .Funded, fundedAmount := 50 } ∧
    SmallCluster.point 9 = terms.claimPointEd25519 ∧
    RightAccounts smallCluster dusted.ledger stateKey terms terms.recipient [stateInfo, vaultInfo, recipientInfo] 200 ∧
    RightAccounts smallCluster dusted.ledger stateKey terms terms.refundRecipient [stateInfo, vaultInfo, funderInfo] 100 ∧
    (process smallCluster programId dusted.ledger (clockAt 3) [stateInfo, vaultInfo, recipientInfo]
      (EscrowInstructionV1.Claim 9).encode).toOption.isNone = true ∧
    terms.refundAfterUnix ≤ (clockAt 5000).unixTimestamp ∧
    (process smallCluster programId dusted.ledger (clockAt 5000) [stateInfo, vaultInfo, funderInfo]
      EscrowInstructionV1.Refund.encode).toOption.isNone = true := by
  refine ⟨runOf_dusted, by decide +kernel, by decide, rightAccounts_claim (by decide +kernel), ?_, by decide +kernel,
    by decide, by decide +kernel⟩
  exact .native stateInfo vaultInfo funderInfo rfl ⟨rfl, rfl, rfl⟩ ⟨rfl, rfl, rfl⟩ (by decide +kernel)

end DomProtocol.Escrow
