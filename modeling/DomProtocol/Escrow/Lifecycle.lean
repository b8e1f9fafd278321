import DomProtocol.Escrow.Run

/-!
# `Escrow.Lifecycle` — the statuses of a settlement id over whole runs

The state account of a settlement id is found at one derived address, before, during and after its escrow.  Every action
moves the status found there forward or leaves it, except the initialization of an unused account; since a close leaves the
account without lamports and the runtime then removes it, the account of a settled escrow can become unused again.
-/

namespace DomProtocol.Escrow

open Lib

variable {owner : Pubkey} {instruction : EscrowInstructionV1} {accounts : List AccountInfo} {data : List UInt8}
  {clock : Clock}

section Lifecycle

variable (C : Cluster)

/-! ## Statuses -/

/-- The status of the escrow at an address, if the program has a state there. -/
def statusAt (ledger : Ledger) (key : Pubkey) : Option EscrowStatus :=
  if (ledger key).owner = programId then (EscrowStateV1.decode (ledger key).data).toOption.map (·.status) else none

/-- What an action other than an initialization does to a status. -/
inductive Forward (before : Option EscrowStatus) : Option EscrowStatus → Prop where
  | same : Forward before before
  | gone : Forward before none
  | funded (hbefore : before = some .Initialized) : Forward before (some .Funded)
  | claimed (hbefore : before = some .Funded) : Forward before (some .Claimed)
  | refunded (hbefore : before = some .Funded) : Forward before (some .Refunded)

/-- An account of the program or of nobody. -/
def Plain (account : Account) : Prop := account.owner = programId ∨ account.owner = systemProgram

/-- An initialization names the address, and the account there is unused. -/
def Action.Initializes (ledger : Ledger) (key : Pubkey) : Action → Prop
  | exec _ accounts data => ∃ params, (EscrowInstructionV1.decode data = .ok (.InitializeNative params) ∨
      EscrowInstructionV1.decode data = .ok (.InitializeSpl params)) ∧ ∃ account, accounts[1]? = some account ∧
      account.key = key ∧ requireUninitialized ledger account = .ok ()
  | foreign _ => False

variable {C} {ledger ledger' moved : Ledger} {key other : Pubkey} {s : EscrowStateV1} {point : Nat → Digest32}

theorem statusAt_congr (h : OnlyLamports (ledger key) (ledger' key)) : statusAt ledger' key = statusAt ledger key := by
  rw [statusAt, statusAt, h.1, h.2]

theorem statusAt_of_loaded (h : Loaded C ledger key s) : statusAt ledger key = some s.status := by
  rw [statusAt, if_pos h.owner, h.decoded]
  rfl

theorem Saved.statusAt (h : Saved moved ledger' key s) (hown : (moved key).owner = programId) :
    statusAt ledger' key = some s.status := by
  rw [Escrow.statusAt, h.state, if_pos hown, EscrowStateV1.decode_encode h.valid]
  rfl

/-! ## Accounts that stay -/

theorem Plain.tokenAt (h : Plain (ledger key)) : tokenAt C ledger key = none := by
  refine tokenAt_of_owner fun hspl => ?_
  rcases h with h | h
  · exact programId_ne_splToken (h.symm.trans hspl)
  · exact splToken_ne_systemProgram (hspl.symm.trans h)

theorem Plain.congr {a b : Account} (h : Plain a) (hsame : OnlyLamports a b) : Plain b := by
  rw [Plain, hsame.2]
  exact h

theorem OnlyLamports.trans {a b c : Account} (h : OnlyLamports a b) (h' : OnlyLamports b c) : OnlyLamports a c :=
  ⟨h'.1.trans h.1, h'.2.trans h.2⟩

theorem Deposited.plain (hC : Lawful C point) (h : Deposited C ledger moved other s) (hpln : Plain (ledger key)) :
    OnlyLamports (ledger key) (moved key) := by
  cases h with
  | native _ _ _ htrf _ => exact (hC.systemTransfer _ _ _ _ _ htrf).rest key
  | spl _ _ _ _ _ _ _ _ _ _ _ _ htrf _ _ =>
    rw [(hC.transferChecked _ _ _ _ _ _ _ _ htrf).rest key hpln.tokenAt]
    exact ⟨rfl, rfl⟩

theorem PaidOut.plain (hC : Lawful C point) (h : PaidOut C ledger moved other s owner)
    (hpln : Plain (ledger key)) : OnlyLamports (ledger key) (moved key) := by
  cases h with
  | native _ _ hmove _ => exact (moveLamports_eq_ok hmove).1 key
  | spl _ _ _ _ _ _ _ _ _ _ htrf =>
    rw [(hC.transferChecked _ _ _ _ _ _ _ _ htrf).rest key hpln.tokenAt]
    exact ⟨rfl, rfl⟩

theorem Emptied.plain (hC : Lawful C point) (h : Emptied C ledger ledger' other s) (hpln : Plain (ledger key)) :
    OnlyLamports (ledger key) (ledger' key) := by
  cases h with
  | native drained hvlt hstate =>
    exact ((drainAccount_eq_ok hvlt).1 key).trans ((drainAccount_eq_ok hstate).1 key)
  | spl vault held closed hheld _ hcls hstate =>
    have hne : key ≠ vault := by
      rintro rfl
      exact nomatch hpln.tokenAt.symm.trans hheld
    exact ((hC.closeAccount _ _ _ _ _ hcls).rest key hne).1.trans ((drainAccount_eq_ok hstate).1 key)

theorem AccountCreated.plain {payer account : Pubkey} {lamports : UInt64} {space : Nat}
    (h : AccountCreated payer account lamports space owner ledger ledger') (hne : key ≠ account) :
    OnlyLamports (ledger key) (ledger' key) := by
  by_cases hpayer : key = payer
  · rw [hpayer]
    exact h.paid (hpayer ▸ hne)
  · rw [h.rest key hpayer hne]
    exact ⟨rfl, rfl⟩

theorem Saved.plain (h : Saved moved ledger' other s) (hne : key ≠ other) : OnlyLamports (moved key) (ledger' key) := by
  rw [h.frame hne]
  exact ⟨rfl, rfl⟩

theorem Opened.plain (hC : Lawful C point) (h : Opened C ledger ledger' other s) (hne : key ≠ other)
    (hnat : key ≠ (nativeVaultAddress C other).1) (htok : key ≠ (tokenVaultAddress C other).1) :
    OnlyLamports (ledger key) (ledger' key) := by
  cases h with
  | native created vaulted _ hvlt _ hstate hcr hsave =>
    have hcrt := (hC.createAccount _ _ _ _ _ _ _ hstate).plain hne
    have hvltd := (hC.createAccount _ _ _ _ _ _ _ hcr).plain (hvlt ▸ hnat)
    exact hcrt.trans (hvltd.trans (hsave.plain hne))
  | spl _ created vaulted initialized _ hvlt _ _ _ hstate hcr hopg hsave =>
    have hcrt := (hC.createAccount _ _ _ _ _ _ _ hstate).plain hne
    have hvltd := (hC.createAccount _ _ _ _ _ _ _ hcr).plain (hvlt ▸ htok)
    have hinit : initialized key = vaulted key := (hC.initializeAccount3 _ _ _ _ _ hopg).rest key (hvlt ▸ htok)
    exact hcrt.trans (hvltd.trans (hinit ▸ hsave.plain hne))

/-! ## Steps -/

/-- What an action does at the address of a state. -/
structure Moves (ledger ledger' : Ledger) (key : Pubkey) (initializes : Prop) : Prop where
  plain : Plain (ledger' key)
  status : Forward (statusAt ledger key) (statusAt ledger' key) ∨
    initializes ∧ statusAt ledger' key = some .Initialized

variable {initializes : Prop}

theorem moves_of_onlyLamports (hpln : Plain (ledger key)) (h : OnlyLamports (ledger key) (ledger' key)) :
    Moves ledger ledger' key initializes :=
  ⟨hpln.congr h, .inl (statusAt_congr h ▸ .same)⟩

theorem moves_of_saved {s' : EscrowStateV1} (hpln : Plain (ledger key)) (hmvd : OnlyLamports (ledger key) (moved key))
    (hload : Loaded C ledger other s) (hsave : Saved moved ledger' other s')
    (hforward : Forward (some s.status) (some s'.status)) : Moves ledger ledger' key initializes := by
  by_cases hkey : key = other
  · subst hkey
    have hown : (moved key).owner = programId := hmvd.2.trans hload.owner
    have hwrt : (ledger' key).owner = programId := hsave.state ▸ hown
    refine ⟨.inl hwrt, .inl ?_⟩
    rw [statusAt_of_loaded hload, hsave.statusAt hown]
    exact hforward
  · exact moves_of_onlyLamports hpln (hmvd.trans (hsave.plain hkey))

variable {settlementId : Digest32}

theorem moves_of_opened (hC : Lawful C point) (hu : Unshared C key)
    (haddr : key = (stateAddress C settlementId).1) (hpln : Plain (ledger key))
    (hfr : Fresh C ledger other s) (hopd : Opened C ledger ledger' other s) (hnamed : key = other → initializes) :
    Moves ledger ledger' key initializes := by
  by_cases hkey : key = other
  · subst hkey
    have hhd := holds_of_opened hC hu hfr hopd
    refine ⟨.inl hhd.owner, .inr ⟨hnamed rfl, ?_⟩⟩
    rw [statusAt, if_pos hhd.owner, hhd.data, EscrowStateV1.decode_encode hhd.valid, ← hfr.status]
    rfl
  · have huni := hu.state _ haddr
    refine moves_of_onlyLamports hpln (hopd.plain hC hkey ?_ ?_) <;> rw [haddr]
    · exact huni.ne (by simp) (.inl stateSeed_ne_nativeVaultSeed.symm)
    · exact huni.ne (by simp) (.inl stateSeed_ne_tokenVaultSeed.symm)

theorem Fresh.requireUninitialized (h : Fresh C ledger other s) {account : AccountInfo} (hkey : account.key = other) :
    requireUninitialized ledger account = .ok () := by
  simp only [Escrow.requireUninitialized, rejectIf_eq_ok, not_or, Decidable.not_not, hkey]
  exact ⟨h.unused, h.blank⟩

/-- **Step lemma** for an instruction. -/
theorem moves_of_run (hC : Lawful C point) (hu : Unshared C key) (haddr : key = (stateAddress C settlementId).1)
    (hpln : Plain (ledger key)) (hdec : EscrowInstructionV1.decode data = .ok instruction)
    (hrun : instruction.run C ledger clock accounts = .ok ledger') :
    Moves ledger ledger' key ((Action.exec clock accounts data).Initializes ledger key) := by
  cases instruction with
  | InitializeNative params | InitializeSpl params =>
    obtain ⟨funder, stateAccount, rest, s, rfl, hfr, hopd⟩ := initialize_eq_ok params (by simp) hrun
    refine moves_of_opened hC hu haddr hpln hfr hopd fun hkey => ?_
    exact ⟨params, by simp [hdec], stateAccount, rfl, hkey.symm, hfr.requireUninitialized rfl⟩
  | Fund =>
    obtain ⟨funder, stateAccount, rest, s, moved, rfl, -, hload, -, hstat, hdep, hsave⟩ := fund_eq_ok hrun
    exact moves_of_saved hpln (hdep.plain hC hpln) hload hsave (.funded (congrArg some hstat))
  | Claim secret =>
    obtain ⟨stateAccount, rest, s, moved, rfl, hload, hstat, -, hpaid, hsave⟩ := claim_eq_ok hrun
    exact moves_of_saved hpln (hpaid.plain hC hpln) hload hsave (.claimed (congrArg some hstat))
  | Refund =>
    obtain ⟨stateAccount, rest, s, moved, rfl, hload, hstat, -, hpaid, hsave⟩ := refund_eq_ok hrun
    exact moves_of_saved hpln (hpaid.plain hC hpln) hload hsave (.refunded (congrArg some hstat))
  | Close =>
    obtain ⟨stateAccount, rest, s, rfl, hload, hempd⟩ := close_eq_ok hrun
    exact moves_of_onlyLamports hpln (hempd.plain hC hpln)

theorem statusAt_of_system (h : (ledger key).owner = systemProgram) : statusAt ledger key = none := by
  rw [statusAt, h, if_neg programId_ne_systemProgram.symm]

/-- **Step lemma** for any action. -/
theorem moves_of_action (hC : Lawful C point) (hu : Unshared C key)
    (haddr : key = (stateAddress C settlementId).1) (hpln : Plain (ledger key)) {action : Action}
    (hperm : action.Permitted C ledger) :
    Moves ledger (action.next C ledger) key (action.Initializes ledger key) := by
  cases action with
  | exec clock accounts data =>
    cases hproc : process C programId ledger clock accounts data with
    | error e =>
      rw [next_of_error hproc]
      exact moves_of_onlyLamports hpln ⟨rfl, rfl⟩
    | ok ledger' =>
      rw [next_of_ok hproc]
      obtain ⟨instruction, hdec, hrun⟩ := process_eq_ok.mp hproc
      exact moves_of_run hC hu haddr hpln hdec hrun
  | foreign after =>
    have hfor : Foreign C ledger after := hperm
    have hgone (hsys : (after key).owner = systemProgram) :
        Moves ledger after key ((Action.foreign after).Initializes ledger key) :=
      ⟨.inr hsys, .inl (statusAt_of_system hsys ▸ .gone)⟩
    rcases hpln with hown | hsys
    · by_cases hlam : (ledger key).lamports = 0
      · -- a closed account stays or goes away
        rcases hfor.dormant key hown hlam with hsame | hsys
        · exact moves_of_onlyLamports (.inl hown) hsame
        · exact hgone hsys
      · exact moves_of_onlyLamports (.inl hown) (hfor.owned key hown (UInt64.pos_iff_ne_zero.mpr hlam)).1
    · exact hgone (hfor.derived key ⟨_, haddr.symm⟩ hsys)

theorem not_initializes
    (hdec : EscrowInstructionV1.decode data = .ok instruction) (hnat : ∀ params, instruction ≠ .InitializeNative params)
    (hspl : ∀ params, instruction ≠ .InitializeSpl params) :
    ¬ (Action.exec clock accounts data).Initializes ledger key := by
  rintro ⟨params, hopg | hopg, -⟩
  · exact hnat params (Except.ok.inj (hdec.symm.trans hopg))
  · exact hspl params (Except.ok.inj (hdec.symm.trans hopg))

/-! ## Runs -/

/-- The escrow at the address was claimed or refunded at some time. -/
def settled (key : Pubkey) (w : Watched) : Bool :=
  w.history.any fun t => statusAt t.after key = some .Claimed ∨ statusAt t.after key = some .Refunded

/-- The program was just deployed: nothing is at its addresses yet. -/
def Deployed (C : Cluster) (w : Watched) : Prop :=
  w.history = [] ∧ ∀ key, IsDerived C key → (w.ledger key).owner = systemProgram

/-- **The runs of the program**: any instructions, and whatever other programs do. -/
def ProgramRun (C : Cluster) : Watched → Prop :=
  Reach (Deployed C) (fun w action => action.Permitted C w.ledger) (Watched.next C)

/-- The runs in which no unused account of a settled escrow is initialized again. -/
def OnceRun (C : Cluster) (key : Pubkey) : Watched → Prop :=
  Reach (Deployed C) (fun w action => action.Permitted C w.ledger ∧ (settled key w → ¬ action.Initializes w.ledger key))
    (Watched.next C)

/-- **Statuses only move forward** for a settlement id whose account is not initialized again: in every state reached, once
its escrow was claimed or refunded, no escrow of the same id is initialized or funded. -/
theorem settlement_monotone (hC : Lawful C point) (settlementId : Digest32)
    (hu : Unshared C (stateAddress C settlementId).1) {w : Watched} (h : OnceRun C (stateAddress C settlementId).1 w) :
    settled (stateAddress C settlementId).1 w →
      statusAt w.ledger (stateAddress C settlementId).1 ≠ some .Initialized ∧
        statusAt w.ledger (stateAddress C settlementId).1 ≠ some .Funded := by
  generalize hkey : (stateAddress C settlementId).1 = key at *
  refine (Reach.invariant (P := fun w => Plain (w.ledger key) ∧ (settled key w →
    statusAt w.ledger key ≠ some .Initialized ∧ statusAt w.ledger key ≠ some .Funded)) ?_ ?_ h).2
  · rintro w ⟨hhistory, hsystem⟩
    refine ⟨.inr (hsystem key ⟨_, hkey⟩), fun hsettled => ?_⟩
    rw [settled, hhistory] at hsettled
    cases hsettled
  · rintro w action ⟨hplain, hpast⟩ ⟨hpermitted, honce⟩
    have hmoves := moves_of_action hC hu hkey.symm hplain hpermitted
    refine ⟨hmoves.plain, fun hsettled => ?_⟩
    rw [settled, Watched.next, List.any_cons, Bool.or_eq_true, decide_eq_true_eq] at hsettled
    show statusAt (action.next C w.ledger) key ≠ _ ∧ statusAt (action.next C w.ledger) key ≠ _
    rcases hsettled with (hnow | hnow) | hbefore
    · exact ⟨hnow ▸ nofun, hnow ▸ nofun⟩
    · exact ⟨hnow ▸ nofun, hnow ▸ nofun⟩
    · obtain ⟨hinitialized, hfunded⟩ := hpast hbefore
      rcases hmoves.status with hforward | ⟨hagain, -⟩
      · generalize statusAt (action.next C w.ledger) key = after at hforward
        cases hforward with
        | same => exact ⟨hinitialized, hfunded⟩
        | gone | claimed | refunded => exact ⟨nofun, nofun⟩
        | funded hbefore => exact absurd hbefore hinitialized
      · exact absurd hagain (honce hbefore)

end Lifecycle

/-! ## A settlement id used twice -/

namespace SmallEscrow

def deployed : Watched := ⟨parties, []⟩

theorem deployed_blank : Deployed smallCluster deployed := by
  refine ⟨rfl, fun key _ => ?_⟩
  show (if key = 100 then _ else _ : Account).owner = systemProgram
  split <;> rfl

def closed : Watched := [opening, funding, claiming, closing].foldl (Watched.next smallCluster) deployed

/-- The runtime removes the two accounts that have no lamports left. -/
def purged (ledger : Ledger) : Ledger :=
  fun key => if key = stateKey ∨ key = vaultKey then ⟨0, [], systemProgram, false⟩ else ledger key

theorem foreign_purged {ledger : Ledger} (hstate : (ledger stateKey).lamports = 0 ∧ (ledger stateKey).owner = programId)
    (hvlt : (ledger vaultKey).lamports = 0 ∧ (ledger vaultKey).owner = programId) :
    Foreign smallCluster ledger (purged ledger) := by
  have hclsd (key : Pubkey) (hkey : key = stateKey ∨ key = vaultKey) :
      (ledger key).lamports = 0 ∧ (ledger key).owner = programId := by
    rcases hkey with rfl | rfl
    · exact hstate
    · exact hvlt
  have hfrm (key : Pubkey) (hkey : ¬ (key = stateKey ∨ key = vaultKey)) : purged ledger key = ledger key := if_neg hkey
  have htoks (key : Pubkey) (hown : (ledger key).owner = splToken) : purged ledger key = ledger key :=
    hfrm key fun hkey => programId_ne_splToken ((hclsd key hkey).2.symm.trans hown)
  refine ⟨?_, ?_, ?_, ?_, ?_⟩
  · intro key _ hlam
    rw [hfrm key fun hkey => UInt64.lt_irrefl _ ((hclsd key hkey).1 ▸ hlam)]
    exact ⟨⟨rfl, rfl⟩, UInt64.le_refl _⟩
  · intro key _ _
    by_cases hkey : key = stateKey ∨ key = vaultKey
    · exact .inr (by rw [purged, if_pos hkey])
    · exact .inl (hfrm key hkey ▸ ⟨rfl, rfl⟩)
  · intro key _ hown
    by_cases hkey : key = stateKey ∨ key = vaultKey
    · rw [purged, if_pos hkey]
    · rw [hfrm key hkey]
      exact hown
  · intro key token htok _ _ _
    refine ⟨token, ?_, .refl token, UInt64.le_refl _⟩
    rw [tokenAt, htoks key (owner_of_tokenAt htok).1]
    exact htok
  · intro key mint hmint
    refine ⟨mint, ?_, rfl⟩
    rw [mintAt, htoks key (owner_of_mintAt hmint).1]
    exact hmint

def reopened : Watched :=
  (closed.next smallCluster (.foreign (purged closed.ledger))).next smallCluster
    (call 5 [funderInfo, stateInfo, vaultInfo, systemInfo] (.InitializeNative params))

end SmallEscrow

open SmallEscrow in
/-- A claimed and closed escrow. -/
theorem closed_escrow_settled : settled (stateAddress smallCluster 7).1 closed = true ∧
    statusAt closed.ledger (stateAddress smallCluster 7).1 ≠ some .Initialized ∧
      statusAt closed.ledger (stateAddress smallCluster 7).1 ≠ some .Funded := by
  have hopened : OnceRun smallCluster (stateAddress smallCluster 7).1 (deployed.next smallCluster opening) :=
    .step (.start deployed_blank) opening ⟨signed_of_all (by decide), fun h => nomatch h⟩
  have hfunded := hopened.step funding ⟨signed_of_all (by decide), fun h => absurd h (by decide +kernel)⟩
  have hclaimed := hfunded.step claiming ⟨signed_of_all (by decide), fun h => absurd h (by decide +kernel)⟩
  have hclose : EscrowInstructionV1.decode EscrowInstructionV1.Close.encode = .ok .Close := by decide +kernel
  have hrun := hclaimed.step closing ⟨signed_of_all (by decide), fun _ => not_initializes hclose (fun _ => nofun) fun _ => nofun⟩
  have hsettled : settled (stateAddress smallCluster 7).1 closed = true := by decide +kernel
  exact ⟨hsettled, settlement_monotone SmallCluster.lawful 7 unshared hrun hsettled⟩

open SmallEscrow in
/-- **A settled id is initialized again** after the close. -/
theorem settled_id_reopens : ProgramRun smallCluster reopened ∧ settled (stateAddress smallCluster 7).1 reopened = true ∧
    statusAt reopened.ledger (stateAddress smallCluster 7).1 = some .Initialized := by
  refine ⟨?_, by decide +kernel, by decide +kernel⟩
  refine .step (.step (.step (.step (.step (.step (.start deployed_blank) opening (signed_of_all (by decide))) funding
    (signed_of_all (by decide))) claiming (signed_of_all (by decide))) closing (signed_of_all (by decide))) _ ?_) _
    (signed_of_all (by decide))
  exact foreign_purged (by decide +kernel) (by decide +kernel)

end DomProtocol.Escrow
