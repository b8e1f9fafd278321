import DomProtocol.Evm.Calls
import DomProtocol.Lib.Reach

/-!
# `Evm.Solvency` — the contract holds what it owes

Custody is pooled per asset.  What is owed is the sum over the unsettled locks and over the credits; every call lowers it
by at least what leaves custody, with arbitrary code running in the middle.
-/

namespace DomProtocol.Evm

open Lib Std

variable {lock : Lock} {event : Event} {truthful : Prop}

/-! ## What is owed -/

section Owed

variable {D : Deployment} {w w' : World} {asset payee a : Address} {amount : U256} {lockId : Digest32}

def lockDue (a : Address) (entry : Digest32 × Lock) : Nat :=
  if entry.2.settled = false ∧ entry.2.asset = a then entry.2.amount.toNat else 0

def creditDue (a : Address) (entry : (Address × Address) × U256) : Nat := if entry.1.2 = a then entry.2.toNat else 0

/-- **What is owed** of an asset: all unsettled locks and all pending withdrawals in it. -/
def owed (w : World) (a : Address) : Nat :=
  entrySum (lockDue a) w.locks + entrySum (creditDue a) w.pendingWithdrawals

theorem owed_congr (h : Stored w w') : owed w' a = owed w a := by
  rw [owed, owed, h.locks, h.pendingWithdrawals]

theorem credit_due (account : Address) : w.pendingWithdrawals[(account, asset)]?.elim 0
    (fun old => creditDue a ((account, asset), old)) = if asset = a then (w.credit account asset).toNat else 0 := by
  unfold World.credit creditDue
  cases w.pendingWithdrawals[(account, asset)]? with
  | none =>
    dsimp only [Option.elim_none, Option.getD_none]
    split <;> rfl
  | some old => rfl

theorem owed_setCredit (w : World) (account asset a : Address) (amount : U256) :
    owed (w.setCredit account asset amount) a + (if asset = a then (w.credit account asset).toNat else 0) =
      owed w a + if asset = a then amount.toNat else 0 := by
  have hsum := entrySum_insert (creditDue a) w.pendingWithdrawals (account, asset) amount
  rw [credit_due] at hsum
  have hdue : creditDue a ((account, asset), amount) = if asset = a then amount.toNat else 0 := rfl
  rw [hdue] at hsum
  show entrySum (lockDue a) w.locks + entrySum (creditDue a) (w.pendingWithdrawals.insert (account, asset) amount) + _ = _
  unfold owed
  omega

theorem owed_setLock (w : World) (lockId : Digest32) (lock : Lock) (a : Address) :
    owed (w.setLock lockId lock) a + w.locks[lockId]?.elim 0 (fun old => lockDue a (lockId, old)) =
      owed w a + lockDue a (lockId, lock) := by
  have hsum := entrySum_insert (lockDue a) w.locks lockId lock
  show entrySum (lockDue a) (w.locks.insert lockId lock) + entrySum (creditDue a) w.pendingWithdrawals + _ = _
  unfold owed
  omega

theorem lock_of_funder (h : (w.lockOf lockId).funder ≠ 0) : w.locks[lockId]? = some (w.lockOf lockId) := by
  unfold World.lockOf at h ⊢
  cases hlock : w.locks[lockId]? with
  | none =>
    rw [hlock] at h
    exact absurd rfl h
  | some lock => rfl

theorem lockOf_of_lock (h : w.locks[lockId]? = some lock) : w.lockOf lockId = lock := by
  rw [World.lockOf, h]
  rfl

theorem owed_settle (hkn : (w.lockOf lockId).funder ≠ 0) (hunset : (w.lockOf lockId).settled = false)
    (a : Address) : owed (w.settle lockId event) a +
      (if (w.lockOf lockId).asset = a then (w.lockOf lockId).amount.toNat else 0) = owed w a := by
  have hsum := owed_setLock w lockId { w.lockOf lockId with settled := true } a
  rw [lock_of_funder hkn] at hsum
  have hold : lockDue a (lockId, w.lockOf lockId) =
      if (w.lockOf lockId).asset = a then (w.lockOf lockId).amount.toNat else 0 := by
    simp only [lockDue, hunset, true_and]
  have hnew : lockDue a (lockId, { w.lockOf lockId with settled := true }) = 0 := if_neg nofun
  rw [Option.elim_some, hold, hnew, Nat.add_zero] at hsum
  exact hsum

theorem toNat_addSaturating_le (a b : U256) : (addSaturating a b).toNat ≤ a.toNat + b.toNat := by
  unfold addSaturating
  split
  · rename_i hwrap
    have hlt := BitVec.lt_def.mp hwrap
    rw [BitVec.toNat_add] at hlt
    rw [BitVec.toNat_allOnes]
    have ha := a.isLt
    omega
  · rw [BitVec.toNat_add]
    exact Nat.mod_le _ _

theorem owed_credited (w : World) (payee asset a : Address) (shortfall : U256) :
    owed (w.credited payee asset shortfall) a ≤ owed w a + if asset = a then shortfall.toNat else 0 := by
  unfold World.credited
  split
  · exact Nat.le_add_right _ _
  · have hsum := owed_setCredit w payee asset a (addSaturating (w.credit payee asset) shortfall)
    have hle := toNat_addSaturating_le (w.credit payee asset) shortfall
    show owed (w.setCredit payee asset (addSaturating (w.credit payee asset) shortfall)) a ≤ _
    by_cases ha : asset = a
    · simp only [if_pos ha] at hsum ⊢
      omega
    · simp only [if_neg ha] at hsum ⊢
      omega

end Owed

/-! ## Steps -/

section Steps

variable {D : Deployment} {msg : Message} {w w' : World} {replies rest : List Reply}

/-- Every stored lock has a funder and an asset that the contract can move. -/
def Known (D : Deployment) (w : World) : Prop :=
  ∀ (lockId : Digest32) (lock : Lock), w.locks[lockId]? = some lock → lock.funder ≠ 0 ∧ Supported D lock.asset

/-- What is owed, and an amount more in one asset, is in custody. -/
def Covers (D : Deployment) (w : World) (asset : Address) (amount : Nat) : Prop :=
  ∀ a, owed w a + (if asset = a then amount else 0) ≤ custody D w a

/-- **What holds between calls.** -/
structure Solvent (D : Deployment) (w : World) : Prop where
  idle : w.entered = false
  known : Known D w
  covered : ∀ a, owed w a ≤ custody D w a

theorem Known.congr (h : Known D w) (hsame : w'.locks = w.locks) : Known D w' := by
  rw [Known, hsame]
  exact h

variable {lockId : Digest32}

theorem Known.setLock (h : Known D w) (hfnr : lock.funder ≠ 0)
    (hast : Supported D lock.asset) : Known D (w.setLock lockId lock) := by
  intro id other hoth
  rw [World.setLock, getElem?_insert] at hoth
  split at hoth
  · obtain rfl := Option.some.inj hoth
    exact ⟨hfnr, hast⟩
  · exact h id other hoth

theorem credited_locks (w : World) (payee asset : Address) (shortfall : U256) :
    (w.credited payee asset shortfall).locks = w.locks ∧ (w.credited payee asset shortfall).balance = w.balance := by
  unfold World.credited
  split
  · exact ⟨rfl, rfl⟩
  · exact ⟨rfl, rfl⟩

theorem custody_congr (h : w'.balance = w.balance) (a : Address) : custody D w' a = custody D w a := by
  rw [custody, custody, h]

variable {amount : U256}

variable {payee asset : Address}

/-- **A push** leaves in custody what it did not deliver. -/
theorem Pushed.covers {delivered : U256} (hsupp : Supported D asset)
    (h : Pushed D payee (paidAsset D asset) amount delivered truthful w w') (htrue : truthful)
    (hcov : Covers D w asset amount.toNat) : Covers D w' asset (amount - delivered).toNat := by
  intro a
  have hsp := h.custody htrue a
  rw [hsupp] at hsp
  have hbef := hcov a
  have hle := h.le
  rw [owed_congr h.stored, BitVec.toNat_sub_of_le (BitVec.le_def.mpr hle)]
  by_cases ha : asset = a
  · simp only [if_pos ha, if_pos ha.symm] at hsp hbef ⊢
    omega
  · simp only [if_neg ha, if_neg (Ne.symm ha)] at hsp hbef ⊢
    omega

/-- **A payout** spends or credits what it was given. -/
theorem PaidOut.covers (hsupp : Supported D asset)
    (h : PaidOut D payee asset amount truthful w w') (htrue : truthful) (hcov : Covers D w asset amount.toNat) :
    w'.locks = w.locks ∧ ∀ a, owed w' a ≤ custody D w' a := by
  obtain ⟨pushed, delivered, hpush, rfl⟩ := h.exists_push
  obtain ⟨hlks, hbal⟩ := credited_locks pushed payee asset (amount - delivered)
  refine ⟨hlks.trans hpush.stored.locks, fun a => ?_⟩
  rw [custody_congr hbal]
  exact Nat.le_trans (owed_credited pushed payee asset a _) (hpush.covers hsupp htrue hcov a)

/-- **Settling a lock** and paying it out. -/
theorem Solvent.settle {start : World}
    (h : Solvent D w) (hstart : start = { w with entered := true }) (hkn : (start.lockOf lockId).funder ≠ 0)
    (hunset : (start.lockOf lockId).settled = false)
    (hpaid : PaidOut D payee (start.lockOf lockId).asset (start.lockOf lockId).amount truthful (start.settle lockId event) w')
    (htrue : truthful) : Solvent D { w' with entered := false } := by
  have hstartKnown : Known D start := h.known.congr (by rw [hstart])
  obtain ⟨hfnr, hsupp⟩ := hstartKnown lockId _ (lock_of_funder hkn)
  have hcov : Covers D (start.settle lockId event) (start.lockOf lockId).asset (start.lockOf lockId).amount.toNat := by
    intro a
    rw [owed_settle hkn hunset, hstart]
    exact h.covered a
  obtain ⟨hlks, hcovered⟩ := hpaid.covers hsupp htrue hcov
  refine ⟨rfl, ?_, hcovered⟩
  have hset : Known D (start.settle lockId event) := hstartKnown.setLock hfnr hsupp
  exact hset.congr hlks

theorem lock_none_of_funder (h : Known D w) (hfr : (w.lockOf lockId).funder = 0) :
    w.locks[lockId]? = none := by
  cases hlock : w.locks[lockId]? with
  | none => rfl
  | some lock => exact absurd (lockOf_of_lock hlock ▸ hfr) (h lockId lock hlock).1

theorem deposit_custody (hsupp : Supported D asset)
    (hroom : (w.balance asset).toNat + amount.toNat < 2 ^ 256) (a : Address) :
    custody D w a + (if asset = a then amount.toNat else 0) ≤ custody D (w.deposit asset amount) a := by
  by_cases ha : asset = a
  · subst ha
    have hadd : (w.deposit asset amount).balance asset = w.balance asset + amount := if_pos ⟨rfl, hroom⟩
    have hpaid : paidAsset D asset = asset := hsupp
    rw [if_pos rfl, custody, custody, if_pos hpaid, if_pos hpaid, hadd, BitVec.toNat_add_of_lt hroom]
  · rw [if_neg ha, Nat.add_zero]
    exact custody_le (deposit_balance_le w asset amount a)

/-- **Opening a lock.** -/
theorem Solvent.openLock {terms : LockTerms} (h : Solvent D w) (hreps : ∀ reply ∈ replies, Tame reply)
    (htrue : ∀ reply ∈ replies, Truthful D reply) (hvalue : (w.balance 0).toNat + msg.value.toNat < 2 ^ 256)
    (hbody : openLock D msg terms { w.deposit 0 msg.value with entered := true } replies = .ok ((), w', rest)) :
    Solvent D { w' with entered := false } := by
  obtain ⟨hfr, hsupp, htkn⟩ := openLock_eq_ok rfl hreps hbody
  have hnone : w.locks[lockIdOf D msg terms]? = none := lock_none_of_funder h.known hfr
  have hstart : Known D { w.deposit 0 msg.value with entered := true } := h.known.congr rfl
  have hkn : Known D (World.opened { w.deposit 0 msg.value with entered := true } D msg terms) :=
    hstart.setLock msg.sender_ne hsupp
  have hfroz := htkn.frozen
  refine ⟨rfl, hkn.congr hfroz.locks, fun a => ?_⟩
  have howed : owed { w' with entered := false } a = owed w a + if terms.asset = a then terms.amount.toNat else 0 := by
    have hsum := owed_setLock w (lockIdOf D msg terms) (lockFor msg.sender terms (bindingOf D terms)) a
    rw [hnone, Option.elim_none, Nat.add_zero] at hsum
    have hdue : lockDue a (lockIdOf D msg terms, lockFor msg.sender terms (bindingOf D terms)) =
        if terms.asset = a then terms.amount.toNat else 0 := by
      simp only [lockDue, lockFor, true_and]
    rw [hdue] at hsum
    exact (owed_congr hfroz.toStored).trans hsum
  rw [howed]
  have hbef := h.covered a
  show _ ≤ custody D w' a
  cases htkn with
  | native hvar hast hsent hw =>
    -- the value of the call is the amount
    have hdep := deposit_custody (hast ▸ hsupp) hvalue a
    rw [hw, hast, ← hsent]
    exact Nat.le_trans (Nat.add_le_add_right hbef _) hdep
  | erc20 hvar hsent _ hcust =>
    have htkn := hcust htrue a
    have hstart : custody D w a ≤ custody D (World.opened { w.deposit 0 msg.value with entered := true } D msg terms) a :=
      custody_le (deposit_balance_le w 0 msg.value a)
    simp only [eq_comm (a := terms.asset)]
    exact Nat.le_trans (Nat.add_le_add_right (Nat.le_trans hbef hstart) _) htkn

/-- **Withdrawing a credit.** -/
theorem Solvent.withdrawCredit {requested : Option U256} (h : Solvent D w)
    (hreps : ∀ reply ∈ replies, Tame reply) (htrue : ∀ reply ∈ replies, Truthful D reply)
    (hbody : withdrawCredit D msg asset payee requested { w with entered := true } replies = .ok ((), w', rest)) :
    Solvent D { w' with entered := false } := by
  obtain ⟨hsupp, amount, pushed, hle, hpush, rfl⟩ := withdrawCredit_eq_ok rfl hreps hbody
  refine ⟨rfl, h.known.congr hpush.stored.locks, fun a => ?_⟩
  refine Nat.le_trans (Nat.le_add_right _ _) (hpush.covers hsupp htrue (fun a => ?_) a)
  have howed := owed_setCredit { w with entered := true } msg.sender asset a
    (World.credit { w with entered := true } msg.sender asset - amount)
  rw [BitVec.toNat_sub_of_le hle] at howed
  have hcrd := BitVec.le_def.mp hle
  refine Nat.le_trans ?_ (h.covered a)
  have hstart : owed { w with entered := true } a = owed w a := rfl
  by_cases ha : asset = a
  · simp only [if_pos ha] at howed ⊢
    omega
  · simp only [if_neg ha] at howed ⊢
    omega

/-- **Step lemma**: every call keeps the contract solvent. -/
theorem Solvent.execute {request : Call} (h : Solvent D w) (hreps : ∀ reply ∈ replies, Tame reply)
    (htrue : ∀ reply ∈ replies, Truthful D reply) (hexec : request.execute D msg w replies = .ok w') : Solvent D w' := by
  obtain ⟨-, haccepts, after, rest, hbody, rfl⟩ := execute_eq_ok.mp hexec
  cases request with
  | openLock terms => exact h.openLock hreps htrue haccepts hbody
  | claim lockId t =>
    obtain ⟨halw, hpay⟩ := claim_eq_ok.mp hbody
    exact h.settle rfl halw.known halw.unsettled (payout_eq_ok rfl hreps hpay) htrue
  | refund lockId =>
    obtain ⟨halw, hpay⟩ := refund_eq_ok.mp hbody
    exact h.settle rfl halw.known halw.unsettled (payout_eq_ok rfl hreps hpay) htrue
  | withdraw asset => exact h.withdrawCredit hreps htrue hbody
  | withdrawTo asset payee =>
    obtain ⟨-, hwd⟩ := Session.reject_bind_eq_ok.mp hbody
    exact h.withdrawCredit hreps htrue hwd
  | withdrawAmount asset payee amount =>
    obtain ⟨-, hrest⟩ := Session.reject_bind_eq_ok.mp hbody
    obtain ⟨-, hwd⟩ := Session.reject_bind_eq_ok.mp hrest
    exact h.withdrawCredit hreps htrue hwd

end Steps

/-! ## Runs -/

section Runs

variable (D : Deployment)

/-- A contract that was just deployed; anything may have been sent to its address before. -/
def Deployed (w : World) : Prop := w.locks = ∅ ∧ w.pendingWithdrawals = ∅ ∧ w.entered = false

/-- A token is relied on for its balances; of native value nothing has to be. -/
def Act.Fair : Act → Prop
  | deposit _ _ => True
  | slash _ _ => D.variant ≠ .erc20
  | call _ _ replies => D.variant = .erc20 → ∀ reply ∈ replies, reply.Truthful

variable {D} {w : World}

theorem Solvent.act {act : Act} (h : Solvent D w) (hfair : act.Fair D) : Solvent D (act.run D w) := by
  cases act with
  | deposit asset amount =>
    exact ⟨h.idle, h.known, fun a => Nat.le_trans (h.covered a) (custody_le (deposit_balance_le w asset amount a))⟩
  | slash asset amount =>
    have hnat : D.variant = .native := by
      cases hvar : D.variant with
      | native => rfl
      | erc20 => exact absurd hvar hfair
    have hfroz : Frozen w ((Act.slash asset amount).run D w) := frozen_slash w asset amount
    refine ⟨hfroz.entered.trans h.idle, h.known.congr hfroz.locks, fun a => ?_⟩
    rw [owed_congr hfroz.toStored]
    exact Nat.le_trans (h.covered a) (slash_custody_le w asset amount hnat a)
  | call msg request replies =>
    show Solvent D ((request.execute D msg w (replyEffects D replies)).toOption.getD w)
    cases hexec : request.execute D msg w (replyEffects D replies) with
    | error e => exact h
    | ok after => exact h.execute (tame_replyEffects replies) (truthful_replyEffects hfair) hexec

theorem Deployed.solvent (h : Deployed w) : Solvent D w := by
  obtain ⟨hlks, hcredits, hidle⟩ := h
  refine ⟨hidle, ?_, fun a => ?_⟩
  · intro lockId lock hlock
    rw [hlks, ExtTreeMap.getElem?_empty] at hlock
    cases hlock
  · rw [owed, hlks, hcredits, entrySum_empty, entrySum_empty]
    exact Nat.zero_le _

/-- **Solvency.**  In every state reached by any calls and transfers, with any code running during the contract's own calls,
the contract's balance of each asset covers all unsettled locks and all pending withdrawals in it. -/
theorem lock_solvency (D : Deployment) {w : World}
    (h : Reach Deployed (fun _ (act : Act) => act.Fair D) (fun w act => act.run D w) w) (asset : Address) :
    entrySum (lockDue asset) w.locks + entrySum (creditDue asset) w.pendingWithdrawals ≤ (w.balance asset).toNat := by
  have hsolvent : Solvent D w := Reach.invariant (P := Solvent D) (fun w hw => hw.solvent)
    (fun w act hw hfair => hw.act hfair) h
  refine Nat.le_trans (hsolvent.covered asset) ?_
  unfold custody
  split
  · exact Nat.le_refl _
  · exact Nat.zero_le _

end Runs

namespace SmallLock

/-- The inverse of the generator's coordinate. -/
def gxInverse : Nat := 0x1dd887b3eaf153260a95e8b9fd31f60ac115d26ccbe1f572c0b8d7a6dec520fe

/-- A point is its scalar, and the address of a point its low bytes. -/
def machine : Machine where
  keccak256 bytes := BitVec.ofNat 256 (bytes.foldl (fun hash byte => hash * 31 + byte.toNat) 7)
  ecrecover h _ _ s := BitVec.ofNat 160
    (gxInverse * (s.toNat + (LockBinding.secp256k1N - h.toNat % LockBinding.secp256k1N)) % LockBinding.secp256k1N)

def deployment : Deployment := ⟨machine, 1, 99, .erc20⟩

def message (sender : Address) (timestamp : Nat) (h : sender ≠ 0) : Message := ⟨sender, 0, timestamp, fun _ => 1, h⟩

/-- Terms for the secret 5 and the token 3. -/
def terms (session : Digest32) (amount : U256) : LockTerms := ⟨1, 0, session, 1, 1, 3, amount, 2, 5, 100⟩

/-- A token that answers, moves what it is asked to, and says whether it did. -/
def answer (ok : Bool) (acts : List Act) : ReplyOf Act := ⟨1000000, ok, some, id, acts⟩

def opening (session : Digest32) (amount : U256) : Act :=
  .call (message 1 10 (by decide)) (.openLock (terms session amount)) [answer true [], answer true [.deposit 3 amount], answer true []]

def claiming : Act :=
  .call (message 2 50 (by decide)) (.claim (lockIdOf deployment (message 1 10 (by decide)) (terms 7 10)) 5)
    [answer true [], answer true [], answer false [], answer true []]

def start : World := ⟨fun _ => 0, ∅, ∅, false, [], []⟩

def acts : List Act := [opening 7 10, opening 8 4, claiming]

theorem fair_of_mem : ∀ act ∈ acts, ∀ _ : World, act.Fair deployment := by
  have htrue : ∀ ok acts, acts.all Act.keeps = true → (answer ok acts).Truthful :=
    fun _ _ hkps => ⟨fun _ => rfl, fun _ => BitVec.le_refl _, hkps⟩
  simp only [acts, opening, claiming, List.forall_mem_cons, Act.Fair]
  refine ⟨fun _ _ => ?_, fun _ _ => ?_, fun _ _ => ?_, nofun⟩
  · exact ⟨htrue _ _ rfl, htrue _ _ rfl, htrue _ _ rfl, nofun⟩
  · exact ⟨htrue _ _ rfl, htrue _ _ rfl, htrue _ _ rfl, nofun⟩
  · exact ⟨htrue _ _ rfl, htrue _ _ rfl, htrue _ _ rfl, htrue _ _ rfl, nofun⟩

def last : World := acts.foldl (fun w act => act.run deployment w) start

theorem reached : Reach Deployed (fun _ (act : Act) => act.Fair deployment) (fun w act => act.run deployment w) last :=
  Reach.foldl fair_of_mem (.start ⟨rfl, rfl, rfl⟩)

end SmallLock

/-- Two locks were opened and one was claimed into a credit: 4 and 10 are owed and covered. -/
theorem failed_claim_covered : entrySum (lockDue 3) SmallLock.last.locks = 4 ∧
    entrySum (creditDue 3) SmallLock.last.pendingWithdrawals = 10 ∧
    entrySum (lockDue 3) SmallLock.last.locks + entrySum (creditDue 3) SmallLock.last.pendingWithdrawals ≤
      (SmallLock.last.balance 3).toNat := by
  refine ⟨by decide +kernel, by decide +kernel, ?_⟩
  exact lock_solvency SmallLock.deployment SmallLock.reached 3

end DomProtocol.Evm
