import DomProtocol.Evm.Solvency

/-!
# `Evm.Settlement` — every lock is opened once, settled once, and paid to the right account

Every transaction either leaves the locks alone, opens one under an id that has none, or settles one.  From these effects
follow the facts about whole runs: an id is opened and settled at most once, in time and by the right party, and the amount
of the lock is split into what was delivered and what is credited to the payee.
-/

namespace DomProtocol.Evm

open Lib Std LockBinding

section Settlement

variable {D : Deployment} {msg : Message} {w w' : World}

/-! ## Effects of a transaction on the locks -/

/-- **A settlement** of one lock towards a payee.  `delivered` is what the contract counts as delivered: the value of a
call that went through, or what was measured around a token transfer. -/
structure SettledTo (D : Deployment) (lockId : Digest32) (payee : Address) (truthful : Prop) (w w' : World) : Prop where
  settled : w'.lockOf lockId = { w.lockOf lockId with settled := true }
  otherLocks : ∀ id, id ≠ lockId → w'.lockOf id = w.lockOf id
  split : ∃ delivered credited : U256, delivered.toNat + credited.toNat = (w.lockOf lockId).amount.toNat ∧
    Delivery D payee (paidAsset D (w.lockOf lockId).asset) (w.lockOf lockId).amount delivered truthful w w' ∧
    ((w.credit payee (w.lockOf lockId).asset).toNat + credited.toNat < 2 ^ 256 →
      (w'.credit payee (w.lockOf lockId).asset).toNat = (w.credit payee (w.lockOf lockId).asset).toNat + credited.toNat)
  otherCredits : ∀ account asset, (account, asset) ≠ (payee, (w.lockOf lockId).asset) →
    w'.credit account asset = w.credit account asset

/-- **What a transaction does to the locks.** -/
inductive Effect (D : Deployment) (w w' : World) : Act → Prop
  | quiet {act : Act} (hlocks : w'.locks = w.locks) : Effect D w w' act
  | opened {msg : Message} {terms : LockTerms} {replies : List (ReplyOf Act)}
      (hfresh : (w.lockOf (lockIdOf D msg terms)).funder = 0)
      (hlocks : w'.locks = w.locks.insert (lockIdOf D msg terms) (lockFor msg.sender terms (bindingOf D terms))) :
      Effect D w w' (.call msg (.openLock terms) replies)
  | claimed {msg : Message} {lockId : Digest32} {t : U256} {replies : List (ReplyOf Act)}
      (hallowed : ClaimAllowed D msg lockId t w)
      (hsettled : SettledTo D lockId (w.lockOf lockId).beneficiary (∀ reply ∈ replies, reply.Truthful) w w') :
      Effect D w w' (.call msg (.claim lockId t) replies)
  | refunded {msg : Message} {lockId : Digest32} {replies : List (ReplyOf Act)} (hallowed : RefundAllowed msg lockId w)
      (hsettled : SettledTo D lockId (w.lockOf lockId).funder (∀ reply ∈ replies, reply.Truthful) w w') :
      Effect D w w' (.call msg (.refund lockId) replies)

variable {payee asset : Address} {truthful : Prop}

theorem Delivery.congr {amount delivered : U256} {before after : World}
    (h : Delivery D payee asset amount delivered truthful w w') (hsent : before.sent = w.sent)
    (hbal : before.balance = w.balance) (hsent' : after.sent = w'.sent) (hbal' : after.balance = w'.balance) :
    Delivery D payee asset amount delivered truthful before after := by
  cases h with
  | nothing hdel hcas => exact .nothing hdel (by rw [hsent, hsent', hcas])
  | value hnat hdel hcas => exact .value hnat hdel (by rw [hsent, hsent', hcas])
  | measured first last herc hdel hmeas hcas =>
    refine .measured first last herc hdel ?_ (by rw [hsent, hsent', hcas])
    rw [hbal, hbal']
    exact hmeas
  | unmeasured herc hdel hunan hcas =>
    exact .unmeasured herc hdel hunan (by rw [hsent, hsent', hcas])

theorem toNat_addSaturating {a b : U256} (h : a.toNat + b.toNat < 2 ^ 256) :
    (addSaturating a b).toNat = a.toNat + b.toNat := by
  have hadd : (a + b).toNat = a.toNat + b.toNat := BitVec.toNat_add_of_lt h
  have hnowrap : ¬ a + b < a := by
    rw [BitVec.lt_def, hadd]
    exact Nat.not_lt.mpr (Nat.le_add_right _ _)
  rw [addSaturating, if_neg hnowrap, hadd]

theorem lockOf_setLock (w : World) (lockId id : Digest32) (lock : Lock) :
    (w.setLock lockId lock).lockOf id = if id = lockId then lock else w.lockOf id := by
  simp only [World.lockOf, World.setLock, getElem?_insert]
  split
  · rename_i heq
    rw [if_pos heq.symm, Option.getD_some]
  · rename_i hne
    rw [if_neg (Ne.symm hne)]

theorem lockOf_congr (h : w'.locks = w.locks) (id : Digest32) : w'.lockOf id = w.lockOf id := by
  rw [World.lockOf, World.lockOf, h]

theorem credit_congr (h : w'.pendingWithdrawals = w.pendingWithdrawals) (account asset : Address) :
    w'.credit account asset = w.credit account asset := by
  rw [World.credit, World.credit, h]

theorem credit_setCredit (w : World) (payee asset account a : Address) (amount : U256) :
    (w.setCredit payee asset amount).credit account a =
      if (account, a) = (payee, asset) then amount else w.credit account a := by
  simp only [World.credit, World.setCredit, getElem?_insert]
  split
  · rename_i heq
    rw [if_pos heq.symm, Option.getD_some]
  · rename_i hne
    rw [if_neg (Ne.symm hne)]

theorem credit_credited (w : World) (payee asset : Address) (shortfall : U256)
    (hroom : (w.credit payee asset).toNat + shortfall.toNat < 2 ^ 256) :
    ((w.credited payee asset shortfall).credit payee asset).toNat = (w.credit payee asset).toNat + shortfall.toNat := by
  unfold World.credited
  split
  · rename_i hzero
    rw [hzero]
    rfl
  · have hset : (w.setCredit payee asset (addSaturating (w.credit payee asset) shortfall)).credit payee asset =
        addSaturating (w.credit payee asset) shortfall := (credit_setCredit w payee asset payee asset _).trans (if_pos rfl)
    exact (congrArg BitVec.toNat hset).trans (toNat_addSaturating hroom)

theorem credit_credited_of_ne (w : World) {account a : Address} (shortfall : U256)
    (hne : (account, a) ≠ (payee, asset)) : (w.credited payee asset shortfall).credit account a = w.credit account a := by
  unfold World.credited
  split
  · rfl
  · exact (credit_setCredit w payee asset account a _).trans (if_neg hne)

theorem credited_sent (w : World) (payee asset : Address) (shortfall : U256) :
    (w.credited payee asset shortfall).sent = w.sent := by
  unfold World.credited
  split
  · rfl
  · rfl

variable {lockId : Digest32}

/-- **A settled lock that is paid out** is split into what was delivered and what is credited. -/
theorem SettledTo.of_paidOut {event : Event}
    (h : PaidOut D payee (w.lockOf lockId).asset (w.lockOf lockId).amount truthful
      (World.settle { w with entered := true } lockId event) w') :
    SettledTo D lockId payee truthful w { w' with entered := false } := by
  obtain ⟨pushed, delivered, hpush, rfl⟩ := h.exists_push
  have hlks : (pushed.credited payee (w.lockOf lockId).asset ((w.lockOf lockId).amount - delivered)).locks =
      (w.setLock lockId { w.lockOf lockId with settled := true }).locks :=
    (credited_locks _ _ _ _).1.trans hpush.stored.locks
  have hlock : ∀ id, World.lockOf
      { pushed.credited payee (w.lockOf lockId).asset ((w.lockOf lockId).amount - delivered) with entered := false } id =
        if id = lockId then { w.lockOf lockId with settled := true } else w.lockOf id := by
    intro id
    exact (lockOf_congr hlks id).trans (lockOf_setLock w lockId id _)
  have hcrd : ∀ account a, pushed.credit account a = w.credit account a :=
    credit_congr hpush.stored.pendingWithdrawals
  refine ⟨(hlock lockId).trans (if_pos rfl), fun id hne => (hlock id).trans (if_neg hne), ?_, ?_⟩
  · refine ⟨delivered, (w.lockOf lockId).amount - delivered, ?_, ?_, fun hroom => ?_⟩
    · rw [BitVec.toNat_sub_of_le (BitVec.le_def.mpr hpush.le)]
      exact Nat.add_sub_cancel' hpush.le
    · exact hpush.delivery.congr rfl rfl (credited_sent _ _ _ _) (credited_locks _ _ _ _).2
    · rw [← hcrd] at hroom ⊢
      exact credit_credited pushed payee _ _ hroom
  · intro account asset hne
    exact (credit_credited_of_ne pushed _ hne).trans (hcrd account asset)

variable {replies : List Reply}

theorem withdrawCredit_locks {requested : Option U256} {rest : List Reply}
    (hreps : ∀ reply ∈ replies, Tame reply)
    (h : withdrawCredit D msg asset payee requested { w with entered := true } replies = .ok ((), w', rest)) :
    w'.locks = w.locks := by
  obtain ⟨-, amount, pushed, -, hpush, rfl⟩ := withdrawCredit_eq_ok rfl hreps h
  exact hpush.stored.locks

/-- **Step lemma**: the effect of any transaction. -/
theorem effect_of_act (D : Deployment) (w : World) (act : Act) : Effect D w (act.run D w) act := by
  cases act with
  | deposit asset amount => exact .quiet rfl
  | slash asset amount => exact .quiet (frozen_slash w asset amount).locks
  | call msg request replies =>
    have hrun : (Act.call msg request replies).run D w =
        (request.execute D msg w (replyEffects D replies)).toOption.getD w := rfl
    cases hexec : request.execute D msg w (replyEffects D replies) with
    | error e =>
      rw [hrun, hexec]
      exact .quiet rfl
    | ok after =>
      rw [hrun, hexec]
      show Effect D w after _
      have htame := tame_replyEffects (D := D) replies
      have htrue : (∀ reply ∈ replies, reply.Truthful) → ∀ reply ∈ replyEffects D replies, Truthful D reply :=
        fun hfair => truthful_replyEffects fun _ => hfair
      obtain ⟨-, haccepts, done, rest, hbody, rfl⟩ := execute_eq_ok.mp hexec
      cases request with
      | openLock terms =>
        obtain ⟨hfr, -, htkn⟩ := openLock_eq_ok rfl htame hbody
        exact .opened hfr htkn.frozen.locks
      | claim lockId t =>
        obtain ⟨halw, hpay⟩ := claim_eq_ok.mp hbody
        have hpaid := (payout_eq_ok rfl htame hpay).mono htrue
        exact .claimed ⟨halw.known, halw.unsettled, halw.sender, halw.early, halw.secret,
          halw.adaptor⟩ (.of_paidOut hpaid)
      | refund lockId =>
        obtain ⟨halw, hpay⟩ := refund_eq_ok.mp hbody
        have hpaid := (payout_eq_ok rfl htame hpay).mono htrue
        exact .refunded ⟨halw.known, halw.unsettled, halw.late⟩ (.of_paidOut hpaid)
      | withdraw asset =>
        have hlks : done.locks = w.locks := withdrawCredit_locks htame hbody
        exact .quiet hlks
      | withdrawTo asset payee =>
        obtain ⟨-, hwd⟩ := Session.reject_bind_eq_ok.mp hbody
        have hlks : done.locks = w.locks := withdrawCredit_locks htame hwd
        exact .quiet hlks
      | withdrawAmount asset payee amount =>
        obtain ⟨-, hrest⟩ := Session.reject_bind_eq_ok.mp hbody
        obtain ⟨-, hwd⟩ := Session.reject_bind_eq_ok.mp hrest
        have hlks : done.locks = w.locks := withdrawCredit_locks htame hwd
        exact .quiet hlks

/-! ## Once -/

/-- What holds between transactions: the guard is open, and only a lock that was opened is settled. -/
structure Idle (w : World) : Prop where
  guard : w.entered = false
  known : ∀ id, (w.lockOf id).settled = true → (w.lockOf id).funder ≠ 0

def opensLock (id : Digest32) (step : Step World Act) : Bool :=
  decide ((step.before.lockOf id).funder = 0 ∧ (step.after.lockOf id).funder ≠ 0)

/-- A step that settles the lock of an id. -/
def settlesLock (id : Digest32) (step : Step World Act) : Bool :=
  decide ((step.before.lockOf id).settled = false ∧ (step.after.lockOf id).settled = true)

theorem SettledTo.lockOf (h : SettledTo D lockId payee truthful w w') (id : Digest32) :
    w'.lockOf id = if id = lockId then { w.lockOf lockId with settled := true } else w.lockOf id := by
  split
  · rename_i heq
    rw [heq, h.settled]
  · rename_i hne
    exact h.otherLocks id hne

/-- **Locks only move forward**: an opened lock stays, and a settled one stays settled. -/
theorem Effect.forward {act : Act} (h : Effect D w w' act) (hidle : Idle w) (id : Digest32) :
    ((w.lockOf id).funder ≠ 0 → (w'.lockOf id).funder ≠ 0) ∧
    ((w.lockOf id).settled = true → (w'.lockOf id).settled = true) ∧
    ((w'.lockOf id).settled = true → (w'.lockOf id).funder ≠ 0) := by
  have hkn := hidle.known id
  cases h with
  | quiet hlks =>
    rw [lockOf_congr hlks id]
    exact ⟨fun h => h, fun h => h, hkn⟩
  | @opened msg terms replies hfr hlks =>
    have hlock : w'.lockOf id = if id = lockIdOf D msg terms then lockFor msg.sender terms (bindingOf D terms)
        else w.lockOf id :=
      (lockOf_congr hlks id).trans (lockOf_setLock w _ id _)
    rw [hlock]
    split
    · rename_i heq
      -- the id was free, so it was not settled either
      refine ⟨fun _ => msg.sender_ne, fun hset => ?_, fun hset => msg.sender_ne⟩
      exact absurd (heq ▸ hfr) (hkn hset)
    · exact ⟨fun h => h, fun h => h, hkn⟩
  | claimed halw hset | refunded halw hset =>
    rw [hset.lockOf id]
    split
    · exact ⟨fun _ => halw.known, fun _ => rfl, fun _ => halw.known⟩
    · exact ⟨fun h => h, fun h => h, hkn⟩

theorem entered_of_act (D : Deployment) (act : Act) (h : w.entered = false) : (act.run D w).entered = false := by
  cases act with
  | deposit asset amount => exact h
  | slash asset amount => exact (frozen_slash w asset amount).entered.trans h
  | call msg request replies =>
    show ((request.execute D msg w (replyEffects D replies)).toOption.getD w).entered = false
    cases hexec : request.execute D msg w (replyEffects D replies) with
    | error e => exact h
    | ok after =>
      obtain ⟨-, -, done, rest, -, rfl⟩ := execute_eq_ok.mp hexec
      rfl

theorem Idle.act (h : Idle w) (D : Deployment) (act : Act) : Idle (act.run D w) :=
  ⟨entered_of_act D act h.guard, fun id => ((effect_of_act D w act).forward h id).2.2⟩

theorem Deployed.idle (h : Deployed w) : Idle w := by
  refine ⟨h.2.2, fun id hset => ?_⟩
  rw [World.lockOf, h.1, ExtTreeMap.getElem?_empty] at hset
  cases hset

/-- **A settling step** is a claim in time by the beneficiary with the secret, or a refund from the deadline on. -/
def SettledBy (D : Deployment) (addressOf : Exponent → Address) (id : Digest32) (step : Step World Act) : Prop :=
  (∃ msg t replies, step.action = .call msg (.claim id t) replies ∧
    msg.timestamp < (step.before.lockOf id).deadline.toNat ∧ msg.sender = (step.before.lockOf id).beneficiary ∧
    (0 < t.toNat ∧ t.toNat < LockBinding.secp256k1N ∧
      (step.before.lockOf id).adaptorAddress = addressOf (t.toNat : Exponent)) ∧
    SettledTo D id (step.before.lockOf id).beneficiary (∀ reply ∈ replies, reply.Truthful) step.before step.after) ∨
  (∃ msg replies, step.action = .call msg (.refund id) replies ∧
    (step.before.lockOf id).deadline.toNat ≤ msg.timestamp ∧
    SettledTo D id (step.before.lockOf id).funder (∀ reply ∈ replies, reply.Truthful) step.before step.after)

theorem Effect.settledBy {act : Act} {lifts : UInt8 → U256 → Exponent → Prop} {addressOf : Exponent → Address}
    (hM : Recovers D.machine lifts addressOf) (h : Effect D w w' act) (id : Digest32)
    (hsettles : settlesLock id ⟨w, act, w'⟩ = true) : SettledBy D addressOf id ⟨w, act, w'⟩ := by
  obtain ⟨hbef, haft⟩ := of_decide_eq_true hsettles
  dsimp only at hbef haft
  -- a lock that is neither the settled one nor a new one is the same before and after
  cases h with
  | quiet hlks =>
    rw [lockOf_congr hlks id, hbef] at haft
    cases haft
  | @opened msg terms replies hfr hlks =>
    rw [(lockOf_congr (w := w.setLock _ _) hlks id).trans (lockOf_setLock w _ id _)] at haft
    split at haft
    · cases haft
    · rw [hbef] at haft
      cases haft
  | @claimed msg lockId t replies halw hset =>
    rw [hset.lockOf id] at haft
    split at haft
    · rename_i heq
      subst heq
      exact .inl ⟨msg, t, replies, rfl, halw.early, halw.sender,
        (addressOfScalarTimesG_eq_some hM).mp halw.secret, hset⟩
    · rw [hbef] at haft
      cases haft
  | @refunded msg lockId replies halw hset =>
    rw [hset.lockOf id] at haft
    split at haft
    · rename_i heq
      subst heq
      exact .inr ⟨msg, replies, rfl, halw.late, hset⟩
    · rw [hbef] at haft
      cases haft

/-! ## Nobody can stop a settlement -/

/-- **A call that ends in a payout** goes through. -/
theorem execute_total {call : Call} {amount : U256} {event : Event} (hgd : w.entered = false) (hvalue : call.Accepts msg w)
    (hreps : ∀ reply ∈ replies, Tame reply) (hgas : 4 ≤ replies.length)
    (hbody : ∀ r, payout D payee asset amount (World.settle { w with entered := true } lockId event) replies = .ok r →
      call.body D msg { call.received msg w with entered := true } replies = .ok r) :
    ∃ w', call.execute D msg w replies = .ok w' := by
  obtain ⟨after, rest, hpay⟩ : ∃ after rest, payout D payee asset amount
      (World.settle { w with entered := true } lockId event) replies = .ok ((), after, rest) := payout_total rfl hreps hgas
  exact ⟨_, execute_eq_ok.mpr ⟨hgd, hvalue, after, rest, hbody _ hpay, rfl⟩⟩

/-- A settlement that is allowed goes through: the contract asks at most four questions, and no answer makes it revert. -/
def Unstoppable (D : Deployment) (w : World) : Prop :=
  ∀ (msg : Message) (lockId : Digest32) (replies : List (ReplyOf Act)), msg.value = 0 → 4 ≤ replies.length →
    (∀ t, ClaimAllowed D msg lockId t w →
      ∃ w', (Call.claim lockId t).execute D msg w (replyEffects D replies) = .ok w') ∧
    (RefundAllowed msg lockId w → ∃ w', (Call.refund lockId).execute D msg w (replyEffects D replies) = .ok w')

theorem Idle.unstoppable (h : Idle w) (D : Deployment) : Unstoppable D w := by
  intro msg lockId replies hvalue hgas
  have htame := tame_replyEffects (D := D) replies
  have hlen : 4 ≤ (replyEffects D replies).length := by rwa [length_replyEffects]
  refine ⟨fun t halw => execute_total h.guard hvalue htame hlen fun r hpay => claim_eq_ok.mpr ⟨?_, hpay⟩,
    fun halw => execute_total h.guard hvalue htame hlen fun r hpay => refund_eq_ok.mpr ⟨?_, hpay⟩⟩
  · exact ⟨halw.known, halw.unsettled, halw.sender, halw.early, halw.secret, halw.adaptor⟩
  · exact ⟨halw.known, halw.unsettled, halw.late⟩

/-- **Settlement.**  Over every run, with any code at payees and tokens: an id is opened and settled at most once; every
settling step is a claim before the deadline by the beneficiary with the secret or a refund from the deadline on, and splits
the amount of the lock into a delivered and a credited part for the right party, with no other lock and no other credit
changed; and no allowed settlement can be made to revert. -/
theorem lock_settlement (D : Deployment) {lifts : UInt8 → U256 → Exponent → Prop}
    {addressOf : Exponent → Address} (hM : Recovers D.machine lifts addressOf) {r : Recorded World Act}
    (h : Recorded.Run Deployed (fun _ _ => True) (fun w (act : Act) => act.run D w) r) :
    (∀ id, r.history.countP (opensLock id) ≤ 1 ∧ r.history.countP (settlesLock id) ≤ 1) ∧
    (∀ step ∈ r.history, ∀ id, settlesLock id step = true → SettledBy D addressOf id step) ∧ Unstoppable D r.state := by
  have hstep : ∀ w (act : Act), Idle w → True → Idle (act.run D w) ∧
      ∀ id, settlesLock id ⟨w, act, act.run D w⟩ = true → SettledBy D addressOf id ⟨w, act, act.run D w⟩ :=
    fun w act hidle _ => ⟨hidle.act D act, fun id => (effect_of_act D w act).settledBy hM id⟩
  obtain ⟨hidle, hsettled⟩ := Recorded.invariant
    (Q := fun step => ∀ id, settlesLock id step = true → SettledBy D addressOf id step) (fun w hw => hw.idle) hstep h
  refine ⟨fun id => ⟨?_, ?_⟩, hsettled, hidle.unstoppable D⟩
  · refine Recorded.countP_le_one (I := Idle) (F := fun w => (w.lockOf id).funder ≠ 0) (fun w hw => hw.idle) ?_ h
    intro w act hidle _
    refine ⟨hidle.act D act, ((effect_of_act D w act).forward hidle id).1, fun hopens => ?_⟩
    obtain ⟨hbefore, hafter⟩ := of_decide_eq_true hopens
    exact ⟨fun hne => hne hbefore, hafter⟩
  · refine Recorded.countP_le_one (I := Idle) (F := fun w => (w.lockOf id).settled = true) (fun w hw => hw.idle) ?_ h
    intro w act hidle _
    refine ⟨hidle.act D act, ((effect_of_act D w act).forward hidle id).2.1, fun hsettles => ?_⟩
    obtain ⟨hbefore, hafter⟩ := of_decide_eq_true hsettles
    exact ⟨fun hset => Bool.noConfusion (hbefore.symm.trans hset), hafter⟩

end Settlement

namespace SmallLock

/-- The point of the generator's coordinate is the scalar one. -/
def lifts (v : UInt8) (r : U256) (k : Exponent) : Prop := v = vForG ∧ r = BitVec.ofNat 256 secp256k1Gx ∧ k = 1

def addressOf (k : Exponent) : Address := BitVec.ofNat 160 k.val

theorem gx_inverse : ((secp256k1Gx : Exponent))⁻¹ = (gxInverse : Exponent) := by
  have hone : (secp256k1Gx : Exponent) * (gxInverse : Exponent) = 1 := by
    rw [← Nat.cast_mul, ← Nat.cast_one, ZMod.natCast_eq_natCast_iff]
    decide +kernel
  calc ((secp256k1Gx : Exponent))⁻¹
      = (secp256k1Gx : Exponent)⁻¹ * ((secp256k1Gx : Exponent) * gxInverse) := by
        rw [hone, mul_one]
    _ = (gxInverse : Exponent) := by
        rw [← mul_assoc, mul_comm _ (secp256k1Gx : Exponent), ZMod.coe_mul_inv_eq_one _ gx_coprime_n, one_mul]

theorem recovers : Recovers machine lifts addressOf := by
  refine ⟨⟨rfl, rfl, rfl⟩, ?_⟩
  rintro h v r s k ⟨-, rfl, rfl⟩ - - - -
  have hr : (BitVec.ofNat 256 secp256k1Gx).toNat = secp256k1Gx := by decide +kernel
  -- the difference of the precompile, without going below zero
  have hdiff : ((s.toNat + (LockBinding.secp256k1N - h.toNat % LockBinding.secp256k1N) : Nat) : Exponent) =
      s.toNat * 1 - h.toNat := by
    have hle : h.toNat % LockBinding.secp256k1N ≤ LockBinding.secp256k1N := (Nat.mod_lt _ (by decide +kernel)).le
    rw [Nat.cast_add, Nat.cast_sub hle, ZMod.natCast_self, ZMod.natCast_mod, zero_sub, mul_one, sub_eq_add_neg]
  rw [hr, gx_inverse, ← hdiff, ← Nat.cast_mul, addressOf, ZMod.val_natCast]
  rfl

/-- The run of the two locks with its history. -/
def recorded : Recorded World Act := acts.foldl (Recorded.record fun w act => act.run deployment w) ⟨start, []⟩

end SmallLock

/-- The first lock of the run is opened once and settled once, by a claim in time. -/
theorem first_lock_settled_once : SmallLock.recorded.history.countP
      (settlesLock (lockIdOf SmallLock.deployment (SmallLock.message 1 10 (by decide)) (SmallLock.terms 7 10))) = 1 ∧
    SmallLock.recorded.history.countP
      (opensLock (lockIdOf SmallLock.deployment (SmallLock.message 1 10 (by decide)) (SmallLock.terms 7 10))) = 1 ∧
    ∀ step ∈ SmallLock.recorded.history, ∀ id, settlesLock id step = true →
      SettledBy SmallLock.deployment SmallLock.addressOf id step := by
  refine ⟨by decide +kernel, by decide +kernel, ?_⟩
  exact (lock_settlement SmallLock.deployment SmallLock.recovers
    (Reach.foldl (fun _ _ _ => trivial) (.start ⟨⟨rfl, rfl, rfl⟩, rfl⟩))).2.1

end DomProtocol.Evm
