import DomProtocol.Evm.Lock

/-!
# `Evm.Calls` — what a call can do, whatever the outside does meanwhile

While the guard is set every call back into the contract reverts, so what runs during a call of the contract leaves its
storage alone.  From that follow the payouts: what a push delivered, which credit it left, and that it never reverts.
-/

namespace DomProtocol.Evm

open Lib Std

variable {w₃ : World} {reply : Reply}

section Calls

variable {D : Deployment} {msg : Message} {w w' : World} {replies rest : List Reply}

/-! ## The guard -/

/-- The storage of the contract is the same. -/
structure Stored (w w' : World) : Prop where
  locks : w'.locks = w.locks
  pendingWithdrawals : w'.pendingWithdrawals = w.pendingWithdrawals
  entered : w'.entered = w.entered
  events : w'.events = w.events

/-- The contract made no calls that moved value either. -/
structure Frozen (w w' : World) : Prop extends Stored w w' where
  sent : w'.sent = w.sent

variable {w₁ w₂ : World}

theorem Stored.trans (h : Stored w₁ w₂) (h' : Stored w₂ w₃) : Stored w₁ w₃ :=
  ⟨h'.locks.trans h.locks, h'.pendingWithdrawals.trans h.pendingWithdrawals, h'.entered.trans h.entered,
    h'.events.trans h.events⟩

theorem Frozen.refl (w : World) : Frozen w w := ⟨⟨rfl, rfl, rfl, rfl⟩, rfl⟩

theorem Frozen.trans (h : Frozen w₁ w₂) (h' : Frozen w₂ w₃) : Frozen w₁ w₃ :=
  ⟨h.toStored.trans h'.toStored, h'.sent.trans h.sent⟩

/-- The world in which a call starts, with its value. -/
def Call.received (msg : Message) (w : World) : Call → World
  | .openLock _ => w.deposit 0 msg.value
  | _ => w

def Call.Accepts (msg : Message) (w : World) : Call → Prop
  | .openLock _ => (w.balance 0).toNat + msg.value.toNat < 2 ^ 256
  | _ => msg.value = 0

theorem receive_eq_ok {call : Call} : call.receive msg w replies = .ok ((), w', rest) ↔
    call.Accepts msg w ∧ w' = call.received msg w ∧ rest = replies := by
  cases call with
  | openLock terms =>
    simp only [Call.receive, Call.Accepts, Call.received, Session.get_bind, Session.reject_bind_eq_ok,
      Session.modify_eq_ok, Prod.mk.injEq, true_and, Nat.not_le]
  | claim _ _ | refund _ | withdraw _ | withdrawTo _ _ | withdrawAmount _ _ _ =>
    simp only [Call.receive, Call.Accepts, Call.received, Session.reject_eq_ok, Decidable.not_not, Prod.mk.injEq,
      true_and]

theorem received_frozen (call : Call) : Frozen w (call.received msg w) := by
  cases call <;> exact ⟨⟨rfl, rfl, rfl, rfl⟩, rfl⟩

theorem nonReentrant_eq_ok {body : ContractM Unit} : nonReentrant body w replies = .ok ((), w', rest) ↔
    w.entered = false ∧ ∃ after, body { w with entered := true } replies = .ok ((), after, rest) ∧
      w' = { after with entered := false } := by
  simp only [nonReentrant, Session.get_bind, Session.reject_bind_eq_ok, Session.modify_bind, Bool.not_eq_true]
  simp only [Session.bind_eq_ok, Session.modify_eq_ok, Prod.mk.injEq, true_and, exists_unit]
  constructor
  · rintro ⟨hgd, after, _, hbody, hw, rfl⟩
    exact ⟨hgd, after, hbody, hw⟩
  · rintro ⟨hgd, after, hbody, hw⟩
    exact ⟨hgd, after, rest, hbody, hw, rfl⟩

/-- **A call that goes through** found the guard open, and leaves it open. -/
theorem execute_eq_ok {call : Call} : call.execute D msg w replies = .ok w' ↔
    w.entered = false ∧ call.Accepts msg w ∧ ∃ after rest,
      call.body D msg { call.received msg w with entered := true } replies = .ok ((), after, rest) ∧
        w' = { after with entered := false } := by
  have hrun : call.execute D msg w replies = .ok w' ↔ ∃ rest, call.program D msg w replies = .ok ((), w', rest) := by
    simp [Call.execute]
  rw [hrun]
  simp only [Call.program, Session.bind_eq_ok, exists_unit, receive_eq_ok]
  constructor
  · rintro ⟨rest, _, _, ⟨hvalue, rfl, rfl⟩, hbody⟩
    obtain ⟨hgd, after, hbody, hw⟩ := nonReentrant_eq_ok.mp hbody
    exact ⟨(received_frozen call).entered.symm.trans hgd, hvalue, after, rest, hbody, hw⟩
  · rintro ⟨hgd, hvalue, after, rest, hbody, hw⟩
    refine ⟨rest, _, _, ⟨hvalue, rfl, rfl⟩, nonReentrant_eq_ok.mpr ⟨?_, after, hbody, hw⟩⟩
    exact (received_frozen call).entered.trans hgd

/-! ## Acts during a call -/

theorem frozen_debit (w : World) (asset : Address) (amount : U256) : Frozen w (w.debit asset amount) :=
  ⟨⟨rfl, rfl, rfl, rfl⟩, rfl⟩

theorem frozen_slash (w : World) (asset : Address) (amount : U256) : Frozen w ((Act.slash asset amount).run D w) := by
  simp only [Act.run]
  split
  · exact .refl w
  · exact frozen_debit w asset amount

/-- **A call back into the contract reverts.** -/
theorem run_call_of_entered {request : Call} {replies : List (ReplyOf Act)} (hent : w.entered = true) :
    (Act.call msg request replies).run D w = w := by
  simp only [Act.run]
  cases hexec : request.execute D msg w (replyEffects D replies) with
  | error e => rfl
  | ok after => exact absurd (execute_eq_ok.mp hexec).1 (by rw [hent]; decide)

theorem frozen_act (act : Act) (hent : w.entered = true) : Frozen w (act.run D w) := by
  cases act with
  | deposit asset amount => exact ⟨⟨rfl, rfl, rfl, rfl⟩, rfl⟩
  | slash asset amount => exact frozen_slash w asset amount
  | call msg request replies =>
    rw [run_call_of_entered hent]
    exact .refl w

theorem frozen_acts (acts : List Act) (hent : w.entered = true) : Frozen w (runActs D acts w) := by
  induction acts generalizing w with
  | nil => exact .refl w
  | cons act acts ih =>
    have hfst := frozen_act (D := D) act hent
    exact hfst.trans (ih (hfst.entered.trans hent))

def Act.keeps : Act → Bool
  | deposit _ _ | call _ _ _ => true
  | slash _ _ => false

theorem deposit_balance_le (w : World) (asset : Address) (amount : U256) (a : Address) :
    (w.balance a).toNat ≤ ((w.deposit asset amount).balance a).toNat := by
  simp only [World.deposit]
  split
  · rename_i hroom
    rw [BitVec.toNat_add_of_lt hroom.2]
    omega
  · exact Nat.le_refl _

def paidAsset (D : Deployment) (asset : Address) : Address :=
  match D.variant with
  | .native => 0
  | .erc20 => asset

/-- The asset is one that the variant moves. -/
def Supported (D : Deployment) (asset : Address) : Prop := paidAsset D asset = asset

/-- What the contract holds of an asset that it can move. -/
def custody (D : Deployment) (w : World) (a : Address) : Nat := if paidAsset D a = a then (w.balance a).toNat else 0

theorem custody_le {a : Address} (h : (w₁.balance a).toNat ≤ (w₂.balance a).toNat) :
    custody D w₁ a ≤ custody D w₂ a := by
  unfold custody
  split
  · exact h
  · exact Nat.le_refl _

theorem slash_custody_le (w : World) (asset : Address) (amount : U256) (hnat : D.variant = .native) (a : Address) :
    custody D w a ≤ custody D ((Act.slash asset amount).run D w) a := by
  have hpaid : paidAsset D a = 0 := by rw [paidAsset, hnat]
  refine (Nat.eq_zero_or_pos (custody D w a)).elim (fun hzero => hzero ▸ Nat.zero_le _) fun hpos => custody_le ?_
  have ha : 0 = a := by
    rw [custody, hpaid] at hpos
    by_contra hne
    rw [if_neg hne] at hpos
    exact Nat.lt_irrefl 0 hpos
  simp only [Act.run]
  split
  · exact Nat.le_refl _
  · rename_i hast
    have hsame : (w.debit asset amount).balance a = w.balance a := if_neg (ha ▸ Ne.symm hast)
    rw [hsame]

theorem acts_custody_le (acts : List Act) (hkps : D.variant = .erc20 → acts.all Act.keeps = true)
    (hent : w.entered = true) (a : Address) : custody D w a ≤ custody D (runActs D acts w) a := by
  induction acts generalizing w with
  | nil => exact Nat.le_refl _
  | cons act acts ih =>
    have hrest (herc : D.variant = .erc20) : acts.all Act.keeps = true := (Bool.and_eq_true_iff.mp (hkps herc)).2
    refine Nat.le_trans ?_ (ih hrest ((frozen_act (D := D) act hent).entered.trans hent))
    cases act with
    | deposit asset amount => exact custody_le (deposit_balance_le w asset amount a)
    | slash asset amount =>
      cases hvar : D.variant with
      | native => exact slash_custody_le w asset amount hvar a
      | erc20 => cases hkps hvar
    | call msg request replies => rw [run_call_of_entered hent]

/-! ## Answers -/

/-- Nothing that runs during a call touches the storage of a guarded contract. -/
def Tame (reply : Reply) : Prop := ∀ w, w.entered = true → Frozen w (reply.effect w)

/-- Nobody but the contract lowers its custody, and a token answers truthfully and takes at most what it was asked to
transfer. -/
structure Truthful (D : Deployment) (reply : Reply) : Prop where
  probe : D.variant = .erc20 → ∀ held, reply.probe held = some held
  takes : D.variant = .erc20 → ∀ amount, reply.takes amount ≤ amount
  keeps : ∀ w, w.entered = true → ∀ a, custody D w a ≤ custody D (reply.effect w) a

theorem tame_replyEffects (replies : List (ReplyOf Act)) : ∀ reply ∈ replyEffects D replies, Tame reply := by
  induction replies with
  | nil => exact nofun
  | cons reply replies ih =>
    obtain ⟨gas, ok, probe, takes, acts⟩ := reply
    exact List.forall_mem_cons.mpr ⟨fun w hent => frozen_acts acts hent, ih⟩

structure ReplyOf.Truthful (reply : ReplyOf Act) : Prop where
  probe : ∀ held, reply.probe held = some held
  takes : ∀ amount, reply.takes amount ≤ amount
  keeps : reply.acts.all Act.keeps = true

theorem length_replyEffects (replies : List (ReplyOf Act)) : (replyEffects D replies).length = replies.length := by
  induction replies with
  | nil => rfl
  | cons reply rest ih => rw [replyEffects, List.length_cons, List.length_cons, ih]

theorem truthful_replyEffects {replies : List (ReplyOf Act)}
    (h : D.variant = .erc20 → ∀ reply ∈ replies, reply.Truthful) : ∀ reply ∈ replyEffects D replies, Truthful D reply := by
  induction replies with
  | nil => exact nofun
  | cons reply replies ih =>
    have hfst (herc : D.variant = .erc20) : reply.Truthful := h herc reply List.mem_cons_self
    obtain ⟨gas, ok, probe, takes, acts⟩ := reply
    refine List.forall_mem_cons.mpr ⟨?_, ih fun herc r hr => h herc r (List.mem_cons_of_mem _ hr)⟩
    exact ⟨fun herc => (hfst herc).probe, fun herc => (hfst herc).takes,
      fun w hent => acts_custody_le acts (fun herc => (hfst herc).keeps) hent⟩

/-! ## Pushes -/

/-- **How a push ended**: what counts as delivered, and the call that delivered it.  A truthful token is measured. -/
inductive Delivery (D : Deployment) (payee asset : Address) (amount delivered : U256) (truthful : Prop) (w w' : World) : Prop
  where
  | nothing (hdelivered : delivered = 0) (hsent : w'.sent = w.sent)
  | value (hnative : D.variant = .native) (hdelivered : delivered = amount)
      (hsent : w'.sent = w.sent ++ [⟨payee, asset, amount⟩])
  | measured (before after : U256) (herc : D.variant = .erc20) (hdelivered : delivered = measuredDelivery before after amount)
      (hmeasured : truthful → before = w.balance asset ∧ after = w'.balance asset)
      (hsent : w'.sent = w.sent ++ [⟨payee, asset, amount⟩])
  | unmeasured (herc : D.variant = .erc20) (hdelivered : delivered = 0 ∨ delivered = amount) (hunanswered : ¬ truthful)
      (hsent : w'.sent = w.sent ++ [⟨payee, asset, amount⟩])

/-- **A push** of an amount, of which a part was delivered; the storage stays.  With truthful answers the contract lost at
most what was delivered. -/
structure Pushed (D : Deployment) (payee asset : Address) (amount delivered : U256) (truthful : Prop) (w w' : World) : Prop
  where
  le : delivered.toNat ≤ amount.toNat
  stored : Stored w w'
  delivery : Delivery D payee asset amount delivered truthful w w'
  custody : truthful → ∀ a, custody D w a ≤ custody D w' a + if a = asset then delivered.toNat else 0

variable {payee asset : Address} {amount delivered : U256}

theorem Pushed.nothing (D : Deployment) (payee asset : Address) (amount : U256) (truthful : Prop) (w : World) :
    Pushed D payee asset amount 0 truthful w w :=
  ⟨Nat.zero_le _, (Frozen.refl w).toStored, .nothing rfl rfl, fun _ _ => Nat.le_add_right _ _⟩

variable {truthful truthful' : Prop}

theorem Delivery.mono (himp : truthful' → truthful) (h : Delivery D payee asset amount delivered truthful w w') :
    Delivery D payee asset amount delivered truthful' w w' := by
  cases h with
  | nothing hdel hsent => exact .nothing hdel hsent
  | value hnat hdel hsent => exact .value hnat hdel hsent
  | measured before after herc hdel hmeas hsent =>
    exact .measured before after herc hdel (hmeas ∘ himp) hsent
  | unmeasured herc hdel hunan hsent => exact .unmeasured herc hdel (hunan ∘ himp) hsent

theorem Pushed.mono (himp : truthful' → truthful) (h : Pushed D payee asset amount delivered truthful w w') :
    Pushed D payee asset amount delivered truthful' w w' :=
  ⟨h.le, h.stored, h.delivery.mono himp, h.custody ∘ himp⟩

/-- The world after a transfer that did not fail. -/
def transferred (asset payee : Address) (amount : U256) (reply : Reply) (w : World) : World :=
  let after := (reply.effect w).debit asset (reply.takes amount)
  { after with sent := after.sent ++ [⟨payee, asset, amount⟩] }

def afterTransfer (asset payee : Address) (amount : U256) (reply : Reply) (w : World) : World :=
  if reply.ok then transferred asset payee amount reply w else w

def countDelivered (before after : Option U256) (amount : U256) (ok assume : Bool) : U256 :=
  if ok = false then 0 else
    match before, after with
    | some balanceBefore, some balanceAfter => measuredDelivery balanceBefore balanceAfter amount
    | _, _ => if assume then amount else 0

theorem probeBalance_cons (asset : Address) (reply : Reply) :
    probeBalance asset w (reply :: rest) = .ok (reply.probe (w.balance asset), w, rest) := rfl

theorem callTransfer_cons (asset payee : Address) (amount : U256) (reply : Reply) :
    callTransfer asset payee amount w (reply :: rest) = .ok (reply.ok, afterTransfer asset payee amount reply w, rest) :=
  rfl

/-- **A delivery** is a probe, a transfer and a probe. -/
theorem deliver_cons (assume : Bool) (first reply last : Reply) :
    deliver asset payee amount assume w (first :: reply :: last :: rest) =
      .ok (countDelivered (first.probe (w.balance asset))
        (last.probe ((afterTransfer asset payee amount reply w).balance asset)) amount reply.ok assume,
        afterTransfer asset payee amount reply w, rest) := by
  unfold deliver countDelivered
  rw [Session.bind_of_ok (probeBalance_cons asset first), Session.bind_of_ok (callTransfer_cons asset payee amount reply),
    Session.bind_of_ok (probeBalance_cons asset last)]
  cases reply.ok with
  | false => rfl
  | true =>
    cases first.probe (w.balance asset) with
    | none => rfl
    | some held =>
      cases last.probe ((afterTransfer asset payee amount reply w).balance asset) with
      | none => rfl
      | some left => rfl

variable {assume : Bool}

theorem deliver_eq_ok (h : deliver asset payee amount assume w replies = .ok (delivered, w', rest)) :
    ∃ first reply last, replies = first :: reply :: last :: rest ∧ w' = afterTransfer asset payee amount reply w ∧
      delivered = countDelivered (first.probe (w.balance asset)) (last.probe (w'.balance asset)) amount reply.ok assume := by
  match replies with
  | [] => cases h
  | [first] => cases h
  | [first, reply] => cases h
  | first :: reply :: last :: others =>
    cases (deliver_cons assume first reply last).symm.trans h
    exact ⟨first, reply, last, rfl, rfl, rfl⟩

/-- What was measured is at most what was asked for, and covers what left when that is at most what was asked for. -/
theorem measuredDelivery_le (before after amount : U256) : (measuredDelivery before after amount).toNat ≤ amount.toNat := by
  unfold measuredDelivery
  generalize (if after < before then before - after else 0) = moved
  dsimp only
  split
  · exact Nat.le_refl _
  · rename_i hle
    exact BitVec.le_def.mp (BitVec.not_lt.mp hle)

theorem le_measuredDelivery {before after amount : U256} (h : before.toNat ≤ after.toNat + amount.toNat) :
    before.toNat ≤ after.toNat + (measuredDelivery before after amount).toNat := by
  by_cases hfell : after < before
  · have hmvd : (before - after).toNat = before.toNat - after.toNat := BitVec.toNat_sub_of_le (BitVec.le_of_lt hfell)
    simp only [measuredDelivery, hfell, if_true]
    split
    · exact h
    · have hlt := BitVec.lt_def.mp hfell
      omega
  · have hle := BitVec.not_lt.mp hfell
    exact Nat.le_add_right_of_le (BitVec.le_def.mp hle)

theorem debit_custody (w : World) (asset : Address) (amount : U256) (a : Address) :
    custody D w a ≤ custody D (w.debit asset amount) a + if a = asset then amount.toNat else 0 := by
  simp only [custody, World.debit]
  split
  · split
    · split
      · rename_i hle
        rw [BitVec.toNat_sub_of_le hle]
        omega
      · rename_i hlt
        have := BitVec.lt_def.mp (BitVec.not_le.mp hlt)
        omega
    · exact Nat.le_add_right _ _
  · exact Nat.zero_le _

theorem transferred_custody (herc : D.variant = .erc20) (htrue : Truthful D reply)
    (hent : w.entered = true) (a : Address) :
    custody D w a ≤ custody D (transferred asset payee amount reply w) a + if a = asset then amount.toNat else 0 := by
  have hkps := htrue.keeps w hent a
  have hdeb := debit_custody (D := D) (reply.effect w) asset (reply.takes amount) a
  have htakes := BitVec.le_def.mp (htrue.takes herc amount)
  show _ ≤ custody D ((reply.effect w).debit asset (reply.takes amount)) a + _
  by_cases ha : a = asset
  · rw [if_pos ha] at hdeb ⊢
    omega
  · rw [if_neg ha] at hdeb ⊢
    omega

theorem custody_erc20 (herc : D.variant = .erc20) (w : World) (a : Address) : custody D w a = (w.balance a).toNat := by
  rw [custody, paidAsset, herc, if_pos rfl]

theorem transferred_stored (htame : Tame reply) (hent : w.entered = true) :
    Stored w (transferred asset payee amount reply w) ∧
      (transferred asset payee amount reply w).sent = w.sent ++ [⟨payee, asset, amount⟩] := by
  have hfroz := (htame w hent).trans (frozen_debit (reply.effect w) asset (reply.takes amount))
  exact ⟨⟨hfroz.locks, hfroz.pendingWithdrawals, hfroz.entered, hfroz.events⟩,
    congrArg (· ++ [(⟨payee, asset, amount⟩ : Transfer)]) hfroz.sent⟩

theorem countDelivered_le (before after : Option U256) (amount : U256) (ok assume : Bool) :
    (countDelivered before after amount ok assume).toNat ≤ amount.toNat := by
  unfold countDelivered
  split
  · exact Nat.zero_le _
  · split
    · exact measuredDelivery_le _ _ _
    · split
      · exact Nat.le_refl _
      · exact Nat.zero_le _

theorem delivery_of_sent {first last : Option U256} (herc : D.variant = .erc20)
    (hprobes : truthful → first = some (w.balance asset) ∧ last = some (w'.balance asset))
    (hsent : w'.sent = w.sent ++ [⟨payee, asset, amount⟩]) :
    Delivery D payee asset amount (countDelivered first last amount true assume) truthful w w' := by
  have hwh : ∀ assume : Bool, (if assume then amount else 0) = 0 ∨ (if assume then amount else 0) = amount := by
    intro assume
    cases assume with
    | false => exact .inl rfl
    | true => exact .inr rfl
  match first, last with
  | some before, some after =>
    refine .measured before after herc rfl (fun htrue => ?_) hsent
    simpa only [Option.some.injEq] using hprobes htrue
  | none, _ => exact .unmeasured herc (hwh assume) (fun htrue => by cases (hprobes htrue).1) hsent
  | some _, none => exact .unmeasured herc (hwh assume) (fun htrue => by cases (hprobes htrue).2) hsent

variable (hent : w.entered = true) (htame : ∀ reply ∈ replies, Tame reply)

include hent htame in
/-- **A transfer of tokens** is a push. -/
theorem deliver_pushed (herc : D.variant = .erc20)
    (h : deliver asset payee amount assume w replies = .ok (delivered, w', rest)) :
    Pushed D payee asset amount delivered (∀ reply ∈ replies, Truthful D reply) w w' := by
  obtain ⟨first, reply, last, rfl, rfl, rfl⟩ := deliver_eq_ok h
  by_cases hok : reply.ok = true
  · have hmvd : afterTransfer asset payee amount reply w = transferred asset payee amount reply w := if_pos hok
    obtain ⟨hsto, hsent⟩ : Stored w (transferred asset payee amount reply w) ∧ _ :=
      transferred_stored (htame reply (by simp)) hent
    rw [hmvd]
    refine ⟨countDelivered_le _ _ _ _ _, hsto, ?_, fun htrue a => ?_⟩
    · rw [hok]
      refine delivery_of_sent herc (fun htrue => ⟨?_, ?_⟩) hsent
      · exact (htrue first (by simp)).probe herc _
      · exact (htrue last (by simp)).probe herc _
    · have hbd : ∀ a, custody D w a ≤ custody D (transferred asset payee amount reply w) a + _ :=
        transferred_custody herc (htrue reply (by simp)) hent
      rw [(htrue first (by simp)).probe herc, (htrue last (by simp)).probe herc, hok]
      by_cases ha : a = asset
      · have hast := hbd asset
        rw [if_pos rfl, custody_erc20 herc, custody_erc20 herc] at hast
        rw [if_pos ha, ha, custody_erc20 herc, custody_erc20 herc]
        exact le_measuredDelivery hast
      · have hoth := hbd a
        rw [if_neg ha] at hoth ⊢
        exact hoth
  · have hstays : afterTransfer asset payee amount reply w = w := if_neg hok
    rw [hstays, Bool.eq_false_of_not_eq_true hok]
    exact Pushed.nothing D payee asset amount _ w

def afterSend (D : Deployment) (payee : Address) (amount : U256) (reply : Reply) (w : World) : World :=
  if reply.ok ∧ amount ≤ w.balance 0 ∧ payee ≠ D.self then
    let after := reply.effect (w.debit 0 amount)
    { after with sent := after.sent ++ [⟨payee, 0, amount⟩] }
  else w

theorem sendValue_cons (D : Deployment) (payee : Address) (amount : U256) (reply : Reply) :
    sendValue D payee amount w (reply :: rest) =
      .ok (if reply.ok ∧ amount ≤ w.balance 0 ∧ payee ≠ D.self then amount else 0, afterSend D payee amount reply w, rest) := by
  have hcall : callValue D payee amount w (reply :: rest) =
      .ok (decide (reply.ok ∧ amount ≤ w.balance 0 ∧ payee ≠ D.self), afterSend D payee amount reply w, rest) := rfl
  unfold sendValue
  rw [Session.bind_of_ok hcall]
  simp only [decide_eq_true_eq]
  rfl

include hent htame in
/-- **A call with value** is a push. -/
theorem sendValue_pushed (hnat : D.variant = .native)
    (h : sendValue D payee amount w replies = .ok (delivered, w', rest)) :
    Pushed D payee 0 amount delivered (∀ reply ∈ replies, Truthful D reply) w w' := by
  match replies with
  | [] => cases h
  | reply :: others =>
    cases (sendValue_cons D payee amount reply).symm.trans h
    by_cases hok : reply.ok ∧ amount ≤ w.balance 0 ∧ payee ≠ D.self
    · have hfroz := (frozen_debit w 0 amount).trans (htame reply (by simp) (w.debit 0 amount) hent)
      rw [if_pos hok, afterSend, if_pos hok]
      refine ⟨Nat.le_refl _, ⟨hfroz.locks, hfroz.pendingWithdrawals, hfroz.entered, hfroz.events⟩,
        .value hnat rfl (congrArg (· ++ [(⟨payee, 0, amount⟩ : Transfer)]) hfroz.sent), fun htrue a => ?_⟩
      have hkps := (htrue reply (by simp)).keeps (w.debit 0 amount) hent a
      exact Nat.le_trans (debit_custody w 0 amount a) (Nat.add_le_add_right hkps _)
    · rw [if_neg hok, afterSend, if_neg hok]
      exact Pushed.nothing D payee 0 amount _ w

include hent htame in
/-- **What moves an asset**, `tryPushPayout` or `pullTransfer`, is a push. -/
theorem pushed_of_variant (assume : Bool)
    (h : (match D.variant with
      | .native => sendValue D payee amount
      | .erc20 => deliver asset payee amount assume) w replies = .ok (delivered, w', rest)) :
    Pushed D payee (paidAsset D asset) amount delivered (∀ reply ∈ replies, Truthful D reply) w w' := by
  unfold paidAsset
  cases hvar : D.variant <;> rw [hvar] at h
  · exact sendValue_pushed hent htame hvar h
  · exact deliver_pushed hent htame hvar h

/-! ## Payouts -/

/-- The world after the shortfall of a payout was credited. -/
def World.credited (w : World) (payee asset : Address) (shortfall : U256) : World :=
  if shortfall = 0 then w
  else { w.setCredit payee asset (addSaturating (w.credit payee asset) shortfall) with
    events := w.events ++ [.PayoutDeferred payee asset shortfall] }

/-- The world after a payout: a push, and a credit for what it did not deliver. -/
structure PaidOut (D : Deployment) (payee asset : Address) (amount : U256) (truthful : Prop) (w w' : World) : Prop where
  exists_push : ∃ pushed delivered, Pushed D payee (paidAsset D asset) amount delivered truthful w pushed ∧
    w' = pushed.credited payee asset (amount - delivered)

theorem PaidOut.mono (h : PaidOut D payee asset amount truthful w w') (himp : truthful' → truthful) :
    PaidOut D payee asset amount truthful' w w' := by
  obtain ⟨pushed, delivered, hpush, hw⟩ := h.exists_push
  exact ⟨pushed, delivered, hpush.mono himp, hw⟩

theorem creditShortfall_eq (shortfall : U256) :
    creditShortfall payee asset shortfall w replies = .ok ((), w.credited payee asset shortfall, replies) := by
  unfold creditShortfall World.credited
  split
  · rfl
  · rfl

theorem gasleft_cons (reply : Reply) : gasleft w (reply :: rest) = .ok (reply.gas, w, rest) := rfl

include hent htame in
theorem pushAboveFloor_pushed
    (h : pushAboveFloor D payee asset amount w replies = .ok (delivered, w', rest)) :
    Pushed D payee (paidAsset D asset) amount delivered (∀ reply ∈ replies, Truthful D reply) w w' := by
  match replies with
  | [] => cases h
  | reply :: others =>
    unfold pushAboveFloor at h
    rw [Session.bind_of_ok (gasleft_cons reply)] at h
    split at h
    · exact (pushed_of_variant hent (fun r hr => htame r (List.mem_cons_of_mem _ hr)) true h).mono
        fun htrue r hr => htrue r (List.mem_cons_of_mem _ hr)
    · obtain ⟨rfl, rfl, rfl⟩ : delivered = 0 ∧ w' = w ∧ rest = others := by simpa using h
      exact Pushed.nothing D payee _ amount _ w'

include hent htame in
/-- **A payout** pushes and credits. -/
theorem payout_eq_ok
    (h : payout D payee asset amount w replies = .ok ((), w', rest)) :
    PaidOut D payee asset amount (∀ reply ∈ replies, Truthful D reply) w w' := by
  unfold payout at h
  obtain ⟨delivered, pushed, others, hpush, h⟩ := Session.bind_eq_ok.mp h
  obtain ⟨-, h⟩ := Session.reject_bind_eq_ok.mp h
  rw [creditShortfall_eq, Except.ok.injEq, Prod.mk.injEq, Prod.mk.injEq] at h
  exact ⟨pushed, delivered, pushAboveFloor_pushed hent htame hpush, h.2.1.symm⟩

theorem tryPushPayout_total (D : Deployment) (payee asset : Address) (amount : U256) (w : World) (h : 3 ≤ replies.length) :
    ∃ r, tryPushPayout D payee asset amount w replies = .ok r := by
  match replies, h with
  | first :: reply :: last :: others, _ =>
    unfold tryPushPayout
    cases D.variant
    · exact ⟨_, sendValue_cons D payee amount first⟩
    · exact ⟨_, deliver_cons true first reply last⟩

include hent htame in
/-- **A payout never reverts**, whatever the payee and the token do: four answers are enough gas. -/
theorem payout_total (h : 4 ≤ replies.length) :
    ∃ w' rest, payout D payee asset amount w replies = .ok ((), w', rest) := by
  match replies, h with
  | reply :: others, h =>
    have hpush : ∃ delivered pushed rest,
        pushAboveFloor D payee asset amount w (reply :: others) = .ok (delivered, pushed, rest) := by
      unfold pushAboveFloor
      rw [Session.bind_of_ok (gasleft_cons reply)]
      split
      · obtain ⟨⟨delivered, pushed, rest⟩, hrun⟩ := tryPushPayout_total D payee asset amount w
          (Nat.le_of_succ_le_succ h)
        exact ⟨delivered, pushed, rest, hrun⟩
      · exact ⟨0, w, others, rfl⟩
    obtain ⟨delivered, pushed, rest, hpush⟩ := hpush
    have hle := (pushAboveFloor_pushed hent htame hpush).le
    have hfits : ¬ amount < delivered := fun hlt => absurd (BitVec.lt_def.mp hlt) (Nat.not_lt.mpr hle)
    refine ⟨pushed.credited payee asset (amount - delivered), rest, ?_⟩
    unfold payout
    rw [Session.bind_of_ok hpush]
    exact Session.reject_bind_eq_ok.mpr ⟨hfits, creditShortfall_eq _⟩

/-! ## Bodies -/

/-- The world in which a payout of a lock starts. -/
def World.settle (w : World) (lockId : Digest32) (event : Event) : World :=
  { w.setLock lockId { w.lockOf lockId with settled := true } with events := w.events ++ [event] }

structure ClaimAllowed (D : Deployment) (msg : Message) (lockId : Digest32) (t : U256) (w : World) : Prop where
  known : (w.lockOf lockId).funder ≠ 0
  unsettled : (w.lockOf lockId).settled = false
  sender : msg.sender = (w.lockOf lockId).beneficiary
  early : msg.timestamp < (w.lockOf lockId).deadline.toNat
  secret : LockBinding.addressOfScalarTimesG D.machine t = some (w.lockOf lockId).adaptorAddress
  adaptor : (w.lockOf lockId).adaptorAddress ≠ 0

structure RefundAllowed (msg : Message) (lockId : Digest32) (w : World) : Prop where
  known : (w.lockOf lockId).funder ≠ 0
  unsettled : (w.lockOf lockId).settled = false
  late : (w.lockOf lockId).deadline.toNat ≤ msg.timestamp

variable {lockId : Digest32} {t : U256} {r : Unit × World × List Reply}

/-- **Claim.** -/
theorem claim_eq_ok : claim D msg lockId t w replies = .ok r ↔ ClaimAllowed D msg lockId t w ∧
    payout D (w.lockOf lockId).beneficiary (w.lockOf lockId).asset (w.lockOf lockId).amount
      (w.settle lockId (.Claimed lockId (w.lockOf lockId).binding (w.lockOf lockId).beneficiary t)) replies = .ok r := by
  simp only [claim, emit, Session.get_bind, Session.reject_bind_eq_ok, Session.expect_bind_eq_ok, Session.modify_bind, not_or,
    Decidable.not_not, Bool.not_eq_true, Nat.not_le]
  constructor
  · rintro ⟨hkn, hunset, hsnr, hearly, recovered, hsec, ⟨hzero, rfl⟩, hpay⟩
    exact ⟨⟨hkn, hunset, hsnr, hearly, hsec, hzero⟩, hpay⟩
  · rintro ⟨⟨hkn, hunset, hsnr, hearly, hsec, hzero⟩, hpay⟩
    exact ⟨hkn, hunset, hsnr, hearly, _, hsec, ⟨hzero, rfl⟩, hpay⟩

/-- **Refund.** -/
theorem refund_eq_ok : refund D msg lockId w replies = .ok r ↔ RefundAllowed msg lockId w ∧
    payout D (w.lockOf lockId).funder (w.lockOf lockId).asset (w.lockOf lockId).amount
      (w.settle lockId (.Refunded lockId (w.lockOf lockId).binding (w.lockOf lockId).funder (w.lockOf lockId).amount))
      replies = .ok r := by
  simp only [refund, emit, Session.get_bind, Session.reject_bind_eq_ok, Session.modify_bind, Bool.not_eq_true, Nat.not_lt]
  constructor
  · rintro ⟨hkn, hunset, hlate, hpay⟩
    exact ⟨⟨hkn, hunset, hlate⟩, hpay⟩
  · rintro ⟨⟨hkn, hunset, hlate⟩, hpay⟩
    exact ⟨hkn, hunset, hlate, hpay⟩

theorem requireSupportedAsset_eq_ok {asset : Address} {r : Unit × World × List Reply}
    (h : requireSupportedAsset D msg asset w replies = .ok r) : Supported D asset ∧ r = ((), w, replies) := by
  unfold requireSupportedAsset at h
  unfold Supported paidAsset
  cases hvar : D.variant with
  | native =>
    rw [hvar] at h
    obtain ⟨hast, hr⟩ := Session.reject_eq_ok.mp h
    exact ⟨(Decidable.not_not.mp hast).symm, hr⟩
  | erc20 =>
    rw [hvar] at h
    obtain ⟨-, h⟩ := Session.reject_bind_eq_ok.mp h
    exact ⟨rfl, (Session.reject_eq_ok.mp h).2⟩

include hent htame in
/-- **Withdrawal** of a part of the credit, which is all of it or the requested amount. -/
theorem withdrawCredit_eq_ok {requested : Option U256}
    (h : withdrawCredit D msg asset payee requested w replies = .ok ((), w', rest)) :
    Supported D asset ∧ ∃ amount pushed, amount ≤ w.credit msg.sender asset ∧
      Pushed D payee (paidAsset D asset) amount amount (∀ reply ∈ replies, Truthful D reply)
        (w.setCredit msg.sender asset (w.credit msg.sender asset - amount)) pushed ∧
      w' = { pushed with events := pushed.events ++ [.Withdrawal msg.sender asset payee amount] } := by
  unfold withdrawCredit at h
  obtain ⟨_, _, _, hast, hrest⟩ := Session.bind_eq_ok.mp h
  obtain ⟨hsupp, hsame⟩ := requireSupportedAsset_eq_ok hast
  cases hsame
  simp only [Session.get_bind, Session.reject_bind_eq_ok, Session.modify_bind, BitVec.not_lt] at hrest
  obtain ⟨-, hle, hrest⟩ := hrest
  obtain ⟨delivered, pushed, _, hpull, hend⟩ := Session.bind_eq_ok.mp hrest
  simp only [emit, Session.reject_bind_eq_ok, Session.modify_eq_ok, Decidable.not_not, Prod.mk.injEq, true_and] at hend
  obtain ⟨rfl, rfl, -⟩ := hend
  exact ⟨hsupp, _, pushed, hle, pushed_of_variant hent htame false hpull, rfl⟩

theorem probeBalance_eq_ok {o : Option U256} (h : probeBalance asset w replies = .ok (o, w', rest)) :
    ∃ reply, replies = reply :: rest ∧ o = reply.probe (w.balance asset) ∧ w' = w := by
  match replies with
  | [] => cases h
  | reply :: others =>
    cases h
    exact ⟨reply, rfl, rfl, rfl⟩

theorem safeTransferFrom_eq_ok (h : safeTransferFrom w replies = .ok ((), w', rest)) :
    ∃ reply, replies = reply :: rest ∧ w' = reply.effect w := by
  simp only [safeTransferFrom, Session.ask_bind_eq_ok, Session.reject_bind_eq_ok, Session.modify_eq_ok, Prod.mk.injEq] at h
  obtain ⟨reply, _, hreps, -, -, hw, rfl⟩ := h
  exact ⟨reply, hreps, hw⟩

include hent htame in
/-- **Custody of tokens**: what was measured came in. -/
theorem takeTokens_eq_ok (herc : D.variant = .erc20)
    (h : takeTokens asset amount w replies = .ok ((), w', rest)) : Frozen w w' ∧
      ((∀ reply ∈ replies, Truthful D reply) → ∀ a, custody D w a + (if a = asset then amount.toNat else 0) ≤
        custody D w' a) := by
  unfold takeTokens at h
  obtain ⟨measuredBefore, start, _, hfst, h₁⟩ := Session.bind_eq_ok.mp h
  obtain ⟨first, rfl, rfl, rfl⟩ := probeBalance_eq_ok hfst
  obtain ⟨before, hbef, h₂⟩ := Session.expect_bind_eq_ok.mp h₁
  obtain ⟨_, moved, _, htrf, h₃⟩ := Session.bind_eq_ok.mp h₂
  obtain ⟨reply, rfl, rfl⟩ := safeTransferFrom_eq_ok htrf
  obtain ⟨measuredAfter, _, _, hlast, h₄⟩ := Session.bind_eq_ok.mp h₃
  obtain ⟨last, rfl, rfl, rfl⟩ := probeBalance_eq_ok hlast
  obtain ⟨after, haft, h₅⟩ := Session.expect_bind_eq_ok.mp h₄
  obtain ⟨hrose, h₆⟩ := Session.reject_bind_eq_ok.mp h₅
  obtain ⟨hexa, hend⟩ := Session.reject_eq_ok.mp h₆
  cases hend
  refine ⟨htame reply (by simp) _ hent, fun htrue a => ?_⟩
  rw [(htrue first (by simp)).probe herc, Option.some.injEq] at hbef
  rw [(htrue last (by simp)).probe herc, Option.some.injEq] at haft
  have hkps := (htrue reply (by simp)).keeps _ hent a
  by_cases ha : a = asset
  · subst ha
    rw [if_pos rfl, custody_erc20 herc, custody_erc20 herc, hbef, haft, ← Decidable.not_not.mp hexa,
      BitVec.toNat_sub_of_le (BitVec.not_lt.mp hrose)]
    have hle := BitVec.le_def.mp (BitVec.not_lt.mp hrose)
    omega
  · rw [if_neg ha]
    exact hkps

/-- What `open` has in custody when it succeeds. -/
inductive Taken (D : Deployment) (msg : Message) (asset : Address) (amount : U256) (truthful : Prop) (w w' : World) : Prop
  where
  | native (hvariant : D.variant = .native) (hasset : asset = 0) (hvalue : msg.value = amount) (hw : w' = w)
  | erc20 (hvariant : D.variant = .erc20) (hvalue : msg.value = 0) (hfrozen : Frozen w w')
      (hcustody : truthful → ∀ a, custody D w a + (if a = asset then amount.toNat else 0) ≤ custody D w' a)

theorem Taken.frozen (h : Taken D msg asset amount truthful w w') : Frozen w w' := by
  cases h with
  | native _ _ _ hw => exact hw ▸ .refl w
  | erc20 _ _ hfroz _ => exact hfroz

include hent htame in
theorem takeCustody_eq_ok
    (h : takeCustody D msg asset amount w replies = .ok ((), w', rest)) :
    Supported D asset ∧ Taken D msg asset amount (∀ reply ∈ replies, Truthful D reply) w w' := by
  unfold takeCustody at h
  obtain ⟨_, _, _, hast, h₁⟩ := Session.bind_eq_ok.mp h
  obtain ⟨hsupp, hsame⟩ := requireSupportedAsset_eq_ok hast
  cases hsame
  refine ⟨hsupp, ?_⟩
  unfold Supported paidAsset at hsupp
  cases hvar : D.variant with
  | native =>
    rw [hvar] at h₁ hsupp
    obtain ⟨hvalue, hend⟩ := Session.reject_eq_ok.mp h₁
    cases hend
    exact .native hvar hsupp.symm (Decidable.not_not.mp hvalue) rfl
  | erc20 =>
    rw [hvar] at h₁
    obtain ⟨hvalue, htake⟩ := Session.reject_bind_eq_ok.mp h₁
    obtain ⟨hfroz, hcust⟩ := takeTokens_eq_ok hent htame hvar htake
    exact .erc20 hvar (Decidable.not_not.mp hvalue) hfroz hcust

/-- The binding and the id under which a sender opens a lock. -/
def bindingOf (D : Deployment) (terms : LockTerms) : Digest32 :=
  LockBinding.deriveBinding D.machine terms D.chainId D.self

def lockIdOf (D : Deployment) (msg : Message) (terms : LockTerms) : Digest32 :=
  LockBinding.deriveLockId D.machine (bindingOf D terms) msg.sender

/-- The world with a new lock, before custody is taken. -/
def World.opened (w : World) (D : Deployment) (msg : Message) (terms : LockTerms) : World :=
  { w.setLock (lockIdOf D msg terms) (lockFor msg.sender terms (bindingOf D terms)) with
    events := w.events ++ [.LockOpened (lockIdOf D msg terms) (bindingOf D terms) msg.sender terms.beneficiary terms.asset
      terms.amount terms.adaptorAddress terms.deadline] }

include hent htame in
/-- **Open.** -/
theorem openLock_eq_ok {terms : LockTerms}
    (h : openLock D msg terms w replies = .ok ((), w', rest)) : (w.lockOf (lockIdOf D msg terms)).funder = 0 ∧
      Supported D terms.asset ∧
      Taken D msg terms.asset terms.amount (∀ reply ∈ replies, Truthful D reply) (w.opened D msg terms) w' := by
  simp only [openLock, emit, Session.reject_bind_eq_ok, Session.get_bind, Session.modify_bind, Decidable.not_not] at h
  obtain ⟨-, -, -, -, hfr, hcust⟩ := h
  obtain ⟨hsupp, htkn⟩ := takeCustody_eq_ok (w := w.opened D msg terms) hent htame hcust
  exact ⟨hfr, hsupp, htkn⟩

end Calls

end DomProtocol.Evm
