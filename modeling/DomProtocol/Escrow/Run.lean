import DomProtocol.Escrow.Payout
import DomProtocol.Escrow.SmallCluster

/-!
# `Escrow.Run` — the payouts of one escrow over a whole run

A run is any sequence of instructions to the program, with any accounts, and of actions of other programs; a failed
instruction changes nothing.  From the initialization of an escrow until its close exactly the agreed amount leaves the
vault at most once, and funding happens exactly once before that.
-/

namespace DomProtocol.Escrow

open Lib

variable {cur' : EscrowStateV1}

/-! ## The secret -/

theorem getD_leBytes {n i : Nat} (v : Nat) (h : i < n) : (leBytes n v).getD i 0 = UInt8.ofNat (v / 256 ^ i % 256) := by
  induction n generalizing v i with
  | zero => omega
  | succ n ih =>
    cases i with
    | zero => simp [leBytes]
    | succ i =>
      rw [leBytes, List.getD_cons_succ, ih _ (by omega), Nat.div_div_eq_div_mul, Nat.pow_succ']

theorem highBits_eq_zero (b : Nat) (h : b < 256) : UInt8.ofNat b &&& 0xf0 = 0 ↔ b < 16 := by
  have hall : ∀ b < 256, (UInt8.ofNat b &&& 0xf0 = 0 ↔ b < 16) := by decide +kernel
  exact hall b h

section Secret

variable {C : Cluster} {point : Nat → Digest32} {secret expected : Digest32}

theorem reverse_hashBytes : (hashBytes secret).reverse = leBytes 32 secret.toNat := by
  rw [hashBytes, writeArray, beBytes, List.reverse_reverse]

/-- **The right secret.** -/
theorem verifySharedSecret_eq_ok (hC : Lawful C point) : verifySharedSecret C secret expected = .ok () ↔
    secret ≠ 0 ∧ expected ≠ 0 ∧ secret.toNat < 2 ^ 252 ∧ point secret.toNat = expected := by
  have hbyte : secret.toNat / 256 ^ 31 < 256 := by
    have hbd : secret.toNat < 256 * 256 ^ 31 := secret.isLt
    exact Nat.div_lt_of_lt_mul (by rwa [Nat.mul_comm] at hbd)
  have hrange : (leBytes 32 secret.toNat).getD 31 0 &&& 0xf0 = 0 ↔ secret.toNat < 2 ^ 252 := by
    rw [getD_leBytes _ (by decide), Nat.mod_eq_of_lt hbyte, highBits_eq_zero _ hbyte,
      Nat.div_lt_iff_lt_mul (by decide)]
    exact Iff.rfl
  simp only [verifySharedSecret, inversion, not_or, Decidable.not_not, reverse_hashBytes, hrange, and_assoc]
  constructor
  · rintro ⟨hsec, hexp, hdom, found, hfnd, hpt⟩
    rw [hC.curve _ hdom] at hfnd
    exact ⟨hsec, hexp, hdom, (Option.some.inj hfnd).trans hpt⟩
  · rintro ⟨hsec, hexp, hdom, hpt⟩
    exact ⟨hsec, hexp, hdom, _, hC.curve _ hdom, hpt⟩

end Secret

/-! ## Runs -/

section Runs

variable (C : Cluster)

/-- An instruction to the program, or whatever other programs do. -/
inductive Action where
  | exec (clock : Clock) (accounts : List AccountInfo) (data : List UInt8)
  | foreign (after : Ledger)

/-- The ledger after an action; a failed instruction leaves it as it was. -/
def Action.next (ledger : Ledger) : Action → Ledger
  | exec clock accounts data => (process C programId ledger clock accounts data).toOption.getD ledger
  | foreign after => after

def Action.Permitted (ledger : Ledger) : Action → Prop
  | exec _ accounts _ => Signed C accounts
  | foreign after => Foreign C ledger after

/-- An instruction for the escrow that went through. -/
def Action.Executes (ledger : Ledger) (key : Pubkey) (instruction : EscrowInstructionV1) : Action → Prop
  | exec clock accounts data => EscrowInstructionV1.decode data = .ok instruction ∧
      instruction.target accounts = some key ∧ ∃ ledger', process C programId ledger clock accounts data = .ok ledger'
  | foreign _ => False

/-- One action with the ledgers before and after it. -/
structure Transition where
  before : Ledger
  action : Action
  after : Ledger

/-- The ledger, and what happened since the escrow was initialized, latest first. -/
structure Watched where
  ledger : Ledger
  history : List Transition

def Watched.next (w : Watched) (action : Action) : Watched :=
  ⟨action.next C w.ledger, ⟨w.ledger, action, action.next C w.ledger⟩ :: w.history⟩

/-- The escrow at `key` was just initialized with the terms `s`. -/
structure Begins (key : Pubkey) (s : EscrowStateV1) (w : Watched) : Prop where
  history : w.history = []
  initialized : ∃ before clock accounts data params, process C programId before clock accounts data = .ok w.ledger ∧
    (EscrowInstructionV1.decode data = .ok (.InitializeNative params) ∨
      EscrowInstructionV1.decode data = .ok (.InitializeSpl params)) ∧
    (EscrowInstructionV1.InitializeNative params).target accounts = some key
  state : EscrowStateV1.decode (w.ledger key).data = .ok s

/-- **The runs of an escrow** from its initialization until its close. -/
def RunOf (key : Pubkey) (s : EscrowStateV1) : Watched → Prop :=
  Reach (Begins C key s) (fun w action => action.Permitted C w.ledger ∧ ¬ action.Executes C w.ledger key .Close)
    (Watched.next C)

namespace Transition

variable (point : Nat → Digest32) (key : Pubkey) (s : EscrowStateV1)

def leavesVault (t : Transition) : Bool := vaultBalance C t.after s < vaultBalance C t.before s

def isFund (t : Transition) : Bool :=
  match t.action with
  | .exec clock accounts data => EscrowInstructionV1.decode data = .ok .Fund ∧
      EscrowInstructionV1.Fund.target accounts = some key ∧
      (process C programId t.before clock accounts data).toOption.isSome = true
  | .foreign _ => false

/-- Exactly the amount went to the recipient, for the secret of the claim point. -/
def Claims (t : Transition) : Prop :=
  ∃ secret, t.action.Executes C t.before key (.Claim secret) ∧ secret.toNat < 2 ^ 252 ∧
    point secret.toNat = s.claimPointEd25519 ∧ vaultBalance C t.before s = vaultBalance C t.after s + s.amount.toNat ∧
    Received C s s.recipient t.before t.after

def clock (t : Transition) : Option Clock :=
  match t.action with
  | .exec clock _ _ => some clock
  | .foreign _ => none

/-- Exactly the amount went back to the refund recipient, at or after the deadline. -/
def Refunds (t : Transition) : Prop :=
  t.action.Executes C t.before key .Refund ∧ (∃ clock, t.clock = some clock ∧ s.refundAfterUnix ≤ clock.unixTimestamp) ∧
    vaultBalance C t.before s = vaultBalance C t.after s + s.amount.toNat ∧
    Received C s s.refundRecipient t.before t.after

/-- Exactly the amount came from the stored funder into the vault. -/
def Funds (t : Transition) : Prop :=
  vaultBalance C t.after s = vaultBalance C t.before s + s.amount.toNat ∧ Gave C s s.funder t.before t.after

end Transition

variable {C} {ledger ledger' : Ledger} {key : Pubkey} {s cur : EscrowStateV1} {point : Nat → Digest32}

/-! ## Steps -/

variable (C : Cluster) (point : Nat → Digest32) (clock : Clock) (key : Pubkey) (s s' : EscrowStateV1) (before moved : Ledger) in
/-- What an instruction on the escrow itself does before it writes the state. -/
inductive OwnStep : EscrowInstructionV1 → Prop where
  | fund (hfrom : s.status = .Initialized) (hto : s'.status = .Funded) (hfree : ¬ IsDerived C s.funder)
      (hdeposit : Deposited C before moved key s) : OwnStep .Fund
  | claim (secret : Digest32) (hfrom : s.status = .Funded) (hto : s'.status = .Claimed) (hdomain : secret.toNat < 2 ^ 252)
      (hpoint : point secret.toNat = s.claimPointEd25519) (hpaid : PaidOut C before moved key s s.recipient) :
      OwnStep (.Claim secret)
  | refund (hfrom : s.status = .Funded) (hto : s'.status = .Refunded) (htime : s.refundAfterUnix ≤ clock.unixTimestamp)
      (hpaid : PaidOut C before moved key s s.refundRecipient) : OwnStep .Refund

theorem Holds.not_fresh (h : Holds C ledger key s) {s' : EscrowStateV1} : ¬ Fresh C ledger key s' := by
  intro hfr
  have hlam := h.lamports
  rw [hfr.unused] at hlam
  exact (UInt64.lt_irrefl _) hlam

variable {clock : Clock} {accounts : List AccountInfo} {instruction : EscrowInstructionV1}

variable {action : Action} (hC : Lawful C point) (hu : Unshared C key)

include hC hu in
/-- **Step lemma**: an instruction on the escrow itself that does not close it. -/
theorem Holds.own_run (h : Holds C ledger key s) (hsgd : Signed C accounts) (htgt : instruction.target accounts = some key)
    (hcls : instruction ≠ .Close) (hrun : instruction.run C ledger clock accounts = .ok ledger') :
    ∃ s' moved, Holds C ledger' key s' ∧ SameTerms s s' ∧ Saved moved ledger' key s' ∧
      OwnStep C point clock key s s' ledger moved instruction := by
  cases instruction with
  | InitializeNative params | InitializeSpl params =>
    obtain ⟨funder, stateAccount, rest, s', rfl, hfr, -⟩ := initialize_eq_ok params (by simp) hrun
    have hkey : stateAccount.key = key := Option.some.inj htgt
    rw [hkey] at hfr
    exact absurd hfr h.not_fresh
  | Fund =>
    obtain ⟨funder, stateAccount, rest, s', moved, rfl, hsgr, hload, hfnr, hstat, hdep, hsave⟩ :=
      fund_eq_ok hrun
    have hkey : stateAccount.key = key := Option.some.inj htgt
    rw [hkey] at hload hdep hsave
    obtain rfl := h.loaded hload
    have hfree : ¬ IsDerived C s'.funder := hfnr ▸ hsgd funder List.mem_cons_self hsgr
    have htms := SameTerms.update s' .Funded s'.amount s'.terminalSlot s'.revealedSecretBe
    have hhd := (h.quiet (h.quiet_deposited hC hfree hdep)).saved hu htms hsave
    exact ⟨_, moved, hhd, htms, hsave, .fund hstat rfl hfree hdep⟩
  | Claim secret =>
    obtain ⟨stateAccount, rest, s', moved, rfl, hload, hstat, hsec, hpaid, hsave⟩ := claim_eq_ok hrun
    have hkey : stateAccount.key = key := Option.some.inj htgt
    rw [hkey] at hload hpaid hsave
    obtain rfl := h.loaded hload
    obtain ⟨-, -, hdom, hpt⟩ := (verifySharedSecret_eq_ok hC).mp hsec
    have htms := SameTerms.update s' .Claimed 0 clock.slot secret
    exact ⟨_, moved, (h.paid hC hu hpaid).saved hu htms hsave, htms, hsave,
      .claim secret hstat rfl hdom hpt hpaid⟩
  | Refund =>
    obtain ⟨stateAccount, rest, s', moved, rfl, hload, hstat, htime, hpaid, hsave⟩ := refund_eq_ok hrun
    have hkey : stateAccount.key = key := Option.some.inj htgt
    rw [hkey] at hload hpaid hsave
    obtain rfl := h.loaded hload
    have htms := SameTerms.update s' .Refunded 0 clock.slot 0
    exact ⟨_, moved, (h.paid hC hu hpaid).saved hu htms hsave, htms, hsave, .refund hstat rfl htime hpaid⟩
  | Close => exact absurd rfl hcls

variable {data : List UInt8}

theorem process_eq_ok : process C programId ledger clock accounts data = .ok ledger' ↔
      ∃ instruction, EscrowInstructionV1.decode data = .ok instruction ∧
        instruction.run C ledger clock accounts = .ok ledger' := by
  simp [process]

theorem next_of_ok (h : process C programId ledger clock accounts data = .ok ledger') :
    (Action.exec clock accounts data).next C ledger = ledger' := by
  rw [Action.next, h]
  rfl

theorem next_of_error {e : ProgramError} (h : process C programId ledger clock accounts data = .error e) :
    (Action.exec clock accounts data).next C ledger = ledger := by
  rw [Action.next, h]
  rfl

include hC hu in
/-- **What an action can do** to an escrow that is not closed by it: nothing that matters, or one of its own steps. -/
theorem Holds.step_cases (h : Holds C ledger key s) (hperm : action.Permitted C ledger)
    (hcls : ¬ action.Executes C ledger key .Close) :
    (Quiet C key s ledger (action.next C ledger) ∧
      Transition.isFund C key ⟨ledger, action, action.next C ledger⟩ = false) ∨
    ∃ clock accounts data instruction s' moved, action = .exec clock accounts data ∧
      action.Executes C ledger key instruction ∧ Holds C (action.next C ledger) key s' ∧ SameTerms s s' ∧
      Saved moved (action.next C ledger) key s' ∧ OwnStep C point clock key s s' ledger moved instruction := by
  cases action with
  | foreign after => exact .inl ⟨h.quiet_foreign hperm, rfl⟩
  | exec clock accounts data =>
    cases hproc : process C programId ledger clock accounts data with
    | error e =>
      rw [next_of_error hproc]
      refine .inl ⟨.refl, decide_eq_false ?_⟩
      rintro ⟨-, -, hsome⟩
      rw [hproc] at hsome
      cases hsome
    | ok ledger' =>
      rw [next_of_ok hproc]
      obtain ⟨instruction, hdec, hrun⟩ := process_eq_ok.mp hproc
      by_cases htgt : instruction.target accounts = some key
      · have hexec : (Action.exec clock accounts data).Executes C ledger key instruction :=
          ⟨hdec, htgt, ledger', hproc⟩
        have hopen : instruction ≠ .Close := by
          rintro rfl
          exact hcls hexec
        obtain ⟨s', moved, hhd, htms, hsave, hstep⟩ := h.own_run hC hu hperm htgt hopen hrun
        exact .inr ⟨clock, accounts, data, instruction, s', moved, rfl, hexec, hhd, htms, hsave, hstep⟩
      · refine .inl ⟨h.quiet_run hC hu hperm htgt hrun, decide_eq_false ?_⟩
        rintro ⟨hfund, hkey, -⟩
        obtain rfl := Except.ok.inj (hfund.symm.trans hdec)
        exact htgt hkey

/-! ## The books of an escrow -/

/-- **What holds along a run**: the accounts stand, and the history has the payouts and fundings the status says. -/
structure Books (C : Cluster) (point : Nat → Digest32) (key : Pubkey) (s : EscrowStateV1) (w : Watched)
    (cur : EscrowStateV1) : Prop where
  holds : Holds C w.ledger key cur
  terms : SameTerms s cur
  status : cur.status ≠ .Closed
  paid : w.history.countP (Transition.leavesVault C s) =
    if cur.status = .Claimed ∨ cur.status = .Refunded then 1 else 0
  funded : w.history.countP (Transition.isFund C key) = if cur.status = .Initialized then 0 else 1
  payouts : ∀ t ∈ w.history, t.leavesVault C s → t.Claims C point key s ∨ t.Refunds C key s
  funds : ∀ t ∈ w.history, t.isFund C key → t.Funds C s

variable {w : Watched}

variable {owner : Pubkey}

theorem Outside.congr (h : Outside C key s owner) (htms : SameTerms s cur) : Outside C key cur owner :=
  ⟨h.state, htms.vault ▸ h.vault, h.authority⟩

theorem Received.congr {before after : Ledger} (htms : SameTerms s cur) (h : Received C cur owner before after) :
    Received C s owner before after := by
  cases h with
  | native hkind hbal => exact .native (htms.assetKind ▸ hkind) (htms.amount ▸ hbal)
  | spl account token token' hkind hbef haft hown hmint hbal =>
    exact .spl account token token' (htms.assetKind ▸ hkind) hbef haft hown (htms.mint ▸ hmint)
      (htms.amount ▸ hbal)

theorem Gave.congr {before after : Ledger} (htms : SameTerms s cur) (h : Gave C cur owner before after) :
    Gave C s owner before after := by
  cases h with
  | native hkind hbal => exact .native (htms.assetKind ▸ hkind) (htms.amount ▸ hbal)
  | spl account token token' hkind hbef haft hown hmint hbal =>
    exact .spl account token token' (htms.assetKind ▸ hkind) hbef haft hown (htms.mint ▸ hmint)
      (htms.amount ▸ hbal)

theorem SameTerms.trans {s₁ s₂ s₃ : EscrowStateV1} (h : SameTerms s₁ s₂) (h' : SameTerms s₂ s₃) : SameTerms s₁ s₃ := by
  cases h
  cases h'
  constructor <;> simp only [*]

theorem Holds.amount_pos (h : Holds C ledger key s) : 0 < s.amount.toNat := by
  have hval := h.valid
  simp only [EscrowStateV1.validate, inversion, not_or] at hval
  have hne : s.amount ≠ 0 := hval.1.2.2.2.2.2.2.2.2.1
  exact Nat.pos_of_ne_zero fun hzero => hne (UInt64.toNat_inj.mp hzero)

variable {t : Transition}

theorem Books.quiet (h : Books C point key s w cur) (hbef : t.before = w.ledger)
    (hqt : Quiet C key cur w.ledger t.after) (hfund : t.isFund C key = false) :
    Books C point key s ⟨t.after, t :: w.history⟩ cur := by
  have hstays : t.leavesVault C s = false := by
    have hbal := Quiet.balance h.holds hqt
    rw [vaultBalance_congr h.terms, vaultBalance_congr h.terms] at hbal
    rw [Transition.leavesVault, hbef]
    exact decide_eq_false (Nat.not_lt.mpr hbal)
  refine ⟨h.holds.quiet hqt, h.terms, h.status, ?_, ?_, ?_, ?_⟩
  · rw [List.countP_cons_of_neg (by rw [hstays]; decide)]
    exact h.paid
  · rw [List.countP_cons_of_neg (by rw [hfund]; decide)]
    exact h.funded
  · refine List.forall_mem_cons.mpr ⟨?_, h.payouts⟩
    intro hlvs
    rw [hstays] at hlvs
    cases hlvs
  · refine List.forall_mem_cons.mpr ⟨?_, h.funds⟩
    intro hfd
    rw [hfund] at hfd
    cases hfd

theorem isFund_eq_false (hexec : t.action.Executes C t.before key instruction) (hne : instruction ≠ .Fund) :
    t.isFund C key = false := by
  cases hact : t.action with
  | exec clock accounts data =>
    rw [hact] at hexec
    rw [Transition.isFund, hact]
    exact decide_eq_false fun hfund => hne (Except.ok.inj (hexec.1.symm.trans hfund.1))
  | foreign after => rw [Transition.isFund, hact]

theorem isFund_eq_true (hexec : t.action.Executes C t.before key .Fund) : t.isFund C key = true := by
  cases hact : t.action with
  | exec clock accounts data =>
    rw [hact] at hexec
    obtain ⟨hdec, htgt, ledger', hrun⟩ := hexec
    rw [Transition.isFund, hact]
    exact decide_eq_true ⟨hdec, htgt, by rw [hrun]; rfl⟩
  | foreign after =>
    rw [hact] at hexec
    exact hexec.elim

theorem Books.payout (h : Books C point key s w cur) (hbef : t.before = w.ledger)
    (hexec : t.action.Executes C t.before key instruction) (hne : instruction ≠ .Fund)
    (hhd : Holds C t.after key cur') (htms : SameTerms s cur') (hfrom : cur.status = .Funded)
    (hto : cur'.status = .Claimed ∨ cur'.status = .Refunded)
    (hbal : vaultBalance C w.ledger cur = vaultBalance C t.after cur + cur.amount.toNat)
    (hpays : t.Claims C point key s ∨ t.Refunds C key s) : Books C point key s ⟨t.after, t :: w.history⟩ cur' := by
  have hlvs : t.leavesVault C s = true := by
    rw [vaultBalance_congr h.terms, vaultBalance_congr h.terms] at hbal
    have hpos := h.holds.amount_pos
    rw [Transition.leavesVault, hbef]
    exact decide_eq_true (by omega)
  have hfund := isFund_eq_false hexec hne
  refine ⟨hhd, htms, ?_, ?_, ?_, List.forall_mem_cons.mpr ⟨fun _ => hpays, h.payouts⟩,
    List.forall_mem_cons.mpr ⟨?_, h.funds⟩⟩
  · rcases hto with hto | hto <;> rw [hto] <;> decide
  · have hpaid := h.paid
    rw [hfrom, if_neg (by decide)] at hpaid
    rw [List.countP_cons_of_pos hlvs, hpaid, if_pos hto]
  · have hfd := h.funded
    rw [hfrom, if_neg (by decide)] at hfd
    rw [List.countP_cons_of_neg (by rw [hfund]; decide), hfd, if_neg]
    rcases hto with hto | hto <;> rw [hto] <;> decide
  · intro hfd
    rw [hfund] at hfd
    cases hfd

variable (h : Books C point key s w cur)

include hC hu h in
theorem Books.own (hrcp : Outside C key s s.recipient) (hrf : Outside C key s s.refundRecipient) {moved : Ledger}
    (hexec : (Action.exec clock accounts data).Executes C w.ledger key instruction) (hhd : Holds C ledger' key cur')
    (htms : SameTerms cur cur') (hsave : Saved moved ledger' key cur')
    (hstep : OwnStep C point clock key cur cur' w.ledger moved instruction) :
    Books C point key s ⟨ledger', ⟨w.ledger, .exec clock accounts data, ledger'⟩ :: w.history⟩ cur' := by
  have hsame := h.terms.trans htms
  cases hstep with
  | fund hfrom hto hfree hdep =>
    obtain ⟨hbal, hgave⟩ := h.holds.deposit hC hfree hdep hsave
    rw [vaultBalance_congr h.terms, vaultBalance_congr h.terms, h.terms.amount] at hbal
    have hstays : Transition.leavesVault C s ⟨w.ledger, .exec clock accounts data, ledger'⟩ = false :=
      decide_eq_false (by show ¬ vaultBalance C ledger' s < vaultBalance C w.ledger s; omega)
    have hfund : Transition.isFund C key ⟨w.ledger, .exec clock accounts data, ledger'⟩ = true := isFund_eq_true hexec
    refine ⟨hhd, hsame, by rw [hto]; decide, ?_, ?_, List.forall_mem_cons.mpr ⟨?_, h.payouts⟩,
      List.forall_mem_cons.mpr ⟨fun _ => ⟨hbal, ?_⟩, h.funds⟩⟩
    · have hpaid := h.paid
      rw [hfrom, if_neg (by decide)] at hpaid
      rw [List.countP_cons_of_neg (by rw [hstays]; decide), hpaid, hto, if_neg (by decide)]
    · have hfd := h.funded
      rw [hfrom, if_pos rfl] at hfd
      rw [List.countP_cons_of_pos hfund, hfd, hto, if_neg (by decide)]
    · intro hlvs
      rw [hstays] at hlvs
      cases hlvs
    · exact h.terms.funder ▸ hgave.congr h.terms
  | claim secret hfrom hto hdom hpt hpaid =>
    obtain ⟨hbal, hrecv⟩ :=
      h.holds.payout hC hu (h.terms.recipient ▸ hrcp.congr h.terms) hpaid hsave
    refine h.payout (t := ⟨w.ledger, .exec clock accounts data, ledger'⟩) rfl hexec nofun hhd hsame hfrom (.inl hto)
      hbal (.inl ⟨secret, hexec, hdom, ?_, ?_, ?_⟩)
    · exact hpt.trans h.terms.claimPointEd25519
    · rwa [vaultBalance_congr h.terms, vaultBalance_congr h.terms, h.terms.amount] at hbal
    · exact h.terms.recipient ▸ hrecv.congr h.terms
  | refund hfrom hto htime hpaid =>
    obtain ⟨hbal, hrecv⟩ :=
      h.holds.payout hC hu (h.terms.refundRecipient ▸ hrf.congr h.terms) hpaid hsave
    refine h.payout (t := ⟨w.ledger, .exec clock accounts data, ledger'⟩) rfl hexec nofun hhd hsame hfrom (.inr hto)
      hbal (.inr ⟨hexec, ⟨clock, rfl, ?_⟩, ?_, ?_⟩)
    · exact h.terms.refundAfterUnix ▸ htime
    · rwa [vaultBalance_congr h.terms, vaultBalance_congr h.terms, h.terms.amount] at hbal
    · exact h.terms.refundRecipient ▸ hrecv.congr h.terms

include hC hu h in
/-- **Step lemma** for any action. -/
theorem Books.step (hrcp : Outside C key s s.recipient) (hrf : Outside C key s s.refundRecipient)
    (hperm : action.Permitted C w.ledger) (hcls : ¬ action.Executes C w.ledger key .Close) :
    ∃ cur', Books C point key s (w.next C action) cur' := by
  rcases h.holds.step_cases hC hu hperm hcls with ⟨hqt, hfund⟩ |
    ⟨clock, accounts, data, instruction, cur', moved, rfl, hexec, hhd, htms, hsave, hstep⟩
  · exact ⟨cur, h.quiet (t := ⟨w.ledger, action, action.next C w.ledger⟩) rfl hqt hfund⟩
  · exact ⟨cur', h.own hC hu hrcp hrf hexec hhd htms hsave hstep⟩

include hC hu in
theorem Begins.books (h : Begins C key s w) :
    s.status = .Initialized ∧ Books C point key s w s := by
  obtain ⟨before, clock, accounts, data, params, hproc, hdec, htgt⟩ := h.initialized
  obtain ⟨instruction, hdec', hrun⟩ := process_eq_ok.mp hproc
  have hopd : ∃ s', Fresh C before key s' ∧ Opened C before w.ledger key s' := by
    rw [hdec', Except.ok.injEq, Except.ok.injEq] at hdec
    obtain ⟨funder, stateAccount, rest, s', rfl, hfr, hopd⟩ := initialize_eq_ok _ hdec hrun
    have hkey : stateAccount.key = key := Option.some.inj htgt
    exact ⟨s', hkey ▸ hfr, hkey ▸ hopd⟩
  obtain ⟨s', hfr, hopd⟩ := hopd
  have hhd := holds_of_opened hC hu hfr hopd
  have hstate := h.state
  rw [hhd.data, EscrowStateV1.decode_encode hhd.valid] at hstate
  obtain rfl := Except.ok.inj hstate
  refine ⟨hfr.status, ⟨hhd, .update s' .., ?_, ?_, ?_, ?_, ?_⟩⟩ <;> simp [h.history, hfr.status]

include hC hu in
/-- **Run lemma.** -/
theorem books_of_run (hrcp : Outside C key s s.recipient) (hrf : Outside C key s s.refundRecipient) (h : RunOf C key s w) :
    ∃ cur, Books C point key s w cur := by
  refine Reach.invariant (P := fun w => ∃ cur, Books C point key s w cur) ?_ ?_ h
  · exact fun w hw => ⟨s, (hw.books hC hu).2⟩
  · rintro w action ⟨cur, hbks⟩ ⟨hperm, hcls⟩
    exact hbks.step hC hu hrcp hrf hperm hcls

/-- **The payouts of an escrow.**  From its initialization until its close: something leaves the vault at most once; then
it is exactly the amount, to the recipient for the right secret or to the refund recipient from the deadline on, and never
both; and the escrow is funded exactly once before, with exactly the amount of the stored funder. -/
theorem escrow_payout (hC : Lawful C point) (hu : Unshared C key) (hrecipient : Outside C key s s.recipient)
    (hrefund : Outside C key s s.refundRecipient) (h : RunOf C key s w) :
    w.history.countP (Transition.leavesVault C s) ≤ 1 ∧
    (∀ t ∈ w.history, t.leavesVault C s → t.Claims C point key s ∨ t.Refunds C key s) ∧
    ¬ ((∃ t ∈ w.history, t.Claims C point key s) ∧ ∃ t ∈ w.history, t.Refunds C key s) ∧
    (∀ t ∈ w.history, t.isFund C key → t.Funds C s) ∧
    ∃ cur, EscrowStateV1.decode (w.ledger key).data = .ok cur ∧ SameTerms s cur ∧
      w.history.countP (Transition.isFund C key) = if cur.status = .Initialized then 0 else 1 := by
  obtain ⟨cur, hbooks⟩ := books_of_run hC hu hrecipient hrefund h
  have hcount : w.history.countP (Transition.leavesVault C s) ≤ 1 := by
    rw [hbooks.paid]
    split <;> omega
  have hpositive : 0 < s.amount.toNat := hbooks.terms.amount ▸ hbooks.holds.amount_pos
  refine ⟨hcount, hbooks.payouts, ?_, hbooks.funds, cur, ?_, hbooks.terms, hbooks.funded⟩
  · rintro ⟨⟨t, ht, secret, hclaim, -, -, hbalance, -⟩, t', ht', hrefund, -, hbalance', -⟩
    -- both would be the one entry that leaves the vault
    have hleaves : t ∈ w.history.filter (Transition.leavesVault C s) :=
      List.mem_filter.mpr ⟨ht, decide_eq_true (by omega)⟩
    have hleaves' : t' ∈ w.history.filter (Transition.leavesVault C s) :=
      List.mem_filter.mpr ⟨ht', decide_eq_true (by omega)⟩
    rw [List.countP_eq_length_filter] at hcount
    obtain rfl : t = t' := by
      match hlist : w.history.filter (Transition.leavesVault C s), hleaves, hleaves', hcount with
      | [only], hleaves, hleaves', _ =>
        exact (List.mem_singleton.mp hleaves).trans (List.mem_singleton.mp hleaves').symm
    cases hact : t.action with
    | exec clock accounts data =>
      rw [hact] at hclaim hrefund
      exact nomatch Except.ok.inj (hclaim.1.symm.trans hrefund.1)
    | foreign after =>
      rw [hact] at hclaim
      exact hclaim
  · rw [hbooks.holds.data]
    exact EscrowStateV1.decode_encode hbooks.holds.valid

end Runs

/-! ## A small escrow -/

namespace SmallEscrow

/-- The funder has lamports, everybody else has nothing. -/
def parties : Ledger := fun key => if key = 100 then ⟨1000, [], systemProgram, false⟩ else ⟨0, [], systemProgram, false⟩

def stateKey : Pubkey := (stateAddress smallCluster 7).1
def vaultKey : Pubkey := (nativeVaultAddress smallCluster stateKey).1

def params : InitializeParamsV1 :=
  ⟨7, 1, 1, 200, 100, 0x020000000000000000000000000000000000000000000000000000000000000001, SmallCluster.point 9, 50, 1000⟩

def terms : EscrowStateV1 := initialNative smallCluster 100 stateKey vaultKey params

def funderInfo : AccountInfo := ⟨100, true, true⟩
def recipientInfo : AccountInfo := ⟨200, false, true⟩
def stateInfo : AccountInfo := ⟨stateKey, false, true⟩
def vaultInfo : AccountInfo := ⟨vaultKey, false, true⟩
def systemInfo : AccountInfo := ⟨systemProgram, false, false⟩

def clockAt (time : Int64) : Clock := ⟨1, time⟩

def call (time : Int64) (accounts : List AccountInfo) (instruction : EscrowInstructionV1) : Action :=
  .exec (clockAt time) accounts instruction.encode

def opening : Action :=
  call 1 [funderInfo, stateInfo, vaultInfo, systemInfo] (.InitializeNative params)

def funding : Action := call 2 [funderInfo, stateInfo, vaultInfo, systemInfo] .Fund
def claiming : Action := call 3 [stateInfo, vaultInfo, recipientInfo] (.Claim 9)
def refunding : Action := call 1000 [stateInfo, vaultInfo, funderInfo] .Refund
def closing : Action := call 4 [stateInfo, vaultInfo, funderInfo] .Close

def opened : Watched := ⟨opening.next smallCluster parties, []⟩

def play (actions : List Action) : Watched := actions.foldl (Watched.next smallCluster) opened

/-- An instruction of this run: signed with keys, and no close. -/
def ordinary : Action → Bool
  | .exec _ accounts data => (accounts.all fun account => !account.isSigner || account.key.toNat < 2 ^ 252) ∧
      EscrowInstructionV1.decode data ≠ .ok .Close
  | .foreign _ => false

theorem signed_of_all {accounts : List AccountInfo}
    (h : (accounts.all fun account => !account.isSigner || account.key.toNat < 2 ^ 252) = true) :
    Signed smallCluster accounts := by
  intro account hmem hsgr
  have hsmall := List.all_eq_true.mp h account hmem
  rw [hsgr] at hsmall
  exact SmallCluster.not_isDerived (by simpa using hsmall)

theorem begins : Begins smallCluster stateKey terms opened := by
  have hok : (process smallCluster programId parties (clockAt 1) [funderInfo, stateInfo, vaultInfo, systemInfo]
      (EscrowInstructionV1.InitializeNative params).encode).isOk = true := by decide +kernel
  obtain ⟨ledger, hled⟩ := exists_ok hok
  have hopd : opened.ledger = ledger := next_of_ok hled
  refine ⟨rfl, ⟨parties, clockAt 1, _, _, params, hopd ▸ hled, .inl ?_, rfl⟩, ?_⟩
  · decide +kernel
  · decide +kernel

theorem runOf_play {actions : List Action} (h : actions.all ordinary = true) :
    RunOf smallCluster stateKey terms (play actions) := by
  refine Reach.foldl (fun action hmem w => ?_) (.start begins)
  have hord := List.all_eq_true.mp h action hmem
  cases action with
  | exec clock accounts data =>
    obtain ⟨hsgd, hcls⟩ := of_decide_eq_true hord
    exact ⟨signed_of_all hsgd, fun hexec => hcls hexec.1⟩
  | foreign after => cases hord

theorem unshared : Unshared smallCluster stateKey := SmallCluster.unshared (by decide)

end SmallEscrow

open SmallEscrow in
/-- Of a claim, a second claim and a refund only the first pays. -/
theorem small_payout :
    (play [funding, claiming, claiming, refunding]).history.countP (Transition.leavesVault smallCluster terms) = 1 ∧
      ∀ t ∈ (play [funding, claiming, claiming, refunding]).history, t.leavesVault smallCluster terms →
        t.Claims smallCluster SmallCluster.point stateKey terms ∨ t.Refunds smallCluster stateKey terms := by
  have hrecipient : Outside smallCluster stateKey terms terms.recipient := ⟨by decide +kernel, by decide +kernel, by decide +kernel⟩
  have hrefund : Outside smallCluster stateKey terms terms.refundRecipient :=
    ⟨by decide +kernel, by decide +kernel, by decide +kernel⟩
  have hrun : RunOf smallCluster stateKey terms (play [funding, claiming, claiming, refunding]) := runOf_play (by decide +kernel)
  exact ⟨by decide +kernel, (escrow_payout SmallCluster.lawful unshared hrecipient hrefund hrun).2.1⟩

end DomProtocol.Escrow
