import Mathlib.Algebra.BigOperators.Ring.Finset
import Mathlib.Algebra.Order.Ring.Int
import Mathlib.Tactic.Module
import DomProtocol.Crypto.Balance
import DomProtocol.Wallet.Spending

/-!
# `Wallet.Protection` — what a recipient can make the sender sign

The wallet checks a hash of the answered slate without the recipient's fields, and leaves values to the balance equation.  Where
commitments bind, signatures prove that an excess is a multiple of `G` and hashes do not collide, this is enough: whatever the
recipient answers, the transaction spends what the send reserved, pays its change, and pays the agreed amount to one further
output.
-/

namespace DomProtocol.Wallet

open Lib

variable {c : Commitment} {tx : Transaction} {kernel : TransactionKernel} {f : PendingSlate → PendingSlate}
  {idx : Nat} {r : Lib.Recorded WalletV2State Action}

variable {X : Externals} {s s' : WalletV2State} {a : Action}

/-! ## Assumptions -/

/-- The assumptions on the linked libraries. -/
structure Sound (X : Externals) : Prop where
  /-- The backend commits to what it is given. -/
  commits : ∀ value blinding c, X.backendCommit value blinding = .ok c → Opens X c value blinding.toNat
  /-- A commitment binds its value. -/
  binding : ∀ a b : ℤ, a • X.hPoint + b • X.generator = 0 → (secp256k1N : ℤ) ∣ a
  /-- A valid signature proves that its key is a multiple of `G`. -/
  signatures : ∀ sig key chainId message, publicKeyFromCompressedBytes X key = .ok key →
    schnorrVerify X sig key chainId message = .ok true → ∃ x : ℤ, Opens X key 0 x

theorem Sound.value_unique (h : Sound X) {v w : Nat} {b b' : ℤ} (hv : v < u64Bound) (hw : w < u64Bound)
    (hopen : Opens X c v b) (hopen' : Opens X c w b') : v = w := by
  have hpt := Except.ok.inj (hopen.symm.trans hopen')
  have hzero : ((v : ℤ) - w) • X.hPoint + (b - b') • X.generator = 0 := by
    rw [sub_smul, sub_smul]
    have hrearranged : (v : ℤ) • X.hPoint - (w : ℤ) • X.hPoint + (b • X.generator - b' • X.generator) =
        ((v : ℤ) • X.hPoint + b • X.generator) - ((w : ℤ) • X.hPoint + b' • X.generator) := by abel
    rw [hrearranged, hpt, sub_self]
  -- both values are far below the group order
  have hbd : (u64Bound : ℤ) < secp256k1N := by decide
  have hdifference : (v : ℤ) - w = 0 := by
    refine Int.eq_zero_of_abs_lt_dvd (h.binding _ _ hzero) (abs_lt.mpr ⟨?_, ?_⟩) <;> omega
  omega

/-! ## Stored outputs open -/

def Owned (X : Externals) (s : WalletV2State) : Prop :=
  ∀ out ∈ s.outputs.outputs, Opens X out.commitment out.value out.blinding.toNat

theorem Owned.next (hsnd : Sound X) (h : Owned X s) : Owned X (next X s a) := by
  intro out' hout'
  have hget : (Wallet.next X s a).outputs.get out'.commitment = some out' := OutputStore.get_eq_some.mpr ⟨hout', rfl⟩
  rcases (next_effect (X := X) s a).arises hget with ⟨out, hout, hrms⟩ | hopd
  · obtain ⟨hmem, hcomm⟩ := OutputStore.get_eq_some.mp hout
    have hops := h out hmem
    rw [hcomm] at hops
    rw [hrms.value, hrms.blinding]
    exact hops
  · exact hsnd.commits _ _ _ hopd

/-! ## The recipient's output -/

variable {p : PendingSlate}

theorem change_opens (hsnd : Sound X) {amount fee : UInt64} {now : Nat} {draws : SendDraws}
    (h : Sent X s amount fee now draws p s') : ∃ value blinding : ℤ,
      sumProjective X p.producedOutput.toList = .ok (value • X.hPoint + blinding • X.generator) ∧
      (h.taken.map fun out => (out.value : ℤ)).sum = amount.toNat + fee.toNat + value := by
  have hcov := h.covers
  have hcast : (h.taken.map fun out => (out.value : ℤ)).sum = ((h.taken.map (·.value)).sum : ℕ) := by
    rw [Nat.cast_list_sum, List.map_map]
    rfl
  rw [h.producedOutput]
  cases hchg : h.sender.change with
  | none =>
    have hexa := h.built.exact hchg
    refine ⟨0, 0, ?_, by omega⟩
    rw [zero_smul, zero_smul, add_zero]
    rfl
  | some m =>
    obtain ⟨hvalue, -, hcmt⟩ := h.built.change m hchg
    have hops := hsnd.commits _ _ _ hcmt
    refine ⟨m.value, m.blinding.toNat, ?_, by omega⟩
    have hsum := sumProjective_opens [m] (fun m => m.commitment) (fun m => (m.value : ℤ))
      (fun m => (m.blinding.toNat : ℤ)) (List.forall_mem_singleton.mpr hops)
    simpa using hsum

theorem totalFee_single {fee : Nat} (hkers : tx.kernels = [kernel])
    (h : tx.totalFee = .ok fee) : fee = kernel.fee.noms := by
  unfold Transaction.totalFee at h
  rw [hkers] at h
  simp only [List.foldlM_cons, List.foldlM_nil, inversion, checkedAdd64_eq_some] at h
  obtain ⟨_, ⟨-, rfl⟩, rfl⟩ := h
  omega

/-- **The recipient's output is worth the agreed amount.** -/
theorem recipient_opens (hsnd : Sound X) {amount fee : UInt64} {now : Nat} {draws : SendDraws} (howned : Owned X s)
    (h : Sent X s amount fee now draws p s') {answered : Slate} {chainId : Hash256} {recipient : Commitment}
    (hfin : FinalizedAs X answered chainId tx recipient kernel) (hins : tx.inputs = p.reservedInputs)
    (houts : tx.outputs.map (·.commitment) = p.producedOutput.toList ++ [recipient]) (hfee : kernel.fee.noms = fee.toNat) :
    ∃ blinding : ℤ, Opens X recipient amount.toNat blinding := by
  obtain ⟨total, outputs, inputs, excesses, htot, hout, hin, hex, hbal⟩ :=
    validateBalanceEquation_eq_ok hfin.balanced
  rw [houts] at hout
  obtain ⟨rest, point, hrest, hpt, rfl⟩ := sumProjective_concat hout
  obtain ⟨value, blinding, hchg, hvalues⟩ := change_opens hsnd h
  obtain rfl := Except.ok.inj (hchg.symm.trans hrest)
  -- the inputs open, and the excess is a multiple of the generator
  have hopd := sumProjective_opens (X := X) h.taken (fun out => out.commitment) (fun out => (out.value : ℤ))
    (fun out => (out.blinding.toNat : ℤ)) fun out hmem => howned out (h.spendable out hmem).1
  rw [hins, h.reservedInputs] at hin
  obtain rfl := Except.ok.inj (hopd.symm.trans hin)
  obtain ⟨sig, message, hvrf⟩ := hfin.signed
  obtain ⟨x, hexc⟩ := hsnd.signatures sig kernel.excess chainId message hfin.parsed hvrf
  have hexcs := sumProjective_opens [kernel] (fun k => k.excess) (fun _ => 0) (fun _ => x)
    (List.forall_mem_singleton.mpr hexc)
  rw [hfin.kernels] at hex
  obtain rfl := Except.ok.inj (hexcs.symm.trans hex)
  have htot' : total = fee.toNat := (totalFee_single hfin.kernels htot).trans hfee
  rw [htot', hvalues] at hbal
  refine ⟨(h.taken.map fun out => (out.blinding.toNat : ℤ)).sum - blinding + x + tx.offset.toNat, ?_⟩
  -- solve the equation for the point of the recipient
  have hsolved : point = value • X.hPoint + blinding • X.generator + point -
      ((amount.toNat + fee.toNat + value : ℤ) • X.hPoint +
        (h.taken.map fun out => (out.blinding.toNat : ℤ)).sum • X.generator) + fee.toNat • X.hPoint +
      ((amount.toNat + fee.toNat + value : ℤ) • X.hPoint +
        (h.taken.map fun out => (out.blinding.toNat : ℤ)).sum • X.generator) - fee.toNat • X.hPoint -
      (value • X.hPoint + blinding • X.generator) := by abel
  rw [hbal] at hsolved
  unfold Opens
  rw [hpt, hsolved]
  congr 1
  simp only [List.map_cons, List.map_nil, List.sum_cons, List.sum_nil]
  module

/-! ## Where a pending slate comes from -/

theorem Continues.trans {q r : PendingSlate} (h : Continues p q) (h' : Continues q r) : Continues p r where
  slateHash := h'.slateHash.trans h.slateHash
  role := h'.role.trans h.role
  slateBytes := h'.slateBytes.trans h.slateBytes
  reservedInputs := h'.reservedInputs.trans h.reservedInputs
  producedOutput := h'.producedOutput.trans h.producedOutput
  secrets := by
    rcases h'.secrets with hsame | hnone
    · rcases h.secrets with hsame' | hnone'
      · exact .inl (hsame.trans hsame')
      · exact .inr (hsame.trans hnone')
    · exact .inr hnone
  finalizedTx := fun hsome => h'.finalizedTx (h.finalizedTx hsome)

/-- A pending slate that a recorded send left behind. -/
structure Born (X : Externals) (history : List (Step WalletV2State Action)) (p : PendingSlate) where
  t : Step WalletV2State Action
  amount : UInt64
  fee : UInt64
  now : Nat
  draws : SendDraws
  built : PendingSlate
  recorded : t ∈ history
  action : t.action = .createSend amount fee now draws
  owned : Owned X t.before
  sent : Sent X t.before amount fee now draws built t.after
  continues : Continues built p

/-- **Every sender slate was born by a send.** -/
theorem born_next (howned : Owned X s) {history : List (Step WalletV2State Action)}
    (h : ∀ p ∈ s.pendingSlates, p.role = .Sender → Nonempty (Born X history p)) :
    ∀ p ∈ (next X s a).pendingSlates, p.role = .Sender → Nonempty (Born X (⟨s, a, next X s a⟩ :: history) p) := by
  intro p hp hrole
  obtain ⟨i, hi⟩ := List.mem_iff_getElem?.mp hp
  cases hbef : s.pendingSlates[i]? with
  | some q =>
    obtain ⟨p', hp', hcont⟩ := (next_effect (X := X) s a).continues hbef
    rw [hi] at hp'
    cases hp'
    obtain ⟨b⟩ := h q (List.mem_of_getElem? hbef) (hcont.role ▸ hrole)
    exact ⟨{ b with recorded := List.mem_cons_of_mem _ b.recorded, continues := b.continues.trans hcont }⟩
  | none =>
    rcases (next_effect (X := X) s a).appended hi hbef with
      ⟨amount, fee, now, draws, hact, ⟨hsent⟩⟩ | ⟨_, _, _, -, ⟨hrecv⟩⟩
    · exact ⟨⟨_, amount, fee, now, draws, p, List.mem_cons_self, hact, howned, hsent, .refl p⟩⟩
    · rw [hrecv.pending] at hrole
      cases hrole

/-! ## Nonces -/

/-- The nonce a pending sender slate still holds. -/
def senderNonce (p : PendingSlate) : Option (BitVec 256) :=
  match p.secrets with
  | some (.Sender _ nonce) => some nonce
  | _ => none

def Action.drawnNonce : Action → Option (BitVec 256)
  | .createSend _ _ _ draws => some draws.nonce.val
  | _ => none

/-- The nonce with which a step signed the transaction it returned. -/
def usedNonce (X : Externals) (t : Step WalletV2State Action) : Option (BitVec 256) := do
  let _ ← returned X t
  let bytes ← t.action.lookedUp
  let (slate, _) ← t.before.position (fun p => p.slateHash = X.blake2b256 bytes ∧ p.role = .Sender)
  senderNonce slate

def heldNonces (s : WalletV2State) : List (BitVec 256) := s.pendingSlates.filterMap senderNonce

theorem heldNonces_modifySlate (hf : ∀ p, senderNonce (f p) = senderNonce p) :
    heldNonces (s.modifySlate idx f) = heldNonces s := by
  show (s.pendingSlates.modify idx f).filterMap senderNonce = _
  unfold heldNonces
  generalize s.pendingSlates = l
  induction l generalizing idx with
  | nil => cases idx <;> rfl
  | cons p l ih =>
    cases idx with
    | zero => simp [List.filterMap_cons, hf]
    | succ idx => simp [List.filterMap_cons, ih]

theorem heldNonces_wiped (hf : ∀ p, senderNonce (f p) = none) (hp : s.pendingSlates[idx]? = some p) :
    ((senderNonce p).toList ++ heldNonces (s.modifySlate idx f)).Perm (heldNonces s) := by
  show (_ ++ (s.pendingSlates.modify idx f).filterMap senderNonce).Perm _
  unfold heldNonces
  generalize s.pendingSlates = l at hp
  induction l generalizing idx with
  | nil => cases hp
  | cons q l ih =>
    cases idx with
    | zero =>
      obtain rfl : q = p := Option.some.inj hp
      simp only [List.modify_zero_cons, List.filterMap_cons, hf]
      cases senderNonce q <;> exact .refl _
    | succ idx =>
      have htail := ih hp
      simp only [List.modify_succ_cons, List.filterMap_cons]
      cases senderNonce q with
      | none => exact htail
      | some n => exact (List.perm_middle (a := n)).trans (htail.cons n)

theorem Effect.heldNonces (h : Effect X s a s') : (heldNonces s').Subperm (a.drawnNonce.toList ++ heldNonces s) := by
  have hkept : (Wallet.heldNonces s).Subperm (a.drawnNonce.toList ++ Wallet.heldNonces s) :=
    (List.sublist_append_right _ _).subperm
  cases h with
  | refused | bounced | reconciled => exact hkept
  | @sent amount fee now draws p _ hsent =>
    have hnon : senderNonce p = some draws.nonce.val := by
      rw [hsent.pending, ← hsent.built.nonce]
      rfl
    rw [hsent.state]
    show ((s.pendingSlates ++ [p]).filterMap senderNonce).Subperm (draws.nonce.val :: Wallet.heldNonces s)
    rw [List.filterMap_append, List.filterMap_cons, hnon]
    exact (List.perm_append_singleton _ _).subperm
  | @received slate now draws p _ hrecv =>
    have hnon : senderNonce p = none := by
      rw [hrecv.pending]
      rfl
    rw [hrecv.state]
    show ((s.pendingSlates ++ [p]).filterMap senderNonce).Subperm (Wallet.heldNonces s)
    rw [List.filterMap_append, List.filterMap_cons, hnon]
    exact (List.append_nil (Wallet.heldNonces s)).symm ▸ List.Subperm.refl _
  | @finalized _ _ _ slate _ _ _ _ _ hpos =>
    refine (List.sublist_append_right (senderNonce slate).toList _).subperm.trans (List.Perm.subperm ?_)
    exact heldNonces_wiped (fun _ => rfl) (position_eq_some hpos).1
  | submitted =>
    rw [heldNonces_modifySlate (f := ({ · with status := .Submitted })) fun _ => rfl]
    exact hkept
  | @cancelled _ now slate idx =>
    let freed : WalletV2State := { s with
      outputs := discard (releaseAll s.outputs now slate.reservedInputs) slate.producedOutput }
    have hsame : Wallet.heldNonces (freed.modifySlate idx ({ · with status := .Canceled })) = Wallet.heldNonces freed :=
      heldNonces_modifySlate fun _ => rfl
    rw [hsame]
    exact hkept

theorem Finalization.usedNonce (h : Finalization X s a tx) (hrtn : returned X ⟨s, a, next X s a⟩ = some tx) :
    usedNonce X ⟨s, a, next X s a⟩ = some h.nonce ∧ (h.nonce :: heldNonces (next X s a)).Perm (heldNonces s) := by
  have hnon : senderNonce h.slate = some h.nonce := by
    unfold senderNonce
    rw [h.secrets]
  have hlooked : a.lookedUp = some h.bytes := by
    have hsought : a.lookedUp = (senderPhaseSlate h.answered).serialize.toOption := congrArg Action.lookedUp h.action
    exact hsought.trans (toOption_eq_some.mpr h.encoded)
  refine ⟨?_, ?_⟩
  · unfold Wallet.usedNonce
    rw [hrtn]
    show (a.lookedUp >>= _) = _
    rw [hlooked]
    show (s.position _ >>= _) = _
    rw [h.position]
    exact hnon
  · have hwpd := heldNonces_wiped (f := ({ · with status := .Finalized, finalizedTx := some h.txBytes, secrets := none }))
      (fun _ => rfl) h.pending
    rw [hnon, ← h.state] at hwpd
    exact hwpd

theorem nonces_drawn {init : WalletV2State → Prop} (hinit : ∀ s, init s → Fresh s)
    (hrun : Lib.Recorded.Run init (fun _ _ => True) (next X) r) :
    (r.history.filterMap (usedNonce X) ++ heldNonces r.state).Subperm (r.history.filterMap (·.action.drawnNonce)) := by
  refine Reach.invariant (P := fun r => (r.history.filterMap (usedNonce X) ++ heldNonces r.state).Subperm
    (r.history.filterMap (·.action.drawnNonce))) ?_ ?_ hrun
  · rintro r ⟨hstart, hhist⟩
    rw [hhist, heldNonces, hinit _ hstart]
    exact List.Subperm.refl _
  · intro r a ih _
    show ((_ :: r.history).filterMap (usedNonce X) ++ heldNonces (next X r.state a)).Subperm
      ((_ :: r.history).filterMap (·.action.drawnNonce))
    have hdrawn : ((⟨r.state, a, next X r.state a⟩ :: r.history).filterMap (·.action.drawnNonce)) =
        a.drawnNonce.toList ++ r.history.filterMap (·.action.drawnNonce) := by
      rw [List.filterMap_cons]
      cases a.drawnNonce <;> rfl
    rw [hdrawn]
    cases hrtn : returned X ⟨r.state, a, next X r.state a⟩ with
    | none =>
      have hunu : usedNonce X ⟨r.state, a, next X r.state a⟩ = none := by
        unfold usedNonce
        rw [hrtn]
        rfl
      rw [List.filterMap_cons, hunu]
      have hheld := (List.subperm_append_left (r.history.filterMap (usedNonce X))).mpr
        (next_effect (X := X) r.state a).heldNonces
      refine hheld.trans ?_
      rw [← List.append_assoc]
      refine ((List.perm_append_comm.append_right _).subperm).trans ?_
      rw [List.append_assoc]
      exact (List.subperm_append_left _).mpr ih
    | some tx =>
      obtain ⟨h⟩ := finalization_of_returned hrtn
      obtain ⟨hused, hperm⟩ := h.usedNonce hrtn
      rw [List.filterMap_cons, hused]
      refine List.Subperm.trans ?_ ((List.sublist_append_right _ _).subperm)
      refine List.Subperm.trans ?_ ih
      exact (List.perm_middle.symm.trans (hperm.append_left _)).subperm

/-! ## The guarantee -/

/-- A returned transaction keeps to what a send agreed: `t₀` is the step of the send, `t` the one that returned `tx`. -/
structure Agreed (X : Externals) (t₀ : Step WalletV2State Action) (amount fee : UInt64) (sent : SentSlate)
    (t : Step WalletV2State Action) (tx : Transaction) (recipient : Commitment) (kernel : TransactionKernel) : Prop where
  pending : ∃ p ∈ t.before.pendingSlates, p.role = .Sender ∧ p.slateHash = sent.slateHash ∧ p.reservedInputs = tx.inputs
  inputs : tx.inputs = sent.slate.senderInputs
  reserved : ∀ c ∈ tx.inputs, ∃ out, t₀.after.outputs.get c = some out ∧ out.reservedFor = some sent.slateHash
  outputs : tx.outputs.map (·.commitment) = (sent.slate.senderChangeOutput.map (·.commitment)).toList ++ [recipient]
  change : ∀ c, sent.slate.senderChangeOutput.map (·.commitment) = some c →
    ∃ out, t₀.after.outputs.get c = some out ∧ out.origin = .Change ∧ Opened X out
  kernels : tx.kernels = [kernel]
  fee : kernel.fee.noms = fee.toNat
  lockHeight : kernel.lockHeight = sent.slate.lockHeight
  opens : ∃ blinding : ℤ, Opens X recipient amount.toNat blinding
  amount : ∀ value < u64Bound, ∀ blinding : ℤ, Opens X recipient value blinding → value = amount.toNat

section Sends

variable {amount fee : UInt64} {now : Nat} {draws : SendDraws} {p : PendingSlate}

theorem Sent.reserved (h : Sent X s amount fee now draws p s') (hc : c ∈ p.reservedInputs) :
    ∃ out, s'.outputs.get c = some out ∧ out.reservedFor = some p.slateHash := by
  have hget := OutputStore.get_reserveAll h.outputs p.slateHash now p.reservedInputs c
  rw [if_pos hc] at hget
  rw [h.reservedInputs] at hc
  obtain ⟨out, hout, rfl⟩ := List.mem_map.mp hc
  have hbef : s.outputs.get out.commitment = some out :=
    OutputStore.get_eq_some.mpr ⟨(h.spendable out hout).1, rfl⟩
  rw [get_of_storeChange h.stored hbef] at hget
  rw [h.state]
  exact ⟨_, hget, rfl⟩

theorem Sent.recorded_change (h : Sent X s amount fee now draws p s') (hc : p.producedOutput = some c) :
    ∃ out, s'.outputs.get c = some out ∧ out.origin = .Change ∧ Opened X out := by
  have hget := OutputStore.get_reserveAll h.outputs p.slateHash now p.reservedInputs c
  have hprd := hc
  rw [h.producedOutput] at hprd
  obtain ⟨m, hm, rfl⟩ := Option.map_eq_some_iff.mp hprd
  have hsto := h.stored
  rw [hm] at hsto
  have hinsd := (OutputStore.get_insert (mapError_eq_ok.mp hsto) m.commitment).2.trans (if_pos rfl)
  rw [hinsd] at hget
  -- the record is the one that was inserted, reserved or not
  have hout : ∃ out, s'.outputs.get m.commitment = some out ∧ out.origin = .Change := by
    rw [h.state]
    split at hget
    · exact ⟨_, hget, rfl⟩
    · exact ⟨_, hget, rfl⟩
  obtain ⟨out, hout, horg⟩ := hout
  exact ⟨out, hout, horg, opened_change h hc hout⟩

end Sends

/-- **A returned transaction keeps to the send that its slate came from.** -/
theorem Finalization.agreed (hsnd : Sound X) (h : Finalization X s a tx) (htrk : Tracked X h.slate)
    (hcoll : X.blake2b256 h.bytes = X.blake2b256 h.slate.slateBytes → h.bytes = h.slate.slateBytes)
    {history : List (Step WalletV2State Action)} (b : Born X history h.slate) : ∃ recipient kernel,
      Agreed X b.t b.amount b.fee ⟨b.sent.sender.slate, b.built.slateHash⟩ ⟨s, a, next X s a⟩ tx recipient kernel := by
  obtain ⟨hencoded, hins, recipient, kernel, hfin, houts⟩ := h.of_tracked htrk hcoll
  rw [b.continues.slateBytes] at hencoded
  have hsl : senderPhaseSlate h.answered = b.sent.sender.slate := Slate.serialize_inj hencoded b.sent.encoded
  have hfee : kernel.fee.noms = b.fee.toNat := by
    rw [hfin.fee, ← b.sent.built.fee, ← hsl]
    rfl
  have hprd : b.sent.sender.slate.senderChangeOutput.map (·.commitment) = b.built.producedOutput := by
    rw [b.sent.built.changeOutput, b.sent.producedOutput]
  rw [b.continues.producedOutput] at houts
  have hresv : tx.inputs = b.built.reservedInputs := hins.trans b.continues.reservedInputs
  have hops := recipient_opens hsnd b.owned b.sent hfin hresv houts hfee
  refine ⟨recipient, kernel, ?_⟩
  exact
    { pending := ⟨h.slate, List.mem_of_getElem? h.pending, h.found.2, b.continues.slateHash, hins.symm⟩
      inputs := by
        show tx.inputs = b.sent.sender.slate.senderInputs
        rw [hfin.inputs, ← hsl]
        rfl
      reserved := fun c hc => b.sent.reserved (hresv ▸ hc)
      outputs := by rw [houts, hprd]
      change := fun c hc => b.sent.recorded_change (hprd ▸ hc)
      kernels := hfin.kernels
      fee := hfee
      lockHeight := by
        show kernel.lockHeight = b.sent.sender.slate.lockHeight
        rw [hfin.lockHeight, ← hsl]
        rfl
      opens := hops
      amount := fun value hvalue blinding hopen => by
        obtain ⟨blinding', hopen'⟩ := hops
        exact hsnd.value_unique hvalue b.amount.toNat_lt hopen hopen' }

/-- Every transaction that was returned keeps to an earlier send. -/
def AllAgreed (X : Externals) (history : List (Step WalletV2State Action)) : Prop :=
  ∀ later t earlier, history = later ++ t :: earlier → ∀ tx, returned X t = some tx →
    ∃ t₀ ∈ earlier, ∃ amount fee now draws sent recipient kernel, t₀.action = .createSend amount fee now draws ∧
      createSend X t₀.before amount fee now draws = .ok (sent, t₀.after) ∧
      Agreed X t₀ amount fee sent t tx recipient kernel

structure Guarded (X : Externals) (r : Lib.Recorded WalletV2State Action) : Prop where
  owned : Owned X r.state
  tracked : ∀ p ∈ r.state.pendingSlates, Tracked X p
  born : ∀ p ∈ r.state.pendingSlates, p.role = .Sender → Nonempty (Born X r.history p)
  agreed : AllAgreed X r.history

theorem Guarded.next (hsnd : Sound X) (h : Guarded X r)
    (hfree : CollisionFree X (r.record (next X) a)) : Guarded X (r.record (Wallet.next X) a) where
  owned := h.owned.next hsnd
  tracked := (next_effect r.state a).tracked h.tracked
  born := born_next h.owned h.born
  agreed := by
    intro later t earlier hspl tx htx
    cases later with
    | nil =>
      obtain ⟨rfl, rfl⟩ := List.cons.inj hspl
      obtain ⟨hfin⟩ := finalization_of_returned htx
      have hmem := List.mem_of_getElem? hfin.pending
      obtain ⟨b⟩ := h.born _ hmem hfin.found.2
      obtain ⟨recipient, kernel, hagreed⟩ := hfin.agreed hsnd (h.tracked _ hmem) (hfree.finalization hfin) b
      exact ⟨b.t, b.recorded, b.amount, b.fee, b.now, b.draws, _, recipient, kernel, b.action, b.sent.result, hagreed⟩
    | cons first later =>
      obtain ⟨-, hrest⟩ := List.cons.inj hspl
      exact h.agreed later t earlier hrest tx htx

namespace SmallWallet

theorem opens_iff {value blinding : ℤ} :
    Opens libraries c value blinding ↔ Miniature.decodePoint c = (value, blinding) := by
  have hpt : value • ((1, 0) : ℤ × ℤ) + blinding • ((0, 1) : ℤ × ℤ) = (value, blinding) := by simp
  show (Except.ok (Miniature.decodePoint c) : Except DomError (ℤ × ℤ)) =
    .ok (value • ((1, 0) : ℤ × ℤ) + blinding • ((0, 1) : ℤ × ℤ)) ↔ _
  rw [Except.ok.injEq, hpt]

theorem sound : Sound libraries where
  commits value blinding c h := by
    unfold libraries at h
    simp only at h
    split at h
    · rename_i hrange
      obtain rfl := Except.ok.inj h
      have hvalue : ((value : ℕ) : ℤ) < 1267650600228229401496703205376 := by exact_mod_cast hrange.1
      have hblinding : ((blinding.toNat : ℕ) : ℤ) < 1267650600228229401496703205376 := by exact_mod_cast hrange.2
      refine opens_iff.mpr (Miniature.decodePoint_encodePoint ⟨?_, ?_⟩ ⟨?_, ?_⟩) <;> simp only <;> omega
    · cases h
  binding a b h := by
    have hzero : (a • ((1, 0) : ℤ × ℤ) + b • ((0, 1) : ℤ × ℤ)) = 0 := h
    have ha : a = 0 := by simpa using congrArg Prod.fst hzero
    rw [ha]
    exact dvd_zero _
  signatures sig key chainId message hkey _ := by
    simp only [publicKeyFromCompressedBytes, inversion] at hkey
    obtain ⟨-, hprsd⟩ := hkey
    -- the parser of the miniature takes multiples of the generator only
    have hvalue : (Miniature.decodePoint key).1 = 0 := by
      by_contra hne
      have herr : libraries.parsePublicKey key = .error "not a multiple of the generator" := if_neg hne
      rw [herr] at hprsd
      cases hprsd
    exact ⟨(Miniature.decodePoint key).2, opens_iff.mpr (Prod.ext hvalue rfl)⟩

theorem owned_start : Owned libraries start := by
  intro out hout
  obtain rfl := List.mem_singleton.mp hout
  exact opens_iff.mpr (by decide +kernel)

end SmallWallet

open SmallWallet

end DomProtocol.Wallet
