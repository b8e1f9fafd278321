import DomProtocol.Wallet.Payment

/-!
# `Wallet.Steps` — what one call of the wallet can do

Each operation is inverted once.  `Effect` collects the results: the call is refused and changes nothing, or it changes the
store and the pending slates in one of seven ways.
-/

namespace DomProtocol.Wallet

open Lib

variable {candidates : List StoredOutput} {selected : List Commitment} {need : Nat}
  {output : OutputCommitmentAndProof} {inputs : List SlateInput} {chainId : Hash256} {tx : Transaction}
  {p : PendingSlate}

/-! ## Coin selection -/

theorem accumulate_eq_ok {start total : Nat}
    (h : accumulate need candidates start = .ok (selected, total)) :
    ∃ taken, taken <+: candidates ∧ selected = taken.map (·.commitment) ∧ total = start + (taken.map (·.value)).sum ∧
      (need ≤ start + (candidates.map (·.value)).sum → need ≤ total) := by
  induction candidates generalizing start total selected with
  | nil =>
    cases h
    refine ⟨[], List.nil_prefix, rfl, rfl, ?_⟩
    intro hneed
    simpa using hneed
  | cons out rest ih =>
    unfold accumulate at h
    by_cases hdone : need ≤ start
    · rw [if_pos hdone] at h
      cases h
      exact ⟨[], List.nil_prefix, rfl, rfl, fun _ => hdone⟩
    · rw [if_neg hdone] at h
      simp only [inversion, checkedAdd64_eq_some, Prod.exists, Prod.mk.injEq] at h
      obtain ⟨_, ⟨-, rfl⟩, selected', total', hrest, rfl, rfl⟩ := h
      obtain ⟨taken, hpre, rfl, rfl, hcov⟩ := ih hrest
      refine ⟨out :: taken, List.cons_prefix_cons.mpr ⟨rfl, hpre⟩, rfl, ?_, ?_⟩
      · rw [List.map_cons, List.sum_cons]
        omega
      · rw [List.map_cons, List.sum_cons]
        intro hneed
        exact hcov (by omega)

theorem foldlM_checkedAdd64_eq_ok {start total : Nat}
    (h : candidates.foldlM (fun acc out => okOr (checkedAdd64 acc out.value) PaymentError.AmountOverflow) start = .ok total) :
    total = start + (candidates.map (·.value)).sum := by
  induction candidates generalizing start with
  | nil =>
    cases h
    rfl
  | cons out rest ih =>
    simp only [List.foldlM_cons, inversion, checkedAdd64_eq_some] at h
    obtain ⟨_, ⟨-, rfl⟩, hrest⟩ := h
    rw [ih hrest, List.map_cons, List.sum_cons]
    omega

/-- **Selection.**  The inputs are spendable outputs of the store and their values add up to what is reported, which covers
    the need. -/
theorem selectInputs_eq_ok {s : WalletV2State} {sum : Nat}
    (h : selectInputs s need = .ok (selected, sum)) :
    ∃ taken : List StoredOutput, selected = taken.map (·.commitment) ∧ sum = (taken.map (·.value)).sum ∧ need ≤ sum ∧
      ∀ out ∈ taken, out ∈ s.outputs.outputs ∧ out.status = .Confirmed ∧ out.isReserved = false := by
  simp only [selectInputs, inversion] at h
  obtain ⟨total, htot, hcov, haccumulate⟩ := h
  obtain ⟨taken, hpre, hsel, hsum, hneed⟩ := accumulate_eq_ok haccumulate
  have htot' := foldlM_checkedAdd64_eq_ok htot
  refine ⟨taken, hsel, by omega, hneed (by omega), fun out hout => ?_⟩
  have hmem := hpre.subset hout
  rw [List.mem_mergeSort, List.mem_filter] at hmem
  have hspd := of_decide_eq_true hmem.2
  exact ⟨hmem.1, hspd.1, hspd.2.1⟩

/-! ## The store -/

namespace OutputStore

theorem get_foldl_modify (f : StoredOutput → StoredOutput) (h : ∀ out, (f out).commitment = out.commitment)
    (hidem : ∀ out, f (f out) = f out) (cs : List Commitment) (s : OutputStore) (c : Commitment) :
    (cs.foldl (fun s c => s.modify c f h) s).get c = if c ∈ cs then (s.get c).map f else s.get c := by
  induction cs generalizing s with
  | nil => simp
  | cons first rest ih =>
    rw [List.foldl_cons, ih, get_modify]
    by_cases hrest : c ∈ rest
    · have hmem : c ∈ first :: rest := List.mem_cons_of_mem _ hrest
      rw [if_pos hrest, if_pos hmem]
      split
      · rw [Option.map_map]
        congr 1
        exact funext hidem
      · rfl
    · rw [if_neg hrest]
      simp only [List.mem_cons, hrest, or_false]

theorem get_reserveAll (outputs : OutputStore) (slateHash : Hash256) (now : Nat) (selected : List Commitment)
    (c : Commitment) : (selected.foldl (fun outputs c => outputs.reserve slateHash now c) outputs).get c =
      if c ∈ selected then (outputs.get c).map (·.reserve slateHash now) else outputs.get c :=
  get_foldl_modify (·.reserve slateHash now) (fun _ => rfl) (fun _ => rfl) selected outputs c

theorem get_releaseAll (outputs : OutputStore) (now : Nat) (reserved : List Commitment) (c : Commitment) :
    (releaseAll outputs now reserved).get c =
      if c ∈ reserved then (outputs.get c).map (·.releaseReservation now) else outputs.get c :=
  get_foldl_modify (·.releaseReservation now) (fun _ => rfl) (fun _ => rfl) reserved outputs c

theorem get_discard (outputs : OutputStore) (produced : Option Commitment) (c : Commitment) :
    (discard outputs produced).get c =
      if produced = some c ∧ (outputs.get c).any (·.canDelete) then none else outputs.get c := by
  cases produced with
  | none => simp [discard]
  | some p =>
    by_cases hpc : p = c
    · subst hpc
      show OutputStore.get (if (outputs.get p).any (·.canDelete) then outputs.erase p else outputs) p = _
      by_cases hdel : (outputs.get p).any (·.canDelete) = true
      · rw [if_pos hdel, get_erase, if_pos rfl, if_pos ⟨rfl, hdel⟩]
      · rw [if_neg hdel, if_neg fun h => hdel h.2]
    · rw [if_neg fun h => hpc (Option.some.inj h.1)]
      show OutputStore.get (if (outputs.get p).any (·.canDelete) then outputs.erase p else outputs) c = _
      split
      · rw [get_erase, if_neg (Ne.symm hpc)]
      · rfl

theorem get_reconciled (s : OutputStore) (view : CanonicalView) (now : Nat) (c : Commitment) :
    (s.reconciled view now).get c = (s.get c).map (Wallet.reconciled view now) :=
  get_map (Wallet.reconciled view now) (commitment_reconciled view now) c

theorem get_insert {s s' : OutputStore} {out : StoredOutput} (h : s.insert out = .ok s') (c : Commitment) :
    s.get out.commitment = none ∧ s'.get c = if c = out.commitment then some out else s.get c := by
  obtain ⟨hnew, -, houts⟩ := insert_eq_ok.mp h
  exact ⟨hnew, get_push hnew houts c⟩

end OutputStore

/-! ## Building and answering -/

section Slates

variable {X : Externals}

theorem commitmentFromCompressedBytes_eq {c c' : Commitment} (h : commitmentFromCompressedBytes X c = .ok c') : c' = c := by
  simp only [commitmentFromCompressedBytes, inversion] at h
  exact h.2.2.symm

theorem provenOutput_eq_ok {role : String} {value : Nat} {blinding : BitVec 256}
    (h : provenOutput X role value blinding = .ok output) : X.backendCommit value blinding = .ok output.commitment := by
  simp only [provenOutput, crypto, bpProve, inversion, Prod.exists, Prod.mk.injEq] at h
  obtain ⟨_, _, ⟨-, sec1, hcmt, _, -, rfl, rfl⟩, _, -, _, hprs, rfl⟩ := h
  rw [hcmt, commitmentFromCompressedBytes_eq hprs]

theorem mapM_commitments {cs : List Commitment}
    (h : inputs.mapM (fun i => commitmentFromCompressedBytes X i.commitment) = .ok cs) : cs = inputs.map (·.commitment) := by
  have hall := mapM_eq_ok.mp h
  clear h
  induction hall with
  | nil => rfl
  | cons hfst _ ih => rw [ih, List.map_cons, commitmentFromCompressedBytes_eq hfst]

/-- What the wallet learns from building a slate. -/
structure Built (X : Externals) (inputs : List SlateInput) (changeValue : Nat) (amount fee : UInt64) (chainId : Hash256)
    (draws : SendDraws) (sender : SenderSlate) : Prop where
  version : sender.slate.version = currentSlateVersion
  amount : sender.slate.amount = amount
  fee : sender.slate.fee = fee
  lockHeight : sender.slate.lockHeight = 0
  senderInputs : sender.slate.senderInputs = inputs.map (·.commitment)
  changeOutput : sender.slate.senderChangeOutput.map (·.commitment) = sender.change.map (·.commitment)
  change : ∀ m ∈ sender.change, m.value = changeValue ∧ m.blinding = draws.changeBlinding.val ∧
    X.backendCommit m.value m.blinding = .ok m.commitment
  exact : sender.change = none → changeValue = 0
  nonce : sender.nonce = draws.nonce.val
  unanswered : sender.slate = senderPhaseSlate sender.slate

theorem buildSend_eq_ok {changeValue : Nat} {amount fee : UInt64}
    {draws : SendDraws} {sender : SenderSlate} (h : buildSend X inputs changeValue amount fee chainId draws = .ok sender) :
    Built X inputs changeValue amount fee chainId draws sender := by
  simp only [buildSend, buildSendWithLockHeight, crypto, inversion] at h
  obtain ⟨change, hchg, _, -, _, -, cs, hcs, rfl⟩ := h
  have hnone : change = none → changeValue = 0 := by
    intro hnone
    unfold buildChange at hchg
    by_cases hpos : changeValue > 0
    · rw [if_pos hpos] at hchg
      simp only [inversion] at hchg
      obtain ⟨_, -, rfl⟩ := hchg
      cases hnone
    · omega
  have hsome : ∀ output, change = some output →
      X.backendCommit changeValue draws.changeBlinding.val = .ok output.commitment := by
    rintro output rfl
    unfold buildChange at hchg
    split at hchg
    · simp only [inversion, Option.some.injEq] at hchg
      obtain ⟨_, hproven, rfl⟩ := hchg
      exact provenOutput_eq_ok hproven
    · cases hchg
  refine ⟨rfl, rfl, rfl, rfl, mapM_commitments hcs, ?_, ?_, ?_, rfl, rfl⟩
  · cases change <;> rfl
  · intro m hm
    obtain ⟨output, rfl, rfl⟩ := Option.map_eq_some_iff.mp hm
    exact ⟨rfl, rfl, hsome output rfl⟩
  · intro hemp
    exact hnone (Option.map_eq_none_iff.mp hemp)

theorem parsed_of_schnorrAddPublicKeys {keys : List (BitVec 264)} {sum : BitVec 264}
    (h : schnorrAddPublicKeys X keys = .ok sum) : publicKeyFromCompressedBytes X sum = .ok sum := by
  simp only [schnorrAddPublicKeys, inversion] at h
  obtain ⟨-, point, -, -, hprs⟩ := h
  have hsame : sum = X.compressPoint point := by
    simp only [publicKeyFromCompressedBytes, inversion] at hprs
    obtain ⟨-, hmatch⟩ := hprs
    split at hmatch
    · exact (pure_eq_ok.mp hmatch).symm
    · cases hmatch
  rw [hsame]
  rw [hsame] at hprs
  exact hprs

theorem withRecoveryCapsule_eq_ok {capsule : List UInt8} {o : TransactionOutput}
    (h : withRecoveryCapsule output capsule = .ok o) : o.commitment = output.commitment := by
  simp only [withRecoveryCapsule, inversion] at h
  obtain ⟨_, -, -, rfl⟩ := h
  rfl

theorem commitments_of_slateOutputs {s : Slate} {recipient : OutputCommitmentAndProof} {outputs : List TransactionOutput}
    (h : slateOutputsForFinalize s recipient = .ok outputs) :
    outputs.map (·.commitment) = (s.senderChangeOutput.map (·.commitment)).toList ++ [recipient.commitment] := by
  unfold slateOutputsForFinalize at h
  split at h
  · cases h
    cases hchg : s.senderChangeOutput <;> simp [slateOutputs, hchg]
  · simp only [inversion, mapM_eq_ok] at h
    obtain ⟨-, change, hchg, recipient', hrcp, rfl⟩ := h
    rw [List.map_append, List.map_singleton, withRecoveryCapsule_eq_ok hrcp]
    congr 1
    cases hsome : s.senderChangeOutput with
    | none =>
      rw [hsome] at hchg
      cases hchg
      rfl
    | some out =>
      rw [hsome] at hchg
      obtain ⟨first, _, hfst, htail, rfl⟩ := List.forall₂_cons_left_iff.mp hchg
      cases htail
      rw [List.map_singleton, withRecoveryCapsule_eq_ok hfst]
      rfl

/-- What a finalized slate and its transaction have to do with each other. -/
structure FinalizedAs (X : Externals) (s : Slate) (chainId : Hash256) (tx : Transaction) (recipient : Commitment)
    (kernel : TransactionKernel) : Prop where
  inputs : tx.inputs = s.senderInputs
  outputs : tx.outputs.map (·.commitment) = (s.senderChangeOutput.map (·.commitment)).toList ++ [recipient]
  kernels : tx.kernels = [kernel]
  fee : kernel.fee.noms = s.fee.toNat
  lockHeight : kernel.lockHeight = s.lockHeight
  offset : tx.offset = s.senderOffsetContribution
  balanced : validateBalanceEquation X tx = .ok ()
  parsed : publicKeyFromCompressedBytes X kernel.excess = .ok kernel.excess
  signed : ∃ sig message, schnorrVerify X sig kernel.excess chainId message = .ok true

theorem fromNoms_eq_ok {noms : Nat} {a : Amount} (h : Amount.fromNoms noms = .ok a) : a.noms = noms := by
  unfold Amount.fromNoms at h
  split at h
  · cases h
    rfl
  · cases h

theorem finalizeSlate_eq_ok {s : Slate} {excess nonce : BitVec 256}
    (h : finalizeSlate X s excess nonce chainId = .ok tx) : ∃ recipient kernel, FinalizedAs X s chainId tx recipient kernel := by
  unfold finalizeSlate at h
  simp only [crypto, inversion] at h
  obtain ⟨-, -, recipient, -, _, -, _, -, _, -, _, -, aggP, haggP, message, -, _, -, _, -, _, -, sig, -, outputs, houts,
    fee, hfee, excess', hexc, -, -, hbal, valid, hval, hvrf, rfl⟩ := h
  obtain rfl := commitmentFromCompressedBytes_eq hexc
  have htrue : valid = true := Bool.not_eq_false _ ▸ hvrf
  subst htrue
  exact ⟨recipient.commitment, _, rfl, commitments_of_slateOutputs houts, rfl, fromNoms_eq_ok hfee, rfl, rfl, hbal,
    parsed_of_schnorrAddPublicKeys haggP, sig, _, hval⟩

end Slates

/-! ## Pending slates -/

theorem position_eq_some {s : WalletV2State} {p : PendingSlate → Bool} {slate : PendingSlate} {idx : Nat}
    (h : s.position p = some (slate, idx)) : s.pendingSlates[idx]? = some slate ∧ p slate = true ∧
      ∀ j q, j < idx → s.pendingSlates[j]? = some q → p q = false := by
  unfold WalletV2State.position at h
  obtain ⟨hp, before, after, hspl, hbef⟩ := List.find?_eq_some_iff_append.mp h
  obtain ⟨earlier, _, hsls, rfl, hrest⟩ := List.zipIdx_eq_append_iff.mp hspl
  obtain ⟨_, _, rfl, heq, -⟩ := List.zipIdx_eq_cons_iff.mp hrest.symm
  cases heq
  refine ⟨by simp [hsls], hp, fun j q hj hq => ?_⟩
  -- what stands before the first hit fails the test
  rw [hsls, List.getElem?_append_left (by omega)] at hq
  simpa using hbef (q, j) (List.mk_mem_zipIdx_iff_getElem?.mpr hq)

theorem getElem?_modifySlate (s : WalletV2State) (idx j : Nat) (f : PendingSlate → PendingSlate) :
    (s.modifySlate idx f).pendingSlates[j]? = if idx = j then s.pendingSlates[j]?.map f else s.pendingSlates[j]? := by
  show (s.pendingSlates.modify idx f)[j]? = _
  rw [List.getElem?_modify]
  split <;> simp

/-! ## Steps -/

inductive Action where
  | createSend (amount fee : UInt64) (now : Nat) (draws : SendDraws)
  | receive (slate : Slate) (now : Nat) (draws : ReceiveDraws)
  | finalize (answered : Slate)
  | submitFinalized (sink : Transaction → Except String SubmitOutcome) (slateHash : Hash256) (now : Nat)
  | cancel (slateHash : Hash256) (now : Nat)
  | reconcile (view : CanonicalView) (now : Nat)

/-- A call that fails leaves the state alone. -/
def orElse {ε β : Type} (s : WalletV2State) : Except ε (β × WalletV2State) → WalletV2State
  | .ok (_, s') => s'
  | .error _ => s

section Steps

variable (X : Externals)

def next (s : WalletV2State) : Action → WalletV2State
  | .createSend amount fee now draws => orElse s (createSend X s amount fee now draws)
  | .receive slate now draws => orElse s (receive X s slate now draws)
  | .finalize answered => orElse s (finalizeTracked X s answered)
  | .submitFinalized sink slateHash now => (submitFinalized X s sink slateHash now).2
  | .cancel slateHash now => orElse s ((cancel s slateHash now).map fun s' => ((), s'))
  | .reconcile view now => orElse s (s.reconcile view now)

/-- A send: what was selected, what was built, and how the state changed. -/
structure Sent (s : WalletV2State) (amount fee : UInt64) (now : Nat) (draws : SendDraws) (p : PendingSlate)
    (s' : WalletV2State) where
  taken : List StoredOutput
  sender : SenderSlate
  outputs : OutputStore
  spendable : ∀ out ∈ taken, out ∈ s.outputs.outputs ∧ out.status = .Confirmed ∧ out.isReserved = false
  covers : amount.toNat + fee.toNat ≤ (taken.map (·.value)).sum
  built : Built X (taken.map fun out => ⟨out.commitment, out.blinding⟩)
    ((taken.map (·.value)).sum - (amount.toNat + fee.toNat)) amount fee s.chainId draws sender
  encoded : sender.slate.serialize = .ok p.slateBytes
  pending : p = ⟨X.blake2b256 p.slateBytes, .Sender, p.slateBytes, some (.Sender sender.excessBlinding sender.nonce),
    taken.map (·.commitment), sender.change.map (·.commitment), none, .Built⟩
  stored : storeChange s.outputs now sender.change = .ok outputs
  state : s' = { s with
    outputs := p.reservedInputs.foldl (fun outputs c => outputs.reserve p.slateHash now c) outputs
    pendingSlates := s.pendingSlates ++ [p] }
  result : createSend X s amount fee now draws = .ok (⟨sender.slate, p.slateHash⟩, s')

/-- An answer: the new output, and how the state changed. -/
structure Received (s : WalletV2State) (now : Nat) (p : PendingSlate) (s' : WalletV2State) where
  slate : Slate
  output : OutputCommitmentAndProof
  blinding : BitVec 256
  outputs : OutputStore
  recipient : slate.recipientOutput = some output
  opened : X.backendCommit slate.amount.toNat blinding = .ok output.commitment
  encoded : slate.serialize = .ok p.slateBytes
  pending : p = ⟨X.blake2b256 p.slateBytes, .Receiver, p.slateBytes, some (.Receiver blinding), [], some output.commitment,
    none, .Built⟩
  stored : s.outputs.insert (.newUnconfirmed output.commitment slate.amount.toNat blinding .ReceiveSlate false now) =
    .ok outputs
  state : s' = { s with outputs := outputs, pendingSlates := s.pendingSlates ++ [p] }

inductive Effect (s : WalletV2State) : Action → WalletV2State → Prop where
  | refused (a : Action) : Effect s a s
  | sent {amount fee : UInt64} {now : Nat} {draws : SendDraws} {p : PendingSlate} {s' : WalletV2State}
      (h : Sent X s amount fee now draws p s') : Effect s (.createSend amount fee now draws) s'
  | received {slate : Slate} {now : Nat} {draws : ReceiveDraws} {p : PendingSlate} {s' : WalletV2State}
      (h : Received X s now p s') : Effect s (.receive slate now draws) s'
  | finalized {answered : Slate} {bytes txBytes : List UInt8} {slate : PendingSlate} {idx : Nat} {excess nonce : BitVec 256}
      {tx : Transaction} (hbytes : (senderPhaseSlate answered).serialize = .ok bytes)
      (hpos : s.position (fun p => p.slateHash = X.blake2b256 bytes ∧ p.role = .Sender) = some (slate, idx))
      (hsecrets : slate.secrets = some (.Sender excess nonce))
      (htx : finalizeSlate X answered excess nonce s.chainId = .ok tx) (hser : tx.serialize = .ok txBytes) :
      Effect s (.finalize answered)
        (s.modifySlate idx ({ · with status := .Finalized, finalizedTx := some txBytes, secrets := none }))
  | submitted {sink : Transaction → Except String SubmitOutcome} {slateHash : Hash256} {now : Nat} {slate : PendingSlate}
      {idx : Nat} (hpos : s.position (fun p => p.slateHash = slateHash ∧ p.role = .Sender) = some (slate, idx))
      (hfinal : slate.finalizedTx.isSome) :
      Effect s (.submitFinalized sink slateHash now) (s.modifySlate idx ({ · with status := .Submitted }))
  | bounced {sink : Transaction → Except String SubmitOutcome} {slateHash : Hash256} {now : Nat} {slate : PendingSlate}
      {idx : Nat} {e : String} (hpos : s.position (fun p => p.slateHash = slateHash ∧ p.role = .Sender) = some (slate, idx))
      (herror : (submitFinalized X s sink slateHash now).1 = .error (.Sink e)) :
      Effect s (.submitFinalized sink slateHash now) { s with outputs := releaseAll s.outputs now slate.reservedInputs }
  | cancelled {slateHash : Hash256} {now : Nat} {slate : PendingSlate} {idx : Nat}
      (hpos : s.position (fun p => p.slateHash = slateHash) = some (slate, idx)) :
      Effect s (.cancel slateHash now)
        ({ s with outputs := discard (releaseAll s.outputs now slate.reservedInputs) slate.producedOutput }.modifySlate idx
          ({ · with status := .Canceled }))
  | reconciled {view : CanonicalView} {now : Nat} (storeMeta : StoreMeta) :
      Effect s (.reconcile view now) { s with outputs := s.outputs.reconciled view now, storeMeta := storeMeta }

variable {X} {s : WalletV2State}

variable {amount fee : UInt64} {now : Nat} {draws : SendDraws} {s' : WalletV2State}

theorem Sent.reservedInputs (h : Sent X s amount fee now draws p s') :
    p.reservedInputs = h.taken.map (·.commitment) :=
  congrArg PendingSlate.reservedInputs h.pending

theorem Sent.producedOutput (h : Sent X s amount fee now draws p s') :
    p.producedOutput = h.sender.change.map (·.commitment) :=
  congrArg PendingSlate.producedOutput h.pending

/-- A selected output is a confirmed one that nothing had reserved. -/
theorem Sent.confirmed (h : Sent X s amount fee now draws p s') {c : Commitment} (hc : c ∈ p.reservedInputs) :
    ∃ out, s.outputs.get c = some out ∧ out.status = .Confirmed ∧ out.isReserved = false := by
  rw [h.reservedInputs] at hc
  obtain ⟨out, hout, rfl⟩ := List.mem_map.mp hc
  obtain ⟨hsto, hfree⟩ := h.spendable out hout
  exact ⟨out, OutputStore.get_eq_some.mpr ⟨hsto, rfl⟩, hfree⟩

theorem mapM_selected {taken : List StoredOutput}
    (hmem : ∀ out ∈ taken, out ∈ s.outputs.outputs) (h : (taken.map (·.commitment)).mapM (fun c => do
      let out ← okOr (s.outputs.get c) (PaymentError.panicked "selected output exists")
      return SlateInput.mk c out.blinding) = .ok inputs) :
    inputs = taken.map fun out => ⟨out.commitment, out.blinding⟩ := by
  have hall := mapM_eq_ok.mp h
  clear h
  induction taken generalizing inputs with
  | nil =>
    cases hall
    rfl
  | cons out rest ih =>
    obtain ⟨input, inputs', hfst, hrest, rfl⟩ := List.forall₂_cons_left_iff.mp hall
    simp only [inversion] at hfst
    obtain ⟨stored, hsto, rfl⟩ := hfst
    have hsame : s.outputs.get out.commitment = some out :=
      OutputStore.get_eq_some.mpr ⟨hmem out List.mem_cons_self, rfl⟩
    rw [hsame] at hsto
    cases hsto
    rw [List.map_cons, ih (fun o ho => hmem o (List.mem_cons_of_mem _ ho)) hrest]

theorem createSend_eq_ok {sent : SentSlate} (h : createSend X s amount fee now draws = .ok (sent, s')) :
    ∃ p, Nonempty (Sent X s amount fee now draws p s') := by
  have hres := h
  simp only [createSend, inversion, checkedAdd64_eq_some, Prod.exists, Prod.mk.injEq] at h
  obtain ⟨_, ⟨-, rfl⟩, selected, sum, hselect, inputs, hins, sender, hbuild, bytes, hbyt, outputs, houts, rfl, rfl⟩ := h
  obtain ⟨taken, rfl, rfl, hcov, htkn⟩ := selectInputs_eq_ok hselect
  obtain rfl := mapM_selected (fun out hout => (htkn out hout).1) hins
  let p : PendingSlate := ⟨X.blake2b256 bytes, .Sender, bytes, some (.Sender sender.excessBlinding sender.nonce),
    taken.map (·.commitment), sender.change.map (·.commitment), none, .Built⟩
  exact ⟨p, ⟨taken, sender, outputs, htkn, hcov, buildSend_eq_ok hbuild, hbyt, rfl, houts, rfl, hres⟩⟩

theorem receive_eq_ok {slate answer : Slate} {draws : ReceiveDraws}
    (h : receive X s slate now draws = .ok (answer, s')) : ∃ p, Nonempty (Received X s now p s') := by
  simp only [receive, respondReceive, crypto, inversion, Prod.exists, Prod.mk.injEq] at h
  obtain ⟨answer', blinding, ⟨-, -, -, -, _, -, _, -, output, hproven, _, -, _, -, _, -, _, -, _, -, hanswer, rfl⟩, output',
    hsome, bytes, hbyt, outputs, houts, rfl, rfl⟩ := h
  have hrcp : answer'.recipientOutput = some output := by rw [← hanswer]
  have hamt : answer'.amount = slate.amount := by rw [← hanswer]
  rw [hrcp] at hsome
  cases hsome
  let p : PendingSlate := ⟨X.blake2b256 bytes, .Receiver, bytes, some (.Receiver draws.blinding.val), [],
    some output.commitment, none, .Built⟩
  exact ⟨p, ⟨answer', output, draws.blinding.val, outputs, hrcp, hamt ▸ provenOutput_eq_ok hproven, hbyt, rfl,
    houts, rfl⟩⟩

theorem finalizeTracked_eq_ok {answered : Slate} {hash : Hash256}
    (h : finalizeTracked X s answered = .ok ((tx, hash), s')) :
    ∃ bytes slate idx excess nonce txBytes, (senderPhaseSlate answered).serialize = .ok bytes ∧
      s.position (fun p => p.slateHash = X.blake2b256 bytes ∧ p.role = .Sender) = some (slate, idx) ∧
      slate.secrets = some (.Sender excess nonce) ∧ finalizeSlate X answered excess nonce s.chainId = .ok tx ∧
      tx.serialize = .ok txBytes ∧ hash = X.blake2b256 bytes ∧
      s' = s.modifySlate idx ({ · with status := .Finalized, finalizedTx := some txBytes, secrets := none }) := by
  simp only [finalizeTracked, inversion, Prod.exists] at h
  obtain ⟨bytes, hbyt, slate, idx, hpos, hmatch⟩ := h
  split at hmatch
  · rename_i excess nonce hsecs
    simp only [inversion, Prod.mk.injEq] at hmatch
    obtain ⟨tx', htx, txBytes, hser, ⟨rfl, rfl⟩, rfl⟩ := hmatch
    exact ⟨bytes, slate, idx, excess, nonce, txBytes, hbyt, hpos, hsecs, htx, hser, rfl, rfl⟩
  · cases hmatch

/-- **What a call can do.** -/
theorem next_effect (s : WalletV2State) (a : Action) : Effect X s a (next X s a) := by
  cases a with
  | createSend amount fee now draws =>
    show Effect X s _ (orElse s (createSend X s amount fee now draws))
    cases hrun : createSend X s amount fee now draws with
    | error e => exact .refused _
    | ok r =>
      obtain ⟨sent, s'⟩ := r
      obtain ⟨p, ⟨hsent⟩⟩ := createSend_eq_ok hrun
      exact .sent hsent
  | receive slate now draws =>
    show Effect X s _ (orElse s (receive X s slate now draws))
    cases hrun : receive X s slate now draws with
    | error e => exact .refused _
    | ok r =>
      obtain ⟨answer, s'⟩ := r
      obtain ⟨p, ⟨hrecv⟩⟩ := receive_eq_ok hrun
      exact .received hrecv
  | finalize answered =>
    show Effect X s _ (orElse s (finalizeTracked X s answered))
    cases hrun : finalizeTracked X s answered with
    | error e => exact .refused _
    | ok r =>
      obtain ⟨⟨tx, hash⟩, s'⟩ := r
      obtain ⟨bytes, slate, idx, excess, nonce, txBytes, hbyt, hpos, hsecs, htx, hser, -, rfl⟩ :=
        finalizeTracked_eq_ok hrun
      exact .finalized hbyt hpos hsecs htx hser
  | submitFinalized sink slateHash now =>
    show Effect X s _ (submitFinalized X s sink slateHash now).2
    cases hfnd : finalizedTransaction X s slateHash with
    | error e =>
      have hrun : submitFinalized X s sink slateHash now = (.error e, s) := by
        unfold submitFinalized
        simp only [hfnd]
      rw [hrun]
      exact .refused _
    | ok r =>
      obtain ⟨tx, slate, idx⟩ := r
      have hfnd' := hfnd
      simp only [finalizedTransaction, inversion, Prod.exists, Prod.mk.injEq] at hfnd'
      obtain ⟨slate', idx', hpos, bytes, hbyt, _, -, -, rfl, rfl⟩ := hfnd'
      cases hsink : sink tx with
      | ok outcome =>
        have hrun : submitFinalized X s sink slateHash now =
            (.ok outcome, s.modifySlate idx' ({ · with status := .Submitted })) := by
          unfold submitFinalized
          simp only [hfnd, hsink]
        rw [hrun]
        exact .submitted hpos (by rw [hbyt]; rfl)
      | error e =>
        have hrun : submitFinalized X s sink slateHash now = (.error (.Sink e),
            { s with outputs := releaseAll s.outputs now slate'.reservedInputs }) := by
          unfold submitFinalized
          simp only [hfnd, hsink]
        rw [hrun]
        exact .bounced hpos (by rw [hrun])
  | cancel slateHash now =>
    show Effect X s _ (orElse s ((cancel s slateHash now).map fun s' => ((), s')))
    cases hrun : cancel s slateHash now with
    | error e => exact .refused _
    | ok s' =>
      simp only [cancel, inversion, Prod.exists] at hrun
      obtain ⟨slate, idx, hpos, rfl⟩ := hrun
      exact .cancelled hpos
  | reconcile view now =>
    obtain ⟨report, hrep⟩ := exists_report s.outputs view now
    show Effect X s _ (orElse s (s.reconcile view now))
    unfold WalletV2State.reconcile
    rw [hrep]
    exact .reconciled _

end Steps

end DomProtocol.Wallet
