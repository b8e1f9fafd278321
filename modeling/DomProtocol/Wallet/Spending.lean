import DomProtocol.Wallet.Retention

/-!
# `Wallet.Spending` — two returned transactions spend different outputs

The inputs of a slate are reserved while the slate is alive, and two living slates reserve different outputs.  A slate that
was finalized has to stay alive for this: cancelling it, or cancelling twice, releases outputs that a returned transaction or
another slate spends, and a cancelled slate still has the secrets to be finalized.
-/

namespace DomProtocol.Wallet

open Lib

variable {f : PendingSlate → PendingSlate} {idx now : Nat} {p : PendingSlate} {r : Lib.Recorded WalletV2State Action}
  {actions : List Action}

variable {X : Externals} {s s' : WalletV2State} {a : Action} {c : Commitment} {i j : Nat}

/-! ## Claims on outputs -/

/-- A living slate at a position has reserved an output. -/
def Claims (s : WalletV2State) (i : Nat) (c : Commitment) : Prop :=
  ∃ p : PendingSlate, s.pendingSlates[i]? = some p ∧ p.status ≠ .Canceled ∧ c ∈ p.reservedInputs

/-- The output is stored as reserved, and is not one that a cancellation may delete. -/
def Held (s : WalletV2State) (c : Commitment) : Prop :=
  ∃ out, s.outputs.get c = some out ∧ out.status ≠ .Unconfirmed ∧ out.isReserved = true

def Accepted (X : Externals) (s : WalletV2State) (a : Action) : Prop :=
  ∀ sink slateHash now e, a = .submitFinalized sink slateHash now →
    (submitFinalized X s sink slateHash now).1 ≠ .error (.Sink e)

/-- A call that respects the life of slates: a cancellation that releases outputs names a slate without a transaction, and
    releases nothing that another living slate reserved; no answer finalizes a cancelled slate. -/
structure Careful (X : Externals) (s : WalletV2State) (a : Action) : Prop where
  cancel : ∀ slateHash now slate idx, a = .cancel slateHash now →
    s.position (fun p => p.slateHash = slateHash) = some (slate, idx) → slate.reservedInputs ≠ [] →
    slate.finalizedTx = none ∧ ∀ j c, j ≠ idx → Claims s j c → c ∉ slate.reservedInputs
  finalize : ∀ answered bytes slate idx excess nonce tx, a = .finalize answered →
    (senderPhaseSlate answered).serialize = .ok bytes →
    s.position (fun p => p.slateHash = X.blake2b256 bytes ∧ p.role = .Sender) = some (slate, idx) →
    slate.secrets = some (.Sender excess nonce) → finalizeSlate X answered excess nonce s.chainId = .ok tx →
    slate.status ≠ .Canceled

/-- What holds of the reservations of a wallet. -/
structure Reserved (X : Externals) (s : WalletV2State) : Prop where
  tracked : ∀ p ∈ s.pendingSlates, Tracked X p
  held : ∀ i c, Claims s i c → Held s c
  exclusive : ∀ i j c, Claims s i c → Claims s j c → i = j
  dropped : ∀ p ∈ s.pendingSlates, p.status = .Canceled → p.finalizedTx.isSome → p.reservedInputs = []

theorem Effect.held (h : Effect X s a s') (haccd : Accepted X s a) (hheld : Held s c)
    (hcancel : ∀ slateHash now slate idx, a = .cancel slateHash now →
      s.position (fun p => p.slateHash = slateHash) = some (slate, idx) → c ∉ slate.reservedInputs) : Held s' c := by
  obtain ⟨out, hout, hstat, hresv⟩ := hheld
  have hsame : s'.outputs.get c = some out → Held s' c := fun hout' => ⟨out, hout', hstat, hresv⟩
  cases h with
  | refused | finalized | submitted => exact hsame hout
  | @sent amount fee now draws q _ hsent =>
    have hget := OutputStore.get_reserveAll hsent.outputs q.slateHash now q.reservedInputs c
    rw [get_of_storeChange hsent.stored hout] at hget
    rw [hsent.state]
    by_cases hmem : c ∈ q.reservedInputs
    · rw [if_pos hmem] at hget
      exact ⟨_, hget, hstat, rfl⟩
    · rw [if_neg hmem] at hget
      exact ⟨_, hget, hstat, hresv⟩
  | @received slate now draws q _ hrecv =>
    refine hsame ?_
    rw [hrecv.state]
    exact get_of_insert hrecv.stored hout
  | @bounced sink slateHash now slate idx e hpos herr => exact absurd herr (haccd sink slateHash now e rfl)
  | @cancelled slateHash now slate idx hpos =>
    refine hsame (get_discard_of_canonical slate.producedOutput ?_ hstat)
    rw [OutputStore.get_releaseAll, if_neg (hcancel slateHash now slate idx rfl hpos), hout]
  | @reconciled view now _ =>
    refine ⟨Wallet.reconciled view now out, ?_, (remains_reconciled view now out).status hstat, ?_⟩
    · show (s.outputs.reconciled view now).get c = _
      rw [OutputStore.get_reconciled, hout]
      rfl
    · unfold StoredOutput.isReserved
      rw [reservedFor_reconciled]
      exact hresv

/-! ## One call -/

theorem claims_modifySlate (h : Claims (s.modifySlate idx f) i c)
    (hf : ∀ p, s.pendingSlates[idx]? = some p → (f p).status ≠ .Canceled → c ∈ (f p).reservedInputs →
      p.status ≠ .Canceled ∧ c ∈ p.reservedInputs) : Claims s i c := by
  obtain ⟨p, hp, hlive, hc⟩ := h
  rw [getElem?_modifySlate] at hp
  split at hp
  · rename_i hidx
    subst hidx
    obtain ⟨q, hq, rfl⟩ := Option.map_eq_some_iff.mp hp
    exact ⟨q, hq, hf q hq hlive hc⟩
  · exact ⟨p, hp, hlive, hc⟩

theorem claims_push {q : PendingSlate} (h : Claims { s with pendingSlates := s.pendingSlates ++ [q] } i c) :
    Claims s i c ∨ i = s.pendingSlates.length ∧ c ∈ q.reservedInputs := by
  obtain ⟨p, hp, hlive, hc⟩ := h
  have hp' : (s.pendingSlates ++ [q])[i]? = some p := hp
  by_cases hlt : i < s.pendingSlates.length
  · rw [List.getElem?_append_left hlt] at hp'
    exact .inl ⟨p, hp', hlive, hc⟩
  · rw [List.getElem?_append_right (Nat.le_of_not_lt hlt)] at hp'
    obtain rfl := List.mem_singleton.mp (List.mem_of_getElem? hp')
    have hidx := (List.getElem?_eq_some_iff.mp hp').1
    rw [List.length_singleton] at hidx
    exact .inr ⟨by omega, hc⟩

theorem Reserved.claims (h : Reserved X s) (heff : Effect X s a s') (hcare : Careful X s a) (hcl : Claims s' i c) :
    Claims s i c ∨ ∃ amount fee now draws p, ∃ _ : Sent X s amount fee now draws p s', i = s.pendingSlates.length ∧
      c ∈ p.reservedInputs := by
  cases heff with
  | refused | bounced | reconciled => exact .inl hcl
  | @sent amount fee now draws q _ hsent =>
    have hstate := hsent.state
    have hpsh : Claims { s with pendingSlates := s.pendingSlates ++ [q] } i c := by
      rw [hstate] at hcl
      exact hcl
    exact (claims_push hpsh).imp_right fun hnew => ⟨amount, fee, now, draws, q, hsent, hnew⟩
  | @received slate now draws q _ hrecv =>
    have hpsh : Claims { s with pendingSlates := s.pendingSlates ++ [q] } i c := by
      rw [hrecv.state] at hcl
      exact hcl
    rcases claims_push hpsh with hold | ⟨-, hmem⟩
    · exact .inl hold
    · rw [hrecv.pending] at hmem
      exact (List.not_mem_nil hmem).elim
  | @finalized answered bytes txBytes slate idx excess nonce tx hbyt hpos hsecs htx hser =>
    refine .inl (claims_modifySlate hcl fun p hp _ hc => ⟨?_, hc⟩)
    obtain ⟨hsl, -, -⟩ := position_eq_some hpos
    rw [hsl] at hp
    cases hp
    exact hcare.finalize answered bytes slate idx excess nonce tx rfl hbyt hpos hsecs htx
  | @submitted sink slateHash now slate idx hpos hfin =>
    refine .inl (claims_modifySlate hcl fun p hp _ hc => ⟨fun hcan => ?_, hc⟩)
    obtain ⟨hsl, -, -⟩ := position_eq_some hpos
    rw [hsl] at hp
    cases hp
    -- a cancelled slate with a transaction has no inputs left
    have hnone := h.dropped slate (List.mem_of_getElem? hsl) hcan hfin
    have hc' : c ∈ slate.reservedInputs := hc
    rw [hnone] at hc'
    exact List.not_mem_nil hc'
  | cancelled =>
    exact .inl (claims_modifySlate (s := { s with outputs := _ }) hcl fun p _ hlive _ => absurd rfl hlive)

theorem Reserved.selected (h : Reserved X s) {amount fee : UInt64} {draws : SendDraws}
    (hsent : Sent X s amount fee now draws p s') (hc : c ∈ p.reservedInputs) : Held s' c ∧ ∀ j, ¬ Claims s j c := by
  obtain ⟨out, hget, hcfm, hfree⟩ := hsent.confirmed hc
  refine ⟨?_, fun j hcl => ?_⟩
  · have hresv := OutputStore.get_reserveAll hsent.outputs p.slateHash now p.reservedInputs c
    rw [if_pos hc, get_of_storeChange hsent.stored hget] at hresv
    rw [hsent.state]
    refine ⟨_, hresv, ?_, rfl⟩
    show out.status ≠ .Unconfirmed
    rw [hcfm]
    intro hcase
    cases hcase
  · obtain ⟨out', hout', -, hresv⟩ := h.held j _ hcl
    rw [hget] at hout'
    cases hout'
    rw [hfree] at hresv
    cases hresv

theorem dropped_next (h : Reserved X s) (heff : Effect X s a s') (hcare : Careful X s a) :
    ∀ p ∈ s'.pendingSlates, p.status = .Canceled → p.finalizedTx.isSome → p.reservedInputs = [] := by
  cases heff with
  | refused | bounced | reconciled => exact h.dropped
  | @sent _ _ _ _ q _ hnew | @received _ _ _ q _ hnew =>
    rw [hnew.state]
    refine List.forall_mem_append.mpr ⟨h.dropped, List.forall_mem_singleton.mpr fun hstat => ?_⟩
    rw [hnew.pending] at hstat
    cases hstat
  | finalized | submitted => exact forall_modifySlate h.dropped fun p _ hstat => by cases hstat
  | @cancelled slateHash now slate idx hpos =>
    refine forall_modifySlate (s := { s with outputs := _ }) h.dropped fun p hp _ hfin => ?_
    obtain ⟨hsl, -, -⟩ := position_eq_some hpos
    have hp' : s.pendingSlates[idx]? = some p := hp
    rw [hsl] at hp'
    cases hp'
    by_contra hne
    have hnone := (hcare.cancel slateHash now slate idx rfl hpos hne).1
    have hfin' : slate.finalizedTx.isSome := hfin
    rw [hnone] at hfin'
    cases hfin'

theorem not_claims_of_cancelled {slateHash : Hash256} {slate : PendingSlate}
    (hpos : s.position (fun p => p.slateHash = slateHash) = some (slate, i)) :
    ¬ Claims (next X s (.cancel slateHash now)) i c := by
  rintro ⟨p, hp, hlive, -⟩
  have hnext : next X s (.cancel slateHash now) =
      ({ s with outputs := discard (releaseAll s.outputs now slate.reservedInputs) slate.producedOutput }.modifySlate i
        ({ · with status := .Canceled })) := by
    show orElse s ((cancel s slateHash now).map fun s' => ((), s')) = _
    unfold cancel
    rw [hpos]
    rfl
  rw [hnext, getElem?_modifySlate, if_pos rfl] at hp
  obtain ⟨q, -, rfl⟩ := Option.map_eq_some_iff.mp hp
  exact hlive rfl

/-- **One call keeps the reservations.** -/
theorem Reserved.next (h : Reserved X s) (haccd : Accepted X s a) (hcare : Careful X s a) :
    Reserved X (next X s a) := by
  have heff := next_effect (X := X) s a
  refine ⟨heff.tracked h.tracked, fun i c hcl => ?_, fun i j c hi hj => ?_, dropped_next h heff hcare⟩
  · rcases h.claims heff hcare hcl with hold | ⟨amount, fee, now, draws, p, hsent, -, hc⟩
    · refine heff.held haccd (h.held i c hold) fun slateHash now slate idx hact hpos hmem => ?_
      -- a cancellation that releases the output is one of this slate, which then claims nothing
      obtain ⟨-, hothers⟩ := hcare.cancel slateHash now slate idx hact hpos (List.ne_nil_of_mem hmem)
      by_cases hidx : i = idx
      · subst hidx
        subst hact
        exact not_claims_of_cancelled hpos hcl
      · exact hothers i c hidx hold hmem
    · exact (h.selected hsent hc).1
  · rcases h.claims heff hcare hi with hold | ⟨_, _, _, _, p, hsent, rfl, hc⟩ <;>
      rcases h.claims heff hcare hj with hold' | ⟨_, _, _, _, p', hsent', rfl, hc'⟩
    · exact h.exclusive i j c hold hold'
    · exact absurd hold ((h.selected hsent' hc').2 i)
    · exact absurd hold' ((h.selected hsent hc).2 j)
    · rfl

/-! ## Cancelled slates -/

/-- The slate a step finalized, by its hash. -/
def finalizedHash (X : Externals) (t : Step WalletV2State Action) : Option Hash256 :=
  match t.action with
  | .finalize answered => (finalizeTracked X t.before answered).toOption.map fun r => r.1.2
  | _ => none

/-- The slate a step cancelled, by its hash. -/
def cancelledHash (t : Step WalletV2State Action) : Option Hash256 :=
  match t.action with
  | .cancel slateHash now => (cancel t.before slateHash now).toOption.map fun _ => slateHash
  | _ => none

def Ended (p : PendingSlate) : Prop := p.status = .Canceled ∨ p.secrets = none ∨ p.role = .Receiver

/-- The slate that a hash names has ended. -/
def EndedName (s : WalletV2State) (slateHash : Hash256) : Prop :=
  ∃ (i : Nat) (p : PendingSlate), s.pendingSlates[i]? = some p ∧ p.slateHash = slateHash ∧ Ended p ∧
    ∀ (j : Nat) (q : PendingSlate), j < i → s.pendingSlates[j]? = some q → q.slateHash ≠ slateHash

theorem ended_modifySlate
    (hp : s.pendingSlates[i]? = some p) (hend : Ended p) (hf : s.pendingSlates[idx]? = some p → Ended (f p)) :
    ∃ p', (s.modifySlate idx f).pendingSlates[i]? = some p' ∧ Ended p' := by
  rw [getElem?_modifySlate, hp]
  split
  · rename_i hidx
    exact ⟨f p, rfl, hf (hidx ▸ hp)⟩
  · exact ⟨p, rfl, hend⟩

/-- **A slate that has ended stays so.** -/
theorem Effect.ended (h : Effect X s a s') (htrk : ∀ p ∈ s.pendingSlates, Tracked X p)
    (hp : s.pendingSlates[i]? = some p) (hend : Ended p) : ∃ p', s'.pendingSlates[i]? = some p' ∧ Ended p' := by
  cases h with
  | refused | bounced | reconciled => exact ⟨p, hp, hend⟩
  | @sent _ _ _ _ q _ hnew | @received _ _ _ q _ hnew =>
    rw [hnew.state]
    exact ⟨p, pendingSlates_push hp q, hend⟩
  | finalized => exact ended_modifySlate hp hend fun _ => .inr (.inl rfl)
  | @submitted sink slateHash now slate idx hpos hfin =>
    refine ended_modifySlate hp hend fun hidx => .inr (.inl ?_)
    obtain ⟨hsl, -, -⟩ := position_eq_some hpos
    obtain rfl : slate = p := Option.some.inj (hsl.symm.trans hidx)
    exact (htrk slate (List.mem_of_getElem? hsl)).wiped hfin
  | cancelled => exact ended_modifySlate (s := { s with outputs := _ }) hp hend fun _ => .inl rfl

theorem EndedName.next {slateHash : Hash256} (h : EndedName s slateHash) (htrk : ∀ p ∈ s.pendingSlates, Tracked X p) :
    EndedName (next X s a) slateHash := by
  have heff := next_effect (X := X) s a
  obtain ⟨i, p, hp, hhash, hend, hfst⟩ := h
  obtain ⟨p', hp', hcont⟩ := heff.continues hp
  obtain ⟨p'', hp'', hend'⟩ := heff.ended htrk hp hend
  rw [hp'] at hp''
  cases hp''
  refine ⟨i, p', hp', hcont.slateHash.trans hhash, hend', fun j q' hj hq' => ?_⟩
  -- the slates before it were there, with the hashes they have now
  have hlt : j < s.pendingSlates.length := hj.trans (List.getElem?_eq_some_iff.mp hp).1
  obtain ⟨q'', hq'', hcont'⟩ := heff.continues (List.getElem?_eq_getElem hlt)
  rw [hq'] at hq''
  cases hq''
  rw [hcont'.slateHash]
  exact hfst j _ hj (List.getElem?_eq_getElem hlt)

theorem endedName_of_cancelled {slateHash : Hash256} (h : cancelledHash ⟨s, a, next X s a⟩ = some slateHash) :
    EndedName (next X s a) slateHash := by
  unfold cancelledHash at h
  split at h
  · rename_i slateHash' now hact
    obtain rfl : a = .cancel slateHash' now := hact
    obtain ⟨s', hrun, rfl⟩ := Option.map_eq_some_iff.mp h
    have hrun' : cancel s slateHash' now = .ok s' := toOption_eq_some.mp hrun
    have hnext : next X s (.cancel slateHash' now) = s' := by
      show orElse s ((cancel s slateHash' now).map fun s' => ((), s')) = s'
      rw [hrun']
      rfl
    rw [hnext]
    simp only [cancel, inversion, Prod.exists] at hrun'
    obtain ⟨slate, idx, hpos, rfl⟩ := hrun'
    obtain ⟨hsl, hfnd, hfst⟩ := position_eq_some hpos
    refine ⟨idx, { slate with status := .Canceled }, ?_, of_decide_eq_true hfnd, .inl rfl, fun j q hj hq => ?_⟩
    · rw [getElem?_modifySlate, if_pos rfl]
      show s.pendingSlates[idx]?.map _ = _
      rw [hsl]
      rfl
    · rw [getElem?_modifySlate, if_neg (by omega)] at hq
      exact of_decide_eq_false (hfst j q hj hq)
  · cases h

theorem finalization_of_finalizedHash {slateHash : Hash256} (h : finalizedHash X ⟨s, a, next X s a⟩ = some slateHash) :
    ∃ tx, ∃ hfin : Finalization X s a tx, slateHash = X.blake2b256 hfin.bytes := by
  unfold finalizedHash at h
  split at h
  · rename_i answered hact
    obtain rfl : a = .finalize answered := hact
    obtain ⟨⟨⟨tx, hash⟩, s'⟩, hrun, rfl⟩ := Option.map_eq_some_iff.mp h
    have hrtn : returned X ⟨s, .finalize answered, next X s (.finalize answered)⟩ = some tx :=
      Option.map_eq_some_iff.mpr ⟨_, hrun, rfl⟩
    obtain ⟨hfin⟩ := finalization_of_returned hrtn
    have hans : answered = hfin.answered := Action.finalize.inj hfin.action
    have hres := toOption_eq_some.mp hrun
    rw [hans] at hres
    have hsame := Except.ok.inj (hres.symm.trans hfin.result)
    exact ⟨tx, hfin, congrArg (fun r => r.1.2) hsame⟩
  · cases h

theorem EndedName.not_finalized {slateHash : Hash256}
    (h : EndedName r.state slateHash) (htrk : ∀ p ∈ r.state.pendingSlates, Tracked X p)
    (hcare : Careful X r.state a) (hfree : CollisionFree X (r.record (Wallet.next X) a)) :
    finalizedHash X ⟨r.state, a, Wallet.next X r.state a⟩ ≠ some slateHash := by
  intro hfinalized
  obtain ⟨tx, hfin, rfl⟩ := finalization_of_finalizedHash hfinalized
  obtain ⟨i, p, hp, hhash, hend, hfst⟩ := h
  obtain ⟨hname, hsnr⟩ := hfin.found
  cases hrole : p.role with
  | Sender =>
    -- the first slate of that name is the one that is finalized
    have hle : ¬ hfin.idx < i := fun hlt => hfst hfin.idx hfin.slate hlt hfin.pending hname
    have hge : ¬ i < hfin.idx := by
      intro hlt
      have hskipped := (position_eq_some hfin.position).2.2 i p hlt hp
      exact of_decide_eq_false hskipped ⟨hhash, hrole⟩
    have hidx : i = hfin.idx := by omega
    have hsame : some p = some hfin.slate := by rw [← hp, hidx, hfin.pending]
    obtain rfl := Option.some.inj hsame
    rcases hend with hcan | hwpd | hrcvr
    · exact hcare.finalize _ _ _ _ _ _ tx hfin.action hfin.encoded hfin.position hfin.secrets
        hfin.transaction hcan
    · rw [hfin.secrets] at hwpd
      cases hwpd
    · rw [hsnr] at hrcvr
      cases hrcvr
  | Receiver =>
    -- an answered slate is not encoded as an unanswered one
    obtain ⟨-, -, slate, hsl, hans⟩ := (htrk p (List.mem_of_getElem? hp)).receiver hrole
    have hbyt : hfin.bytes = p.slateBytes := by
      refine hfree.looked_up hfin (List.mem_of_getElem? hp) ?_
      rw [← hhash]
      exact (htrk p (List.mem_of_getElem? hp)).slateHash
    have hsls : senderPhaseSlate hfin.answered = slate := Slate.serialize_inj hfin.encoded (hbyt ▸ hsl)
    rw [← hsls] at hans
    cases hans

/-! ## Runs -/

structure Spends (X : Externals) (r : Lib.Recorded WalletV2State Action) : Prop where
  reserved : Reserved X r.state
  kept : ∀ t ∈ r.history, ∀ tx, returned X t = some tx → ∃ (i : Nat) (p : PendingSlate), r.state.pendingSlates[i]? = some p ∧
    p.finalizedTx.isSome ∧ tx.inputs = p.reservedInputs
  ended : ∀ t ∈ r.history, ∀ slateHash, cancelledHash t = some slateHash → EndedName r.state slateHash
  apart : (r.history.filterMap (returned X)).Pairwise fun tx tx' => ∀ c ∈ tx.inputs, c ∉ tx'.inputs
  ordered : r.history.Pairwise fun later earlier => ∀ slateHash, cancelledHash earlier = some slateHash →
    finalizedHash X later ≠ some slateHash

theorem Spends.apart_of_finalization (h : Spends X r) (hcare : Careful X r.state a)
    {tx tx' : Transaction} (hfin : Finalization X r.state a tx) (hins : tx.inputs = hfin.slate.reservedInputs)
    {t : Step WalletV2State Action} (ht : t ∈ r.history) (htx' : returned X t = some tx') :
    ∀ c ∈ tx.inputs, c ∉ tx'.inputs := by
  obtain ⟨i, p, hp, hsome, hins'⟩ := h.kept t ht tx' htx'
  intro c hc hc'
  rw [hins] at hc
  rw [hins'] at hc'
  have hlive := hcare.finalize _ _ _ _ _ _ tx hfin.action hfin.encoded hfin.position hfin.secrets
    hfin.transaction
  have hcl : Claims r.state hfin.idx c := ⟨hfin.slate, hfin.pending, hlive, hc⟩
  have hp' := List.mem_of_getElem? hp
  -- the earlier slate is alive as well, and is another one, since its secrets are gone
  have hlive' : p.status ≠ .Canceled := by
    intro hcan
    rw [h.reserved.dropped p hp' hcan hsome] at hc'
    exact List.not_mem_nil hc'
  have hidx := h.reserved.exclusive hfin.idx i c hcl ⟨p, hp, hlive', hc'⟩
  have hsame : p = hfin.slate := Option.some.inj (by rw [← hp, ← hidx, hfin.pending])
  have hwpd := (h.reserved.tracked p hp').wiped hsome
  rw [hsame, hfin.secrets] at hwpd
  cases hwpd

theorem Spends.record (h : Spends X r) (haccd : Accepted X r.state a)
    (hcare : Careful X r.state a) (hfree : CollisionFree X (r.record (next X) a)) : Spends X (r.record (next X) a) := by
  have heff := next_effect (X := X) r.state a
  have hins : ∀ tx, ∀ hfin : Finalization X r.state a tx, tx.inputs = hfin.slate.reservedInputs := fun tx hfin =>
    (hfin.of_tracked (h.reserved.tracked _ (List.mem_of_getElem? hfin.pending)) (hfree.finalization hfin)).2.1
  refine ⟨h.reserved.next haccd hcare, List.forall_mem_cons.mpr ⟨fun tx htx => ?_, fun t ht tx htx => ?_⟩,
    List.forall_mem_cons.mpr ⟨fun slateHash => endedName_of_cancelled, fun t ht slateHash hcan => ?_⟩, ?_,
    List.pairwise_cons.mpr ⟨fun t ht slateHash hcan => ?_, h.ordered⟩⟩
  · obtain ⟨hfin⟩ := finalization_of_returned htx
    exact ⟨hfin.idx, _, hfin.after_idx, rfl, hins tx hfin⟩
  · obtain ⟨i, p, hp, hsome, hins'⟩ := h.kept t ht tx htx
    obtain ⟨p', hp', hcont⟩ := heff.continues hp
    exact ⟨i, p', hp', hcont.finalizedTx hsome, hins'.trans hcont.reservedInputs.symm⟩
  · exact (h.ended t ht slateHash hcan).next h.reserved.tracked
  · show (List.filterMap (returned X) (⟨r.state, a, next X r.state a⟩ :: r.history)).Pairwise _
    rw [List.filterMap_cons]
    split
    · exact h.apart
    · rename_i tx htx
      refine List.pairwise_cons.mpr ⟨fun tx' htx' => ?_, h.apart⟩
      obtain ⟨t, ht, hrtn⟩ := List.mem_filterMap.mp htx'
      obtain ⟨hfin⟩ := finalization_of_returned htx
      exact h.apart_of_finalization hcare hfin (hins tx hfin) ht hrtn
  · exact (h.ended t ht slateHash hcan).not_finalized h.reserved.tracked hcare hfree

/-- **No self double-spend.**  In a run without submission errors whose calls respect the life of slates, two returned
    transactions spend different outputs, and a slate that was cancelled is not finalized any more. -/
theorem returned_apart {r : Lib.Recorded WalletV2State Action}
    (hrun : Lib.Recorded.Run Fresh (fun s a => Accepted X s a ∧ Careful X s a) (next X) r) (hfree : CollisionFree X r) :
    (r.history.filterMap (returned X)).Pairwise (fun tx tx' => ∀ c ∈ tx.inputs, c ∉ tx'.inputs) ∧
      r.history.Pairwise fun later earlier => ∀ slateHash, cancelledHash earlier = some slateHash →
        finalizedHash X later ≠ some slateHash := by
  have hspends := Reach.invariant (P := fun r => CollisionFree X r → Spends X r) ?_ ?_ hrun hfree
  · exact ⟨hspends.apart, hspends.ordered⟩
  · rintro ⟨s, history⟩ ⟨hfresh, rfl⟩ -
    refine ⟨⟨fun p hp => absurd hp (hfresh.notMem p), ?_, ?_, fun p hp => absurd hp (hfresh.notMem p)⟩,
      fun t ht => (List.not_mem_nil ht).elim, fun t ht => (List.not_mem_nil ht).elim, .nil, .nil⟩
    · rintro i c ⟨p, hp, -⟩
      exact absurd (List.mem_of_getElem? hp) (hfresh.notMem p)
    · rintro i j c ⟨p, hp, -⟩
      exact absurd (List.mem_of_getElem? hp) (hfresh.notMem p)
  · rintro r a ih ⟨haccepted, hcareful⟩ hfree
    exact (ih hfree.of_record).record haccepted hcareful hfree

/-! ## The small wallet -/

namespace SmallWallet

def laterDraws : SendDraws := ⟨⟨1001, by decide⟩, ⟨8, by decide⟩, ⟨12, by decide⟩⟩

/-- Cancel the first send after it was finalized, send again and finalize that too. -/
def respent : List Action :=
  let before := [send draws, .finalize answered, .cancel slateHash 2001]
  before ++ [send laterDraws, .finalize ((answer (run before).state laterDraws).toOption.getD unanswered)]

/-- Cancel the first send and finalize it. -/
def revived : List Action := [send draws, .cancel slateHash 2001, .finalize answered]

def isSubmission : Action → Bool
  | .submitFinalized _ _ _ => true
  | _ => false

theorem accepted_of_all (h : (actions.all fun a => !isSubmission a) = true) :
    ∀ a ∈ actions, ∀ s, Accepted libraries s a := by
  intro a ha s sink slateHash now _ hact
  have hnot := List.all_eq_true.mp h a ha
  rw [hact] at hnot
  cases hnot

/-- Cancel the first send, send again and finalize the second. -/
def replaced : List Action :=
  let before := [send draws, .cancel slateHash 2001]
  before ++ [send laterDraws, .finalize ((answer (run before).state laterDraws).toOption.getD unanswered)]

theorem careful_of_createSend {s : WalletV2State} {amount fee : UInt64} {draws : SendDraws} :
    Careful libraries s (.createSend amount fee now draws) := by
  refine ⟨?_, ?_⟩
  · intro _ _ _ _ hact
    cases hact
  · intro _ _ _ _ _ _ _ hact
    cases hact

theorem careful_of_cancel {s : WalletV2State} {slateHash : Hash256} (hlen : s.pendingSlates.length = 1)
    (hnone : (s.pendingSlates.all fun p => p.finalizedTx.isNone) = true) : Careful libraries s (.cancel slateHash now) := by
  refine ⟨?_, ?_⟩
  · intro _ _ slate idx _ hpos _
    obtain ⟨hsl, -, -⟩ := position_eq_some hpos
    refine ⟨Option.isNone_iff_eq_none.mp (List.all_eq_true.mp hnone slate (List.mem_of_getElem? hsl)), ?_⟩
    rintro j c hne ⟨q, hq, -⟩
    have hidx := (List.getElem?_eq_some_iff.mp hsl).1
    have hj := (List.getElem?_eq_some_iff.mp hq).1
    omega
  · intro _ _ _ _ _ _ _ hact
    cases hact

theorem careful_of_finalize {s : WalletV2State} {answered : Slate}
    (h : (((senderPhaseSlate answered).serialize.toOption.bind fun bytes =>
      s.position fun p => p.slateHash = libraries.blake2b256 bytes ∧ p.role = .Sender).all fun found =>
        found.1.status ≠ .Canceled) = true) : Careful libraries s (.finalize answered) := by
  refine ⟨?_, ?_⟩
  · intro _ _ _ _ hact
    cases hact
  · intro _ bytes slate idx _ _ _ hact hbyt hpos _ _
    cases hact
    rw [toOption_eq_some.mpr hbyt, Option.bind_some, hpos] at h
    exact of_decide_eq_true h

theorem run_of_accepted (h : ∀ a ∈ actions, ∀ s, Accepted libraries s a) :
    Lib.Recorded.Run Fresh (Accepted libraries) (next libraries) (run actions) :=
  Reach.foldl (fun a ha r => h a ha r.state) (.start ⟨fresh_start, rfl⟩)

end SmallWallet

open SmallWallet

/-- A slate that is cancelled after it was finalized gives its input to another transaction, and a slate that was cancelled
    before can still be finalized. -/
theorem input_spent_twice :
    (∃ r, Lib.Recorded.Run Fresh (Accepted SmallWallet.libraries) (next SmallWallet.libraries) r ∧
      CollisionFree SmallWallet.libraries r ∧
      ∃ tx tx', r.history.filterMap (returned SmallWallet.libraries) = [tx', tx] ∧ tx ≠ tx' ∧
        tx.inputs = [SmallWallet.coin.commitment] ∧ tx'.inputs = [SmallWallet.coin.commitment]) ∧
    ∃ r, Lib.Recorded.Run Fresh (Accepted SmallWallet.libraries) (next SmallWallet.libraries) r ∧
      CollisionFree SmallWallet.libraries r ∧ r.history.filterMap cancelledHash = [SmallWallet.slateHash] ∧
      r.history.head?.bind (finalizedHash SmallWallet.libraries) = some SmallWallet.slateHash := by
  have hlist : ∀ l : List Transaction, l.length = 2 ∧ l.Nodup ∧ (l.all fun tx => tx.inputs = [coin.commitment]) = true →
      ∃ tx tx', l = [tx', tx] ∧ tx ≠ tx' ∧ tx.inputs = [coin.commitment] ∧
        tx'.inputs = [coin.commitment] := by
    rintro l ⟨hlen, hnodup, hall⟩
    obtain ⟨tx', tx, rfl⟩ := List.length_eq_two.mp hlen
    have hinputs := List.all_eq_true.mp hall
    refine ⟨tx, tx', rfl, ?_, of_decide_eq_true (hinputs tx ?_), of_decide_eq_true (hinputs tx' List.mem_cons_self)⟩
    · rintro rfl
      exact (List.nodup_cons.mp hnodup).1 List.mem_cons_self
    · exact List.mem_cons_of_mem _ List.mem_cons_self
  refine ⟨⟨run respent, run_of_accepted (accepted_of_all rfl), ?_, hlist _ ?_⟩,
    ⟨run revived, run_of_accepted (accepted_of_all rfl), ?_, ?_, ?_⟩⟩
  · exact collisionFree_of_all (by decide +kernel)
  · decide +kernel
  · exact collisionFree_of_all (by decide +kernel)
  · decide +kernel
  · decide +kernel

/-- The replaced send of the small wallet. -/
theorem replaced_send_apart : ∃ r, Lib.Recorded.Run Fresh
      (fun s a => Accepted SmallWallet.libraries s a ∧ Careful SmallWallet.libraries s a) (next SmallWallet.libraries) r ∧
    CollisionFree SmallWallet.libraries r ∧ r.history.filterMap cancelledHash = [SmallWallet.slateHash] ∧
    (r.history.filterMap (returned SmallWallet.libraries)).length = 1 ∧
    (r.history.filterMap (returned SmallWallet.libraries)).Pairwise (fun tx tx' => ∀ c ∈ tx.inputs, c ∉ tx'.inputs) ∧
    r.history.Pairwise fun later earlier => ∀ slateHash, cancelledHash earlier = some slateHash →
      finalizedHash SmallWallet.libraries later ≠ some slateHash := by
  have hrun : Lib.Recorded.Run Fresh
      (fun s a => Accepted libraries s a ∧ Careful libraries s a) (next libraries)
      (run replaced) := by
    have haccepted : ∀ a ∈ replaced, ∀ s, Accepted libraries s a :=
      accepted_of_all rfl
    simp only [replaced, List.cons_append, List.nil_append, List.forall_mem_cons] at haccepted
    obtain ⟨hfirst, hsecond, hthird, hfourth, -⟩ := haccepted
    refine Lib.Recorded.Run.step (Lib.Recorded.Run.step (Lib.Recorded.Run.step (Lib.Recorded.Run.step
      (Lib.Recorded.Run.start fresh_start) ⟨hfirst _, careful_of_createSend⟩)
      ⟨hsecond _, careful_of_cancel ?_ ?_⟩) ⟨hthird _, careful_of_createSend⟩)
      ⟨hfourth _, careful_of_finalize ?_⟩
    · decide +kernel
    · decide +kernel
    · decide +kernel
  have hfree : CollisionFree libraries (run replaced) :=
    collisionFree_of_all (by decide +kernel)
  obtain ⟨hapart, hordered⟩ := returned_apart hrun hfree
  exact ⟨_, hrun, hfree, by decide +kernel, by decide +kernel, hapart, hordered⟩

end DomProtocol.Wallet
