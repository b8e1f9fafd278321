import DomProtocol.Wallet.Spending

/-!
# `Wallet.Reservations` — whom the reservation of an output belongs to

A reserved output names a living slate that lists it.  A release goes by the list of the slate that ends, not by the name on
the output: after a refused submission the outputs of a slate are free for another one, and cancelling the first slate then
takes them from the second.
-/

namespace DomProtocol.Wallet

open Lib

variable {X : Externals} {s s' : WalletV2State} {a : Action} {p : PendingSlate} {c : Commitment}

/-! ## Every reservation is backed by a slate -/

/-- A wallet before its first payment. -/
def Unreserved (s : WalletV2State) : Prop := s.pendingSlates = [] ∧ ∀ out ∈ s.outputs.outputs, out.reservedFor = none

/-- A pending slate has this name, lists the output and is not cancelled. -/
def Lists (s : WalletV2State) (slateHash : Hash256) (c : Commitment) : Prop :=
  ∃ p ∈ s.pendingSlates, p.slateHash = slateHash ∧ c ∈ p.reservedInputs ∧ p.status ≠ .Canceled

/-- The output was canonical once, and its reservation names a slate that lists it. -/
def Backed (s : WalletV2State) : Prop :=
  ∀ c out slateHash, s.outputs.get c = some out → out.reservedFor = some slateHash →
    out.status ≠ .Unconfirmed ∧ Lists s slateHash c

theorem Lists.modifySlate {slateHash : Hash256} {idx : Nat} {f : PendingSlate → PendingSlate} (h : Lists s slateHash c)
    (hf : ∀ p, s.pendingSlates[idx]? = some p → c ∈ p.reservedInputs →
      (f p).slateHash = p.slateHash ∧ (f p).reservedInputs = p.reservedInputs ∧ (f p).status ≠ .Canceled) :
    Lists (s.modifySlate idx f) slateHash c := by
  obtain ⟨p, hp, rfl, hc, hlive⟩ := h
  obtain ⟨i, hi⟩ := List.mem_iff_getElem?.mp hp
  have hget := getElem?_modifySlate s idx i f
  rw [hi] at hget
  by_cases hidx : idx = i
  · subst hidx
    obtain ⟨hhash, hins, hlive'⟩ := hf p hi hc
    rw [if_pos rfl] at hget
    exact ⟨f p, List.mem_of_getElem? hget, hhash, hins ▸ hc, hlive'⟩
  · rw [if_neg hidx] at hget
    exact ⟨p, List.mem_of_getElem? hget, rfl, hc, hlive⟩

theorem Lists.push {slateHash : Hash256} (h : Lists s slateHash c) {outputs : OutputStore} (q : PendingSlate) :
    Lists { s with outputs := outputs, pendingSlates := s.pendingSlates ++ [q] } slateHash c := by
  obtain ⟨p, hp, hlist⟩ := h
  exact ⟨p, List.mem_append_left _ hp, hlist⟩

/-- A record that is still reserved after a release was not listed. -/
theorem reserved_of_releaseAll {outputs : OutputStore} {now : Nat} {reserved : List Commitment} {out : StoredOutput}
    {slateHash : Hash256} (hout : (releaseAll outputs now reserved).get c = some out)
    (hresv : out.reservedFor = some slateHash) : outputs.get c = some out ∧ c ∉ reserved := by
  rw [OutputStore.get_releaseAll] at hout
  split at hout
  · obtain ⟨old, -, rfl⟩ := Option.map_eq_some_iff.mp hout
    cases hresv
  · exact ⟨hout, ‹_›⟩

theorem Backed.effect (h : Backed s) (heff : Effect X s a s') : Backed s' := by
  intro c out slateHash hout hresv
  cases heff with
  | refused => exact h c out slateHash hout hresv
  | finalized | submitted =>
    exact (h c out slateHash hout hresv).imp_right (·.modifySlate fun p _ _ => ⟨rfl, rfl, by simp⟩)
  | @sent _ _ now _ q _ hsent =>
    rw [hsent.state] at hout ⊢
    rw [OutputStore.get_reserveAll] at hout
    by_cases hc : c ∈ q.reservedInputs
    · -- a selected output is a confirmed one, and the new slate lists it
      rw [if_pos hc] at hout
      obtain ⟨old, hold, rfl⟩ := Option.map_eq_some_iff.mp hout
      cases hresv
      obtain ⟨taken, htkn, hcfm, -⟩ := hsent.confirmed hc
      rw [get_of_storeChange hsent.stored htkn] at hold
      cases hold
      refine ⟨?_, q, List.mem_append_right _ (List.mem_singleton_self q), rfl, hc, by rw [hsent.pending]; simp⟩
      show old.status ≠ .Unconfirmed
      simp [hcfm]
    · rw [if_neg hc] at hout
      rcases stored_of_storeChange hsent.stored hout with hold | ⟨m, -, rfl⟩
      · exact (h c out slateHash hold hresv).imp_right (·.push q)
      · cases hresv
  | @received _ _ _ q _ hrecv =>
    rw [hrecv.state] at hout ⊢
    rcases stored_of_insert hrecv.stored hout with hold | rfl
    · exact (h c out slateHash hold hresv).imp_right (·.push q)
    · cases hresv
  | bounced => exact h c out slateHash (reserved_of_releaseAll hout hresv).1 hresv
  | @cancelled _ _ slate idx hpos =>
    obtain ⟨hold, hfree⟩ := reserved_of_releaseAll (get_of_discard hout) hresv
    obtain ⟨hstat, hlist⟩ := h c out slateHash hold hresv
    -- the slate that ends does not list the output, so it is not the one that backs it
    refine ⟨hstat, Lists.modifySlate (s := { s with outputs := _ }) hlist fun p hp hc => ?_⟩
    cases (position_eq_some hpos).1.symm.trans hp
    exact absurd hc hfree
  | @reconciled view now _ =>
    have hget : (s.outputs.reconciled view now).get c = some out := hout
    rw [OutputStore.get_reconciled] at hget
    obtain ⟨old, hold, rfl⟩ := Option.map_eq_some_iff.mp hget
    rw [reservedFor_reconciled] at hresv
    obtain ⟨hstat, hlist⟩ := h c old slateHash hold hresv
    exact ⟨(remains_reconciled view now old).status hstat, hlist⟩

theorem backed (h : Lib.Reach Unreserved (fun _ _ => True) (next X) s) : Backed s := by
  refine h.invariant ?_ fun s a hs _ => hs.effect (next_effect s a)
  rintro s ⟨-, hfree⟩ c out slateHash hout hresv
  rw [hfree out (OutputStore.get_eq_some.mp hout).1] at hresv
  cases hresv

/-! ## What the end of a slate releases -/

/-- The call cancels the slate, or submits its transaction and the node refuses it. -/
def Ends (X : Externals) (s : WalletV2State) (p : PendingSlate) : Action → Prop
  | .cancel slateHash _ => ∃ idx, s.position (fun p => p.slateHash = slateHash) = some (p, idx)
  | .submitFinalized sink slateHash _ => ∃ tx idx e, finalizedTransaction X s slateHash = .ok (tx, p, idx) ∧ sink tx = .error e
  | _ => False

/-- Every reservation for another slate is still there. -/
def Spares (s : WalletV2State) (p : PendingSlate) (s' : WalletV2State) : Prop :=
  ∀ c out slateHash, s.outputs.get c = some out → out.reservedFor = some slateHash → slateHash ≠ p.slateHash →
    ∃ out', s'.outputs.get c = some out' ∧ out'.reservedFor = some slateHash

/-- What the slate lists is reserved for it or for none. -/
def OnlyOwn (s : WalletV2State) (p : PendingSlate) : Prop :=
  ∀ c ∈ p.reservedInputs, ∀ out slateHash, s.outputs.get c = some out → out.reservedFor = some slateHash →
    slateHash = p.slateHash

theorem Ends.outputs (h : Ends X s p a) :
    ∃ now produced, (next X s a).outputs = discard (releaseAll s.outputs now p.reservedInputs) produced := by
  cases a with
  | cancel slateHash now =>
    obtain ⟨idx, hpos⟩ := h
    have hrun : next X s (.cancel slateHash now) = { s with
        outputs := discard (releaseAll s.outputs now p.reservedInputs) p.producedOutput }.modifySlate idx
          ({ · with status := .Canceled }) := by
      simp only [next, cancel, hpos]
      rfl
    exact ⟨now, p.producedOutput, by rw [hrun]; rfl⟩
  | submitFinalized sink slateHash now =>
    obtain ⟨tx, idx, e, hfnd, hsink⟩ := h
    refine ⟨now, none, ?_⟩
    simp only [next, submitFinalized, hfnd, hsink]
    rfl
  | _ => exact h.elim

theorem Backed.spares_iff (h : Backed s) (hends : Ends X s p a) : Spares s p (next X s a) ↔ OnlyOwn s p := by
  obtain ⟨now, produced, hafter⟩ := hends.outputs
  constructor
  · intro hspr c hc out slateHash hout hresv
    by_contra hne
    obtain ⟨out', hout', hresv'⟩ := hspr c out slateHash hout hresv hne
    rw [hafter] at hout'
    exact (reserved_of_releaseAll (get_of_discard hout') hresv').2 hc
  · intro hown c out slateHash hout hresv hne
    rw [hafter]
    refine ⟨out, get_discard_of_canonical produced ?_ (h c out slateHash hout hresv).1, hresv⟩
    rw [OutputStore.get_releaseAll, if_neg fun hc => hne (hown c hc out slateHash hout hresv), hout]

/-- **Every reservation is backed**, and the end of a slate leaves the reservations of the others exactly when none of them is
    on an output that it lists. -/
theorem reservations_owned (h : Lib.Reach Unreserved (fun _ _ => True) (next X) s) :
    (∀ c out slateHash, s.outputs.get c = some out → out.reservedFor = some slateHash → Lists s slateHash c) ∧
      ∀ p a, Ends X s p a → (Spares s p (next X s a) ↔ OnlyOwn s p) :=
  ⟨fun c out slateHash hout hresv => (backed h c out slateHash hout hresv).2, fun _ _ => (backed h).spares_iff⟩

open SmallWallet

theorem unreserved_start : Unreserved start := ⟨rfl, List.forall_mem_singleton.mpr rfl⟩

theorem first_reservation_owned : ∃ s, Lib.Reach Unreserved (fun _ _ => True) (next SmallWallet.libraries) s ∧
    (s.outputs.get SmallWallet.coin.commitment).any (·.isReserved) = true ∧
    ∀ out slateHash, s.outputs.get SmallWallet.coin.commitment = some out → out.reservedFor = some slateHash →
      Lists s slateHash SmallWallet.coin.commitment :=
  ⟨_, .step (.start unreserved_start) (send draws) trivial, by decide +kernel,
    (reservations_owned (.step (.start unreserved_start) (send draws) trivial)).1 coin.commitment⟩

/-- The node refuses the transaction of a slate, another slate reserves the output, and cancelling the first one frees it. -/
theorem reservation_taken : ∃ s p a, Lib.Reach Unreserved (fun _ _ => True) (next SmallWallet.libraries) s ∧
    Ends SmallWallet.libraries s p a ∧ ¬ Spares s p (next SmallWallet.libraries s a) := by
  let s := [send draws, .finalize answered, .submitFinalized (fun _ => .error "refused") slateHash 2001,
    send laterDraws].foldl (next libraries) start
  have hrun : Lib.Reach Unreserved (fun _ _ => True) (next libraries) s :=
    Reach.foldl (fun _ _ _ => trivial) (.start unreserved_start)
  have hpos : ((s.position fun p => p.slateHash = slateHash).any fun found => coin.commitment ∈ found.1.reservedInputs ∧
      (s.outputs.get coin.commitment).any fun out => out.reservedFor.any (· ≠ found.1.slateHash)) = true := by
    decide +kernel
  obtain ⟨⟨p, idx⟩, hp, hc⟩ := (Option.any_eq_true _ _).mp hpos
  obtain ⟨hmem, hany⟩ := of_decide_eq_true hc
  obtain ⟨out, hout, hresv⟩ := (Option.any_eq_true _ _).mp hany
  obtain ⟨hash, hhash, hne⟩ := (Option.any_eq_true _ _).mp hresv
  have hends : Ends libraries s p (.cancel slateHash 2002) := ⟨idx, hp⟩
  refine ⟨s, p, _, hrun, hends, fun hspr => ?_⟩
  exact of_decide_eq_true hne (((backed hrun).spares_iff hends).mp hspr _ hmem out hash hout hhash)

end DomProtocol.Wallet
