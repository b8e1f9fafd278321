import DomProtocol.Wallet.History

/-!
# `Wallet.Retention` — the change of a returned transaction stays in the store

A cancellation decides from the status of the output alone whether it deletes the change of a slate, and a finalization does
not look whether the change is still there.  Where no call does either of the two, the change of every transaction that was
returned stays in the store with what opens it.
-/

namespace DomProtocol.Wallet

open Lib

variable {tx : Transaction} {r : Lib.Recorded WalletV2State Action}

variable {X : Externals} {s : WalletV2State} {a : Action}

/-- A call that forgets no change: a cancellation deletes no output that a finalized slate pays as change, and an answer that
    the slate's secrets can finalize comes only while the change is stored. -/
structure Retaining (X : Externals) (s : WalletV2State) (a : Action) : Prop where
  cancel : ∀ c, Deletes s a c → ∀ p ∈ s.pendingSlates, p.role = .Sender → p.finalizedTx.isSome → p.producedOutput ≠ some c
  finalize : ∀ answered bytes slate idx excess nonce tx, a = .finalize answered →
    (senderPhaseSlate answered).serialize = .ok bytes →
    s.position (fun p => p.slateHash = X.blake2b256 bytes ∧ p.role = .Sender) = some (slate, idx) →
    slate.secrets = some (.Sender excess nonce) → finalizeSlate X answered excess nonce s.chainId = .ok tx →
    ∀ c, slate.producedOutput = some c → (s.outputs.get c).isSome

/-- The stored change of sender slates opens its commitment. -/
def ChangeOpens (X : Externals) (s : WalletV2State) : Prop :=
  ∀ p ∈ s.pendingSlates, p.role = .Sender → ∀ c, p.producedOutput = some c → ∀ out, s.outputs.get c = some out → Opened X out

/-- The slate of a transaction that was returned: its change is stored. -/
def ChangeStored (s : WalletV2State) (tx : Transaction) : Prop :=
  ∃ (i : Nat) (p : PendingSlate), s.pendingSlates[i]? = some p ∧ p.role = .Sender ∧ p.finalizedTx.isSome ∧
    tx.outputs.dropLast.map (·.commitment) = p.producedOutput.toList ∧
    ∀ c, p.producedOutput = some c → (s.outputs.get c).isSome

theorem opened_change {amount fee : UInt64} {now : Nat} {draws : SendDraws} {p : PendingSlate} {s' : WalletV2State}
    (h : Sent X s amount fee now draws p s') {c : Commitment} (hc : p.producedOutput = some c) {out : StoredOutput}
    (hout : s'.outputs.get c = some out) : Opened X out := by
  rw [h.producedOutput] at hc
  obtain ⟨m, hm, rfl⟩ := Option.map_eq_some_iff.mp hc
  -- the change was not stored before, so its record is the one that was built
  have hsto := h.stored
  rw [hm] at hsto
  have hnone := (OutputStore.get_insert (mapError_eq_ok.mp hsto) m.commitment).1
  rcases (Effect.sent h).arises hout with ⟨old, hold, -⟩ | hopd
  · have hnone' : s.outputs.get m.commitment = none := hnone
    rw [hnone'] at hold
    cases hold
  · exact hopd

theorem ChangeOpens.next (h : ChangeOpens X s) : ChangeOpens X (next X s a) := by
  have heff := next_effect (X := X) s a
  generalize Wallet.next X s a = s' at heff ⊢
  intro p' hp' hrole c hc out hout
  -- a slate that was there before, whose change opens, or the slate of this call
  have hold : ∀ p ∈ s.pendingSlates, p.role = .Sender → p.producedOutput = some c → Opened X out := by
    intro p hp hrole hc
    rcases heff.arises hout with ⟨old, hold, hrms⟩ | hopd
    · exact (h p hp hrole c hc old hold).of_remains hrms hold hout
    · exact hopd
  obtain ⟨i, hi⟩ := List.mem_iff_getElem?.mp hp'
  cases hp : s.pendingSlates[i]? with
  | some p =>
    obtain ⟨p'', hp'', hcont⟩ := heff.continues hp
    rw [hi] at hp''
    cases hp''
    exact hold p (List.mem_of_getElem? hp) (hcont.role ▸ hrole) (hcont.producedOutput ▸ hc)
  | none =>
    rcases heff.appended hi hp with ⟨amount, fee, now, draws, -, ⟨hsent⟩⟩ | ⟨slate, now, draws, -, ⟨hrecv⟩⟩
    · exact opened_change hsent hc hout
    · have hrcvr : p'.role = .Receiver := by rw [hrecv.pending]
      rw [hrcvr] at hrole
      cases hrole

theorem ChangeStored.next (h : ChangeStored s tx) (hgd : Retaining X s a) :
    ChangeStored (next X s a) tx := by
  have heff := next_effect (X := X) s a
  generalize Wallet.next X s a = s' at heff ⊢
  obtain ⟨i, p, hp, hrole, hfin, houts, hsto⟩ := h
  obtain ⟨p', hp', hcont⟩ := heff.continues hp
  refine ⟨i, p', hp', hcont.role ▸ hrole, hcont.finalizedTx hfin, hcont.producedOutput ▸ houts, ?_⟩
  intro c hc
  rw [hcont.producedOutput] at hc
  have hdls : ¬ Deletes s a c := fun hdls => hgd.cancel c hdls p (List.mem_of_getElem? hp) hrole hfin hc
  obtain ⟨out, hout⟩ := Option.isSome_iff_exists.mp (hsto c hc)
  obtain ⟨out', hout', -⟩ := heff.kept hdls out hout
  rw [hout']
  rfl

theorem changeStored_of_finalization (h : Finalization X s a tx) (hgd : Retaining X s a)
    (houts : ∃ recipient, tx.outputs.map (·.commitment) = h.slate.producedOutput.toList ++ [recipient]) :
    ChangeStored (next X s a) tx := by
  obtain ⟨recipient, hrcp⟩ := houts
  refine ⟨h.idx, _, h.after_idx, h.found.2, rfl, ?_, fun c hc => ?_⟩
  · rw [List.map_dropLast, hrcp, List.dropLast_concat]
  · rw [h.state]
    exact hgd.finalize _ _ _ _ _ _ tx h.action h.encoded h.position h.secrets h.transaction c hc

/-- **Retention.**  In a run in which no call forgets a change, every change output of a transaction that was returned is
    stored with what opens it, at all later times. -/
theorem change_retained {r : Lib.Recorded WalletV2State Action} (hrun : Lib.Recorded.Run Fresh (Retaining X) (next X) r)
    (hfree : CollisionFree X r) : ∀ t ∈ r.history, ∀ tx, returned X t = some tx → ∀ o ∈ tx.outputs.dropLast,
      ∃ out, r.state.outputs.get o.commitment = some out ∧ Opened X out := by
  have hinvariant := Reach.invariant (P := fun r => CollisionFree X r → (∀ p ∈ r.state.pendingSlates, Tracked X p) ∧
    ChangeOpens X r.state ∧ ∀ t ∈ r.history, ∀ tx, returned X t = some tx → ChangeStored r.state tx) ?_ ?_ hrun
  · obtain ⟨-, hopens, hstored⟩ := hinvariant hfree
    intro t ht tx htx o ho
    obtain ⟨i, p, hp, hrole, -, houtputs, hpresent⟩ := hstored t ht tx htx
    have hc : p.producedOutput = some o.commitment := by
      have hmem : o.commitment ∈ p.producedOutput.toList := houtputs ▸ List.mem_map_of_mem ho
      exact Option.mem_toList.mp hmem
    obtain ⟨out, hout⟩ := Option.isSome_iff_exists.mp (hpresent _ hc)
    exact ⟨out, hout, hopens p (List.mem_of_getElem? hp) hrole _ hc out hout⟩
  · rintro r ⟨hfresh, hhistory⟩ -
    rw [hhistory]
    exact ⟨fun p hp => absurd hp (hfresh.notMem p), fun p hp => absurd hp (hfresh.notMem p),
      fun t ht => (List.not_mem_nil ht).elim⟩
  · intro r a ih hguard hfree
    obtain ⟨htracked, hopens, hstored⟩ := ih hfree.of_record
    refine ⟨(next_effect r.state a).tracked htracked, hopens.next, List.forall_mem_cons.mpr ⟨fun tx htx => ?_, ?_⟩⟩
    · obtain ⟨h⟩ := finalization_of_returned htx
      obtain ⟨-, -, recipient, -, -, houtputs⟩ :=
        h.of_tracked (htracked _ (List.mem_of_getElem? h.pending)) (hfree.finalization h)
      exact changeStored_of_finalization h hguard ⟨recipient, houtputs⟩
    · exact fun t ht tx htx => (hstored t ht tx htx).next hguard

/-! ## A small wallet -/

namespace SmallWallet

/-- The libraries of the miniature with a checksum for the hash and a backend that refuses what it cannot encode. -/
def libraries : Externals :=
  { Miniature.libraries with
    blake2b256 := fun bytes =>
      BitVec.ofNat 256 (bytes.foldl (fun h b => (h * 257 + b.toNat + 1) % 18446744073709551557) 7)
    backendCommit := fun value blinding =>
      if value < 1267650600228229401496703205376 ∧ blinding.toNat < 1267650600228229401496703205376 then
        .ok (Miniature.encodePoint (value, blinding.toNat))
      else .error (.invalid "value or blinding out of range") }

def coin : StoredOutput :=
  { commitment := Miniature.encodePoint (1000, 5)
    value := 1000
    blinding := 5
    origin := .ReceiveSlate
    status := .Confirmed
    originBlock := some ⟨1, 1⟩
    isCoinbase := false
    reservedFor := none
    payoutFor := none
    createdAt := 0
    updatedAt := 0 }

def start : WalletV2State := ⟨.Regtest, 7, ⟨[coin], List.nodup_singleton _⟩, [], ⟨10, none⟩⟩

theorem fresh_start : Fresh start := rfl

/-- The draws of the first send; the blinding of the change leaves a positive excess. -/
def draws : SendDraws := ⟨⟨1000, by decide⟩, ⟨7, by decide⟩, ⟨11, by decide⟩⟩

def send (draws : SendDraws) : Action := .createSend 600 10 2000 draws

/-- What the recipient answers to the send. -/
def answer (s : WalletV2State) (draws : SendDraws) : Except PaymentError Slate := do
  let (sent, _) ← createSend libraries s 600 10 2000 draws
  let (answered, _) ← (respondReceive libraries sent.slate s.chainId ⟨⟨3, by decide⟩, ⟨13, by decide⟩⟩).mapError .Slate
  return answered

def unanswered : Slate := ⟨0, 0, 0, 0, 0, [], none, 0, 0, 0, none, none, none, none, none, [], []⟩

def answered : Slate := (answer start draws).toOption.getD unanswered

def slateHash : Hash256 := ((createSend libraries start 600 10 2000 draws).toOption.map fun r => r.1.slateHash).getD 0

def run (actions : List Action) : Lib.Recorded WalletV2State Action :=
  actions.foldl (Lib.Recorded.record (next libraries)) ⟨start, []⟩

theorem run_reached (actions : List Action) : Lib.Recorded.Run Fresh (fun _ _ => True) (next libraries) (run actions) :=
  Reach.foldl (fun _ _ _ => trivial) (.start ⟨fresh_start, rfl⟩)

theorem collisionFree_of_all
    (h : ((hashed r).all fun b => (hashed r).all fun b' =>
      decide (libraries.blake2b256 b = libraries.blake2b256 b' → b = b')) = true) : CollisionFree libraries r := by
  intro b hb b' hb'
  exact of_decide_eq_true (List.all_eq_true.mp (List.all_eq_true.mp h b hb) b' hb')

/-- A returned transaction of the run pays change that is not stored. -/
def forgets (r : Lib.Recorded WalletV2State Action) : Bool :=
  r.history.any fun t => (returned libraries t).any fun tx => tx.outputs.dropLast.any fun o =>
    (r.state.outputs.get o.commitment).isNone

theorem exists_of_forgets (h : forgets r = true) :
    ∃ t ∈ r.history, ∃ tx, returned libraries t = some tx ∧ ∃ o ∈ tx.outputs.dropLast,
      r.state.outputs.get o.commitment = none := by
  obtain ⟨t, ht, hany⟩ := List.any_eq_true.mp h
  obtain ⟨tx, htx, hany⟩ := (Option.any_eq_true _ _).mp hany
  obtain ⟨o, ho, hnone⟩ := List.any_eq_true.mp hany
  exact ⟨t, ht, tx, htx, o, ho, Option.isNone_iff_eq_none.mp hnone⟩

end SmallWallet

open SmallWallet

/-- Cancelling a slate that was finalized deletes the change of the returned transaction, and a slate whose change a
    cancellation deleted can still be finalized. -/
theorem change_forgotten :
    (∃ r, Lib.Recorded.Run Fresh (fun _ _ => True) (next SmallWallet.libraries) r ∧ CollisionFree SmallWallet.libraries r ∧
      r.history.map (·.action) =
        [.cancel SmallWallet.slateHash 2002, .finalize SmallWallet.answered, SmallWallet.send SmallWallet.draws] ∧
      ∃ t ∈ r.history, ∃ tx, returned SmallWallet.libraries t = some tx ∧ ∃ o ∈ tx.outputs.dropLast,
        r.state.outputs.get o.commitment = none) ∧
    ∃ r, Lib.Recorded.Run Fresh (fun _ _ => True) (next SmallWallet.libraries) r ∧ CollisionFree SmallWallet.libraries r ∧
      r.history.map (·.action) =
        [.finalize SmallWallet.answered, .cancel SmallWallet.slateHash 2001, SmallWallet.send SmallWallet.draws] ∧
      ∃ t ∈ r.history, ∃ tx, returned SmallWallet.libraries t = some tx ∧ ∃ o ∈ tx.outputs.dropLast,
        r.state.outputs.get o.commitment = none := by
  refine ⟨⟨run [send draws, .finalize answered,
      .cancel slateHash 2002], run_reached _, ?_, rfl, ?_⟩,
    ⟨run [send draws, .cancel slateHash 2001,
      .finalize answered], run_reached _, ?_, rfl, ?_⟩⟩
  · exact collisionFree_of_all (by decide +kernel)
  · exact exists_of_forgets (by decide +kernel)
  · exact collisionFree_of_all (by decide +kernel)
  · exact exists_of_forgets (by decide +kernel)

/-- The change of the first send is stored after its transaction was returned. -/
theorem first_change_retained : ∃ r, Lib.Recorded.Run Fresh (Retaining SmallWallet.libraries) (next SmallWallet.libraries) r ∧
    CollisionFree SmallWallet.libraries r ∧ (r.history.any fun t => (returned SmallWallet.libraries t).isSome) = true ∧
    ∀ t ∈ r.history, ∀ tx, returned SmallWallet.libraries t = some tx → ∀ o ∈ tx.outputs.dropLast,
      ∃ out, r.state.outputs.get o.commitment = some out ∧ Opened SmallWallet.libraries out := by
  have hsend : Retaining libraries start (send draws) := by
    refine ⟨?_, ?_⟩
    · rintro c ⟨_, _, _, _, haction, -⟩
      cases haction
    · intro _ _ _ _ _ _ _ haction
      cases haction
  have hfinalize : Retaining libraries (run [send draws]).state
      (.finalize answered) := by
    refine ⟨?_, ?_⟩
    · rintro c ⟨_, _, _, _, haction, -⟩
      cases haction
    · intro _ _ slate _ _ _ _ _ _ hpos _ _ c hc
      -- every pending slate of the state has its change stored
      have hall : ((run [send draws]).state.pendingSlates.all fun p =>
          p.producedOutput.all fun c =>
            ((run [send draws]).state.outputs.get c).isSome) = true := by
        decide +kernel
      have hslate := List.all_eq_true.mp hall slate (List.mem_of_getElem? (position_eq_some hpos).1)
      rw [hc] at hslate
      exact hslate
  have hrun : Lib.Recorded.Run Fresh (Retaining libraries) (next libraries)
      (run [send draws, .finalize answered]) :=
    ((Lib.Recorded.Run.start fresh_start).step hsend).step hfinalize
  have hfree : CollisionFree libraries
      (run [send draws, .finalize answered]) :=
    collisionFree_of_all (by decide +kernel)
  exact ⟨_, hrun, hfree, by decide +kernel, change_retained hrun hfree⟩

end DomProtocol.Wallet
