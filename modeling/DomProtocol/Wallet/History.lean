import DomProtocol.Wallet.Steps

/-!
# `Wallet.History` — pending slates and stored outputs along a run

A pending slate keeps its hash, its encoding, its inputs and its change for ever; only its secrets go, once.  A stored output
keeps what opens it until a cancellation deletes it.  Where the hashes of a run do not collide, the slate that is finalized is
the one that was built.
-/

namespace DomProtocol.Wallet

open Lib OutputStore

variable {f : PendingSlate → PendingSlate} {idx : Nat} {after : OutputStore} {P : Prop} {new : StoredOutput}

variable {X : Externals} {s s' : WalletV2State} {a : Action}

/-! ## Pending slates -/

/-- A pending slate and a later state of it. -/
structure Continues (p p' : PendingSlate) : Prop where
  slateHash : p'.slateHash = p.slateHash
  role : p'.role = p.role
  slateBytes : p'.slateBytes = p.slateBytes
  reservedInputs : p'.reservedInputs = p.reservedInputs
  producedOutput : p'.producedOutput = p.producedOutput
  secrets : p'.secrets = p.secrets ∨ p'.secrets = none
  finalizedTx : p.finalizedTx.isSome → p'.finalizedTx.isSome

theorem Continues.refl (p : PendingSlate) : Continues p p := ⟨rfl, rfl, rfl, rfl, rfl, .inl rfl, id⟩

variable {i : Nat} {p : PendingSlate}

theorem continues_modifySlate (hf : ∀ p, Continues p (f p))
    (hp : s.pendingSlates[i]? = some p) :
    ∃ p', (s.modifySlate idx f).pendingSlates[i]? = some p' ∧ Continues p p' := by
  rw [getElem?_modifySlate, hp]
  split
  · exact ⟨f p, rfl, hf p⟩
  · exact ⟨p, rfl, .refl p⟩

/-- **No pending slate is lost.** -/
theorem pendingSlates_push (hp : s.pendingSlates[i]? = some p) (q : PendingSlate) :
    (s.pendingSlates ++ [q])[i]? = some p := by
  rw [List.getElem?_append_left (List.getElem?_eq_some_iff.mp hp).1, hp]

theorem Effect.continues (h : Effect X s a s') (hp : s.pendingSlates[i]? = some p) :
    ∃ p', s'.pendingSlates[i]? = some p' ∧ Continues p p' := by
  cases h with
  | refused | bounced | reconciled => exact ⟨p, hp, .refl p⟩
  | @sent _ _ _ _ q _ hnew | @received _ _ _ q _ hnew =>
    refine ⟨p, ?_, .refl p⟩
    rw [hnew.state]
    exact pendingSlates_push hp q
  | finalized => exact continues_modifySlate (fun q => ⟨rfl, rfl, rfl, rfl, rfl, .inr rfl, fun _ => rfl⟩) hp
  | submitted | cancelled => exact continues_modifySlate (fun q => ⟨rfl, rfl, rfl, rfl, rfl, .inl rfl, id⟩) hp

/-- **A new slate** is one that this call built or answered. -/
theorem Effect.appended (h : Effect X s a s') (hp : s'.pendingSlates[i]? = some p)
    (hnew : s.pendingSlates[i]? = none) :
    (∃ amount fee now draws, a = .createSend amount fee now draws ∧ Nonempty (Sent X s amount fee now draws p s')) ∨
      ∃ slate now draws, a = .receive slate now draws ∧ Nonempty (Received X s now p s') := by
  have hpsh : ∀ q, (s.pendingSlates ++ [q])[i]? = some p → q = p := by
    intro q hq
    rw [List.getElem?_append_right (List.getElem?_eq_none_iff.mp hnew)] at hq
    exact List.mem_singleton.mp (List.mem_of_getElem? hq) |>.symm
  have hmod : ∀ idx f, (s.pendingSlates.modify idx f)[i]? ≠ some p := by
    intro idx f hmodify
    rw [List.getElem?_modify, hnew] at hmodify
    split at hmodify <;> cases hmodify
  cases h with
  | refused =>
    rw [hnew] at hp
    cases hp
  | @sent amount fee now draws q _ hsent =>
    have hsls : s'.pendingSlates = s.pendingSlates ++ [q] := by rw [hsent.state]
    rw [hsls] at hp
    obtain rfl := hpsh q hp
    exact .inl ⟨amount, fee, now, draws, rfl, ⟨hsent⟩⟩
  | @received slate now draws q _ hrecv =>
    have hsls : s'.pendingSlates = s.pendingSlates ++ [q] := by rw [hrecv.state]
    rw [hsls] at hp
    obtain rfl := hpsh q hp
    exact .inr ⟨slate, now, draws, rfl, ⟨hrecv⟩⟩
  | finalized | submitted | cancelled => exact absurd hp (hmod _ _)
  | bounced | reconciled =>
    have hsame : s.pendingSlates[i]? = some p := hp
    rw [hnew] at hsame
    cases hsame

/-- What is true of every pending slate: its encoding, and what its secrets say about its transaction. -/
structure Tracked (X : Externals) (p : PendingSlate) : Prop where
  slateHash : p.slateHash = X.blake2b256 p.slateBytes
  sender : p.role = .Sender → ∃ slate : Slate, slate.serialize = .ok p.slateBytes ∧ slate = senderPhaseSlate slate ∧
    slate.senderInputs = p.reservedInputs ∧ slate.senderChangeOutput.map (·.commitment) = p.producedOutput
  receiver : p.role = .Receiver → p.reservedInputs = [] ∧ p.finalizedTx = none ∧
    ∃ slate : Slate, slate.serialize = .ok p.slateBytes ∧ slate.recipientOutput.isSome
  wiped : p.finalizedTx.isSome → p.secrets = none

variable {now : Nat}

theorem Sent.tracked {amount fee : UInt64} {draws : SendDraws} (h : Sent X s amount fee now draws p s') : Tracked X p := by
  have hfin : p.finalizedTx = none := by rw [h.pending]
  refine ⟨by rw [h.pending], fun _ => ⟨h.sender.slate, h.encoded, h.built.unanswered, ?_, ?_⟩, fun hrole => ?_, fun hsome => ?_⟩
  · rw [h.built.senderInputs, h.reservedInputs, List.map_map]
    rfl
  · rw [h.built.changeOutput, h.producedOutput]
  · rw [h.pending] at hrole
    cases hrole
  · rw [hfin] at hsome
    cases hsome

theorem Received.tracked (h : Received X s now p s') : Tracked X p := by
  have hfin : p.finalizedTx = none := by rw [h.pending]
  refine ⟨by rw [h.pending], fun hrole => ?_, fun _ => ⟨by rw [h.pending], hfin, h.slate, h.encoded, ?_⟩, fun hsome => ?_⟩
  · rw [h.pending] at hrole
    cases hrole
  · rw [h.recipient]
    rfl
  · rw [hfin] at hsome
    cases hsome

theorem forall_modifySlate {P : PendingSlate → Prop}
    (hall : ∀ p ∈ s.pendingSlates, P p) (hf : ∀ p, s.pendingSlates[idx]? = some p → P (f p)) :
    ∀ p ∈ (s.modifySlate idx f).pendingSlates, P p := by
  intro p hp
  obtain ⟨i, hi⟩ := List.mem_iff_getElem?.mp hp
  rw [getElem?_modifySlate] at hi
  split at hi
  · rename_i hidx
    obtain ⟨q, hq, rfl⟩ := Option.map_eq_some_iff.mp hi
    exact hf q (hidx ▸ hq)
  · exact hall p (List.mem_of_getElem? hi)

theorem Effect.tracked (h : Effect X s a s') (hall : ∀ p ∈ s.pendingSlates, Tracked X p) :
    ∀ p ∈ s'.pendingSlates, Tracked X p := by
  cases h with
  | refused | bounced | reconciled => exact hall
  | @sent _ _ _ _ q _ hnew | @received _ _ _ q _ hnew =>
    rw [hnew.state]
    exact List.forall_mem_append.mpr ⟨hall, List.forall_mem_singleton.mpr hnew.tracked⟩
  | @finalized _ _ _ slate idx _ _ _ _ hpos =>
    obtain ⟨hget, hrole, -⟩ := position_eq_some hpos
    refine forall_modifySlate hall fun p hp => ?_
    rw [hget] at hp
    cases hp
    obtain ⟨hhash, hsnr, -, -⟩ := hall slate (List.mem_of_getElem? hget)
    refine ⟨hhash, hsnr, fun hrcvr => ?_, fun _ => rfl⟩
    have hrole' : slate.role = .Sender := (of_decide_eq_true hrole).2
    have hrcvr' : slate.role = .Receiver := hrcvr
    rw [hrole'] at hrcvr'
    cases hrcvr'
  | submitted =>
    refine forall_modifySlate hall fun p hp => ?_
    obtain ⟨hhash, hsnr, hrcvr, hwpd⟩ := hall p (List.mem_of_getElem? hp)
    exact ⟨hhash, hsnr, hrcvr, hwpd⟩
  | @cancelled _ _ slate idx =>
    refine forall_modifySlate (s := { s with outputs := _ }) hall fun p hp => ?_
    obtain ⟨hhash, hsnr, hrcvr, hwpd⟩ := hall p (List.mem_of_getElem? hp)
    exact ⟨hhash, hsnr, hrcvr, hwpd⟩

/-! ## Stored outputs -/

structure Remains (out out' : StoredOutput) : Prop where
  value : out'.value = out.value
  blinding : out'.blinding = out.blinding
  status : out.status ≠ .Unconfirmed → out'.status ≠ .Unconfirmed

theorem Remains.refl (out : StoredOutput) : Remains out out := ⟨rfl, rfl, id⟩

theorem remains_reconciled (view : CanonicalView) (now : Nat) (out : StoredOutput) :
    Remains out (reconciled view now out) := by
  unfold reconciled
  split <;> exact ⟨rfl, rfl, fun h => by first | exact h | (nofun)⟩

theorem reservedFor_reconciled (view : CanonicalView) (now : Nat) (out : StoredOutput) :
    (reconciled view now out).reservedFor = out.reservedFor := by
  unfold reconciled
  split <;> rfl

/-- The record of a commitment in a store, given that in an earlier one. -/
def Kept (before after : OutputStore) (c : Commitment) : Prop :=
  ∀ out, before.get c = some out → ∃ out', after.get c = some out' ∧ Remains out out'

variable {c : Commitment}

variable {before : OutputStore}

theorem kept_map_ite [Decidable P] {f : StoredOutput → StoredOutput}
    (h : after.get c = if P then (before.get c).map f else before.get c) (hf : ∀ out, Remains out (f out)) :
    Kept before after c := by
  intro out hout
  rw [h, hout]
  split
  · exact ⟨f out, rfl, hf out⟩
  · exact ⟨out, rfl, .refl out⟩

theorem Kept.trans {o₁ o₂ o₃ : OutputStore} (h : Kept o₁ o₂ c) (h' : Kept o₂ o₃ c) : Kept o₁ o₃ c := by
  intro out hout
  obtain ⟨out', hout', hrms⟩ := h out hout
  obtain ⟨out'', hout'', hrms'⟩ := h' out' hout'
  exact ⟨out'', hout'', hrms'.value.trans hrms.value, hrms'.blinding.trans hrms.blinding,
    fun hstat => hrms'.status (hrms.status hstat)⟩

variable {out : StoredOutput}

theorem get_of_insert (h : before.insert new = .ok after) (hout : before.get c = some out) : after.get c = some out := by
  obtain ⟨hnew, hget⟩ := get_insert h c
  rw [hget, if_neg, hout]
  rintro rfl
  rw [hnew] at hout
  cases hout

variable {change : Option ChangeMaterial}

theorem get_of_storeChange (h : storeChange before now change = .ok after) (hout : before.get c = some out) :
    after.get c = some out := by
  cases change with
  | none =>
    cases h
    exact hout
  | some m => exact get_of_insert (mapError_eq_ok.mp h) hout

theorem stored_of_insert (h : before.insert new = .ok after) (hout : after.get c = some out) :
    before.get c = some out ∨ out = new := by
  rw [(get_insert h c).2] at hout
  split at hout
  · cases hout
    exact .inr rfl
  · exact .inl hout

theorem stored_of_storeChange (h : storeChange before now change = .ok after) (hout : after.get c = some out) :
    before.get c = some out ∨
      ∃ m, change = some m ∧ out = .newUnconfirmed m.commitment m.value m.blinding .Change false now := by
  cases change with
  | none =>
    cases h
    exact .inl hout
  | some m => exact (stored_of_insert (mapError_eq_ok.mp h) hout).imp_right fun hnew => ⟨m, rfl, hnew⟩

theorem get_of_discard {outputs : OutputStore} {produced : Option Commitment}
    (hout : (discard outputs produced).get c = some out) : outputs.get c = some out := by
  rw [get_discard] at hout
  split at hout
  · cases hout
  · exact hout

/-- An output that was canonical is not deleted. -/
theorem get_discard_of_canonical {outputs : OutputStore} (produced : Option Commitment) (hout : outputs.get c = some out)
    (hstat : out.status ≠ .Unconfirmed) : (discard outputs produced).get c = some out := by
  rw [get_discard, if_neg, hout]
  rintro ⟨-, hdlt⟩
  rw [hout] at hdlt
  exact hstat (of_decide_eq_true hdlt).1

theorem kept_releaseAll (outputs : OutputStore) (now : Nat) (reserved : List Commitment) (c : Commitment) :
    Kept outputs (releaseAll outputs now reserved) c :=
  kept_map_ite (get_releaseAll outputs now reserved c) fun _ => ⟨rfl, rfl, id⟩

def Deletes (s : WalletV2State) (a : Action) (c : Commitment) : Prop :=
  ∃ slateHash now slate idx, a = .cancel slateHash now ∧
    s.position (fun p => p.slateHash = slateHash) = some (slate, idx) ∧ slate.producedOutput = some c ∧
    (s.outputs.get c).any (·.canDelete) = true

/-- **A stored output stays**, with what opens it, until a cancellation deletes it. -/
theorem Effect.kept (h : Effect X s a s') (hdls : ¬ Deletes s a c) : Kept s.outputs s'.outputs c := by
  cases h with
  | refused | finalized | submitted => exact fun out hout => ⟨out, hout, .refl out⟩
  | @sent amount fee now draws q _ hsent =>
    rw [hsent.state]
    refine Kept.trans (fun out hout => ⟨out, get_of_storeChange hsent.stored hout, .refl out⟩) ?_
    exact kept_map_ite (get_reserveAll hsent.outputs q.slateHash now q.reservedInputs c) fun _ => ⟨rfl, rfl, id⟩
  | @received slate now draws q _ hrecv =>
    rw [hrecv.state]
    exact fun out hout => ⟨out, get_of_insert hrecv.stored hout, .refl out⟩
  | bounced => exact kept_releaseAll _ _ _ c
  | @cancelled slateHash now slate idx hpos =>
    refine (kept_releaseAll s.outputs now slate.reservedInputs c).trans ?_
    intro out hout
    refine ⟨out, ?_, .refl out⟩
    show (discard (releaseAll s.outputs now slate.reservedInputs) slate.producedOutput).get c = some out
    rw [get_discard, if_neg, hout]
    rintro ⟨hprd, hdlt⟩
    -- a release does not change whether the output may be deleted
    refine hdls ⟨slateHash, now, slate, idx, rfl, hpos, hprd, ?_⟩
    rw [get_releaseAll] at hdlt
    split at hdlt
    · rwa [Option.any_map] at hdlt
    · exact hdlt
  | @reconciled view now _ =>
    intro out hout
    refine ⟨_, ?_, remains_reconciled view now out⟩
    rw [get_reconciled, hout]
    rfl

def Opened (X : Externals) (out : StoredOutput) : Prop := X.backendCommit out.value out.blinding = .ok out.commitment

variable {out' : StoredOutput}

theorem Opened.of_remains (h : Remains out out') (hout : before.get c = some out) (hout' : after.get c = some out')
    (hopd : Opened X out) : Opened X out' := by
  obtain ⟨-, rfl⟩ := get_eq_some.mp hout
  obtain ⟨-, hcomm⟩ := get_eq_some.mp hout'
  unfold Opened at hopd ⊢
  rw [h.value, h.blinding, hcomm]
  exact hopd

/-- A record that was not there before, or is an earlier one's later state. -/
def Arises (X : Externals) (before : OutputStore) (c : Commitment) (out' : StoredOutput) : Prop :=
  (∃ out, before.get c = some out ∧ Remains out out') ∨ Opened X out'

theorem arises_map_ite [Decidable P] {f : StoredOutput → StoredOutput}
    (h : after.get c = if P then (before.get c).map f else before.get c) (hf : ∀ out, Remains out (f out))
    (hout : after.get c = some out') : ∃ out, before.get c = some out ∧ Remains out out' := by
  rw [h] at hout
  split at hout
  · obtain ⟨out, hget, rfl⟩ := Option.map_eq_some_iff.mp hout
    exact ⟨out, hget, hf out⟩
  · exact ⟨out', hout, .refl out'⟩

/-- **Every output that a call adds opens its commitment.** -/
theorem Effect.arises (h : Effect X s a s') (hout : s'.outputs.get c = some out') : Arises X s.outputs c out' := by
  cases h with
  | refused | finalized | submitted => exact .inl ⟨out', hout, .refl out'⟩
  | @sent amount fee now draws q _ hsent =>
    rw [hsent.state] at hout
    obtain ⟨out, hget, hrms⟩ :=
      arises_map_ite (get_reserveAll hsent.outputs q.slateHash now q.reservedInputs c)
        (fun _ => ⟨rfl, rfl, id⟩) hout
    rcases stored_of_storeChange hsent.stored hget with hold | ⟨m, hm, rfl⟩
    · exact .inl ⟨out, hold, hrms⟩
    · exact .inr (Opened.of_remains hrms hget hout (hsent.built.change m hm).2.2)
  | @received slate now draws q _ hrecv =>
    rw [hrecv.state] at hout
    rcases stored_of_insert hrecv.stored hout with hold | rfl
    · exact .inl ⟨out', hold, .refl out'⟩
    · exact .inr hrecv.opened
  | bounced => exact .inl (arises_map_ite (get_releaseAll _ _ _ c) (fun _ => ⟨rfl, rfl, id⟩) hout)
  | cancelled =>
    exact .inl (arises_map_ite (get_releaseAll _ _ _ c) (fun _ => ⟨rfl, rfl, id⟩) (get_of_discard hout))
  | @reconciled view now _ =>
    have hget : (s.outputs.reconciled view now).get c = some out' := hout
    rw [get_reconciled] at hget
    obtain ⟨out, hold, rfl⟩ := Option.map_eq_some_iff.mp hget
    exact .inl ⟨out, hold, remains_reconciled view now out⟩

/-! ## Runs -/

def Fresh (s : WalletV2State) : Prop := s.pendingSlates = []

theorem Fresh.notMem {s : WalletV2State} (h : Fresh s) (p : PendingSlate) : p ∉ s.pendingSlates := by
  rw [show s.pendingSlates = [] from h]
  exact List.not_mem_nil

def returned (X : Externals) (t : Step WalletV2State Action) : Option Transaction :=
  match t.action with
  | .finalize answered => (finalizeTracked X t.before answered).toOption.map fun r => r.1.1
  | _ => none

/-- The bytes a call hashes to look up a slate. -/
def Action.lookedUp : Action → Option (List UInt8)
  | .finalize answered => (senderPhaseSlate answered).serialize.toOption
  | _ => none

/-- All that was hashed as the name of a slate. -/
def hashed (r : Lib.Recorded WalletV2State Action) : List (List UInt8) :=
  r.state.pendingSlates.map (·.slateBytes) ++ r.history.filterMap (·.action.lookedUp)

/-- No two names of slates in the run collide. -/
def CollisionFree (X : Externals) (r : Lib.Recorded WalletV2State Action) : Prop :=
  ∀ b ∈ hashed r, ∀ b' ∈ hashed r, X.blake2b256 b = X.blake2b256 b' → b = b'

theorem hashed_subset (X : Externals) (r : Lib.Recorded WalletV2State Action) (a : Action) :
    hashed r ⊆ hashed (r.record (next X) a) := by
  intro b hb
  rcases List.mem_append.mp hb with hpend | hhist
  · obtain ⟨p, hp, rfl⟩ := List.mem_map.mp hpend
    obtain ⟨i, hi⟩ := List.mem_iff_getElem?.mp hp
    obtain ⟨p', hp', hcont⟩ := (next_effect r.state a).continues (X := X) hi
    exact List.mem_append_left _ (List.mem_map.mpr ⟨p', List.mem_of_getElem? hp', hcont.slateBytes⟩)
  · refine List.mem_append_right _ ?_
    obtain ⟨t, ht, hlooked⟩ := List.mem_filterMap.mp hhist
    exact List.mem_filterMap.mpr ⟨t, List.mem_cons_of_mem _ ht, hlooked⟩

variable {r : Lib.Recorded WalletV2State Action}

theorem CollisionFree.of_record (h : CollisionFree X (r.record (next X) a)) :
    CollisionFree X r :=
  fun b hb b' hb' => h b (hashed_subset X r a hb) b' (hashed_subset X r a hb')

structure Finalization (X : Externals) (s : WalletV2State) (a : Action) (tx : Transaction) where
  answered : Slate
  bytes : List UInt8
  slate : PendingSlate
  idx : Nat
  excess : BitVec 256
  nonce : BitVec 256
  txBytes : List UInt8
  action : a = .finalize answered
  encoded : (senderPhaseSlate answered).serialize = .ok bytes
  position : s.position (fun p => p.slateHash = X.blake2b256 bytes ∧ p.role = .Sender) = some (slate, idx)
  secrets : slate.secrets = some (.Sender excess nonce)
  transaction : finalizeSlate X answered excess nonce s.chainId = .ok tx
  result : finalizeTracked X s answered = .ok ((tx, X.blake2b256 bytes), next X s a)
  state : next X s a = s.modifySlate idx ({ · with status := .Finalized, finalizedTx := some txBytes, secrets := none })

theorem finalization_of_returned {tx : Transaction} (h : returned X ⟨s, a, next X s a⟩ = some tx) :
    Nonempty (Finalization X s a tx) := by
  unfold returned at h
  split at h
  · rename_i answered hact
    obtain rfl : a = .finalize answered := hact
    obtain ⟨⟨⟨tx', hash⟩, s'⟩, hrun, rfl⟩ := Option.map_eq_some_iff.mp h
    have hrun' := toOption_eq_some.mp hrun
    obtain ⟨bytes, slate, idx, excess, nonce, txBytes, hbyt, hpos, hsecs, htx, -, hhash, hstate⟩ :=
      finalizeTracked_eq_ok hrun'
    have hnext : next X s (.finalize answered) = s' := by
      show orElse s (finalizeTracked X s answered) = s'
      rw [hrun']
      rfl
    exact ⟨⟨answered, bytes, slate, idx, excess, nonce, txBytes, rfl, hbyt, hpos, hsecs, htx,
      by rw [hrun', hnext, hhash], hnext.trans hstate⟩⟩
  · cases h

namespace Finalization

variable {tx : Transaction} (h : Finalization X s a tx)

include h

theorem pending : s.pendingSlates[h.idx]? = some h.slate := (position_eq_some h.position).1

theorem found : h.slate.slateHash = X.blake2b256 h.bytes ∧ h.slate.role = .Sender :=
  of_decide_eq_true (position_eq_some h.position).2.1

theorem after_idx : (next X s a).pendingSlates[h.idx]? =
    some { h.slate with status := .Finalized, finalizedTx := some h.txBytes, secrets := none } := by
  rw [h.state, getElem?_modifySlate, if_pos rfl, h.pending]
  rfl

/-- **The slate that is finalized is the one that was built.**  The transaction spends what the pending slate reserved, and
    pays its change and one more output. -/
theorem of_tracked (hsl : Tracked X h.slate)
    (hcoll : X.blake2b256 h.bytes = X.blake2b256 h.slate.slateBytes → h.bytes = h.slate.slateBytes) :
    (senderPhaseSlate h.answered).serialize = .ok h.slate.slateBytes ∧ tx.inputs = h.slate.reservedInputs ∧
      ∃ recipient kernel, FinalizedAs X h.answered s.chainId tx recipient kernel ∧
        tx.outputs.map (·.commitment) = h.slate.producedOutput.toList ++ [recipient] := by
  obtain ⟨hhash, hrole⟩ := h.found
  obtain ⟨built, hbuilt, -, hins, hchg⟩ := hsl.sender hrole
  have hsame : h.bytes = h.slate.slateBytes := hcoll (hhash.symm.trans hsl.slateHash)
  have hsls : senderPhaseSlate h.answered = built := Slate.serialize_inj h.encoded (hsame ▸ hbuilt)
  obtain ⟨recipient, kernel, hfin⟩ := finalizeSlate_eq_ok h.transaction
  refine ⟨hsls ▸ hbuilt, ?_, recipient, kernel, hfin, ?_⟩
  · rw [hfin.inputs, ← hins, ← hsls]
    rfl
  · rw [hfin.outputs, ← hchg, ← hsls]
    rfl

end Finalization

theorem CollisionFree.looked_up {tx : Transaction} (hfree : CollisionFree X (r.record (next X) a))
    (h : Finalization X r.state a tx) (hp : p ∈ r.state.pendingSlates) :
    X.blake2b256 h.bytes = X.blake2b256 p.slateBytes → h.bytes = p.slateBytes := by
  refine hfree h.bytes (List.mem_append_right _ ?_) p.slateBytes
    (hashed_subset X r a (List.mem_append_left _ (List.mem_map_of_mem hp)))
  refine List.mem_filterMap.mpr ⟨_, List.mem_cons_self, ?_⟩
  have hsought : a.lookedUp = (senderPhaseSlate h.answered).serialize.toOption := congrArg Action.lookedUp h.action
  exact hsought.trans (toOption_eq_some.mpr h.encoded)

theorem CollisionFree.finalization {tx : Transaction} (hfree : CollisionFree X (r.record (next X) a))
    (h : Finalization X r.state a tx) :
    X.blake2b256 h.bytes = X.blake2b256 h.slate.slateBytes → h.bytes = h.slate.slateBytes :=
  hfree.looked_up h (List.mem_of_getElem? h.pending)

end DomProtocol.Wallet
