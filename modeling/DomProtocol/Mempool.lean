import DomProtocol.Lib.TableSum
import DomProtocol.Store

/-!
# `Mempool` — the transaction pool

The pool keeps its entries by hash and three structures beside them: the owner of every reserved input, the
entries by fee rate, and the total weight.  Admission may evict cheaper entries first, and it keeps what it has
evicted even when the transaction is refused in the end.  `Consistent` says that the three structures say exactly
what the entries say; every operation keeps it.
-/

namespace DomProtocol

open Lib

/-! ## Entries and the fee order -/

/-- A pooled transaction with the figures it is ordered by. -/
structure MempoolEntry where
  tx : Transaction
  txHash : Hash256
  fee : Nat
  weight : Nat
  feeRate : Nat
  receivedAt : UInt64
  deriving DecidableEq

/-- Key of the fee index: the rate first, then the hash. -/
structure FeeKey where
  feeRate : Nat
  txHash : Hash256
  deriving DecidableEq

instance : Ord FeeKey := ⟨compareLex (compareOn FeeKey.feeRate) (compareOn FeeKey.txHash)⟩

instance : Std.TransOrd FeeKey :=
  inferInstanceAs (Std.TransCmp (compareLex (compareOn FeeKey.feeRate) (compareOn FeeKey.txHash)))

instance : Std.LawfulEqOrd FeeKey where
  eq_of_compare := by
    rintro ⟨rate, hash⟩ ⟨rate', hash'⟩ h
    obtain ⟨hrate, hhash⟩ := compareLex_eq_eq.mp h
    have hrate' : rate = rate' := Std.LawfulEqCmp.eq_of_compare hrate
    have hhash' : hash = hash' := Std.LawfulEqCmp.eq_of_compare hhash
    rw [hrate', hhash']

/-- Floor fee rate of a fee over a weight. -/
def actualFeeRate (fee weight : Nat) : Nat := if weight = 0 then 0 else fee / weight

/-- The fee covers the relay minimum of the shape. -/
def validateMinimumFee (fee : Nat) (shape : TransactionShape) : Except DomError Unit :=
  let minimum := transactionWeight shape * minRelayFeeRate
  rejectIf (fee < minimum) (.policyRejected s!"fee {fee} < minimum relay fee {minimum}")

/-- The entry of a transaction, when it pays for its weight. -/
def MempoolEntry.new (tx : Transaction) (txHash : Hash256) (receivedAt : UInt64) : Except DomError MempoolEntry := do
  let fee ← tx.totalFee
  let shape ← tx.feeShape
  let weight ← tx.weightChecked
  validateMinimumFee fee shape
  return ⟨tx, txHash, fee, weight, actualFeeRate fee weight, receivedAt⟩

/-! ## The pool -/

structure Mempool where
  entries : Table Hash256 MempoolEntry
  inputIndex : Table Commitment Hash256
  feeIndex : Table FeeKey Unit
  totalWeight : Nat
  maxWeight : Nat

variable {entry : MempoolEntry} {minFeeRate rate : Nat}

namespace Mempool

def new : Mempool := ⟨∅, ∅, ∅, 0, maxBlockWeight * 10⟩

section Operations

variable (X : Externals) (m : Mempool) (tx : Transaction) (txHash : Hash256) (now : UInt64)

/-- Take the transaction with this hash out of the pool. -/
def removeTx : Mempool :=
  match m.entries[txHash]? with
  | none => m
  | some entry =>
    { m with
      entries := m.entries.erase txHash
      inputIndex := entry.tx.inputs.foldl
        (fun index c => if index[c]? = some txHash then index.erase c else index) m.inputIndex
      feeIndex := m.feeIndex.erase ⟨entry.feeRate, txHash⟩
      totalWeight := m.totalWeight - entry.weight }

/-- The owner of the first input that another transaction has reserved. -/
def firstConflictingTx : Option Hash256 :=
  tx.inputs.findSome? fun c => m.inputIndex[c]?.filter (· ≠ txHash)

/-- Evict the cheapest entry, if it is cheaper than `minFeeRate`. -/
def evictLowestFee (minFeeRate : Nat) : Except DomError Mempool :=
  match m.feeIndex.minKey? with
  | none => .ok m
  | some ⟨lowestRate, hash⟩ =>
    if lowestRate ≥ minFeeRate then .error (.policyRejected "mempool full, fee too low to evict")
    else .ok (m.removeTx hash)

/-- Evict until an entry of this weight fits.  Every round must free some weight, so the weight of the pool
    bounds the rounds; `fuel` counts them and never runs out (`makeRoom_eq`). -/
def makeRoomLoop (weight feeRate : Nat) : Nat → Mempool → Except DomError Unit × Mempool
  | 0, m =>
    if m.totalWeight + weight > m.maxWeight then
      (.error (.policyRejected "mempool full, unable to free enough space for incoming tx"), m)
    else (.ok (), m)
  | fuel + 1, m =>
    if m.totalWeight + weight > m.maxWeight then
      match m.evictLowestFee feeRate with
      | .error e => (.error e, m)
      | .ok evicted =>
        if evicted.totalWeight ≥ m.totalWeight then
          (.error (.policyRejected "mempool full, unable to free enough space for incoming tx"), evicted)
        else makeRoomLoop weight feeRate fuel evicted
    else (.ok (), m)

def makeRoom (weight feeRate : Nat) : Except DomError Unit × Mempool :=
  makeRoomLoop weight feeRate (m.totalWeight + 1) m

/-- Put an entry that fits into all four structures. -/
def insertEntry (entry : MempoolEntry) : Mempool :=
  { m with
    totalWeight := m.totalWeight + entry.weight
    feeIndex := m.feeIndex.insert ⟨entry.feeRate, entry.txHash⟩ ()
    inputIndex := entry.tx.inputs.foldl (fun index c => index.insert c entry.txHash) m.inputIndex
    entries := m.entries.insert entry.txHash entry }

def acceptValidatedTx : Except DomError Unit × Mempool :=
  if m.entries.contains txHash then (.error (.policyRejected "transaction already in mempool"), m)
  else
    match m.firstConflictingTx tx txHash with
    | some conflict =>
      let hex := conflict.toHex
      (.error (.policyRejected s!"input already reserved by mempool tx {hex}"), m)
    | none =>
      match MempoolEntry.new tx txHash now with
      | .error e => (.error e, m)
      | .ok entry =>
        if entry.weight > m.maxWeight then
          (.error (.policyRejected s!"tx weight {entry.weight} exceeds mempool max_weight {m.maxWeight}"), m)
        else
          match m.makeRoom entry.weight entry.feeRate with
          | (.error e, m') => (.error e, m')
          | (.ok _, m') => (.ok (), m'.insertEntry entry)

/-- Admission without a chain view: the structure is checked, nothing else. -/
def acceptTx : Except DomError Unit × Mempool :=
  match validateTransactionStructure tx with
  | .error e => (.error e, m)
  | .ok _ => m.acceptValidatedTx tx txHash now

def precheckCheapAdmissionGates : Except DomError Unit := do
  rejectIf (m.entries.contains txHash = true) (.policyRejected "transaction already in mempool")
  let fee ← tx.totalFee
  let shape ← tx.feeShape
  let weight ← tx.weightChecked
  validateMinimumFee fee shape
  rejectIf (weight > m.maxWeight)
    (.policyRejected s!"tx weight {weight} exceeds mempool max_weight {m.maxWeight}")

/-- Every input is in the canonical UTXO set and, when it is a coinbase, mature at the height. -/
def validateTxAgainstChainView (currentHeight maturity : Nat)
    (lookupUtxo : Commitment → Except DomError (Option UtxoEntry)) : Except DomError Unit :=
  forM tx.inputs fun c => do
    match ← lookupUtxo c with
    | none =>
      let hex := c.toHex
      throw (.policyRejected s!"input commitment not found in canonical UTXO set: {hex}")
    | some entry =>
      rejectIf (entry.isCoinbase ∧ ¬ entry.isMatureFor currentHeight maturity)
        (DomError.temporarilyInvalid
          (s!"immature coinbase spend at height {currentHeight} (created at {entry.blockHeight}, "
            ++ s!"maturity {maturity})"))

/-- Admission against a snapshot of the chain. -/
def acceptTxWithChainView (currentHeight : Nat) (chainId : Hash256) (maturity : Nat)
    (lookupUtxo : Commitment → Except DomError (Option UtxoEntry)) : Except DomError Unit × Mempool :=
  let checked : Except DomError Unit := do
    m.precheckCheapAdmissionGates tx txHash
    validateTransaction X tx ⟨currentHeight, chainId⟩
    validateTxAgainstChainView tx currentHeight maturity lookupUtxo
  match checked with
  | .error e => (.error e, m)
  | .ok _ => m.acceptValidatedTx tx txHash now

/-- Take out every transaction one of whose inputs is among the spent commitments. -/
def removeConfirmed (spent : List Commitment) : Mempool :=
  let toRemove := (m.entries.toList.filter fun entry => entry.2.tx.inputs.any (· ∈ spent)).map (·.2.txHash)
  (toRemove.mergeSort fun a b => a ≤ b).foldl removeTx m

/-- A transaction to be admitted again, with its hash and the time it was seen at. -/
structure Candidate where
  tx : Transaction
  txHash : Hash256
  now : UInt64

/-- Admit a batch one by one, in the order of the hashes. -/
def reinject (accept : Mempool → Candidate → Except DomError Unit × Mempool) (m : Mempool)
    (batch : List Candidate) : Mempool :=
  (batch.mergeSort fun a b => a.txHash ≤ b.txHash).foldl (fun m c => (accept m c).2) m

def reinjectBatch (batch : List Candidate) : Mempool :=
  m.reinject (fun m c => m.acceptTx c.tx c.txHash c.now) batch

def reinjectBatchWithChainView (batch : List Candidate) (currentHeight : Nat) (chainId : Hash256)
    (maturity : Nat) (lookupUtxo : Commitment → Except DomError (Option UtxoEntry)) : Mempool :=
  m.reinject (fun m c => m.acceptTxWithChainView X c.tx c.txHash c.now currentHeight chainId maturity lookupUtxo)
    batch

end Operations

variable (X : Externals)

/-! ## The invariant -/

/-- The three structures beside the entries say what the entries say, and the pool is within its capacity. -/
structure Consistent (m : Mempool) : Prop where
  entryOf : ∀ (h : Hash256) (e : MempoolEntry), m.entries[h]? = some e →
    MempoolEntry.new e.tx h e.receivedAt = .ok e
  inputs : ∀ (c : Commitment) (h : Hash256),
    m.inputIndex[c]? = some h ↔ ∃ e : MempoolEntry, m.entries[h]? = some e ∧ c ∈ e.tx.inputs
  fees : ∀ key : FeeKey,
    m.feeIndex[key]? = some () ↔ ∃ e : MempoolEntry, m.entries[key.txHash]? = some e ∧ e.feeRate = key.feeRate
  weight : m.totalWeight = tableSum (·.weight) m.entries
  capacity : m.totalWeight ≤ m.maxWeight

theorem consistent_new : Consistent new where
  entryOf _ _ he := by simp [new] at he
  inputs c h := by simp [new]
  fees key := by simp [new]
  weight := (tableSum_empty _).symm
  capacity := Nat.zero_le _

section Folds

variable {index : Table Commitment Hash256} {h : Hash256}

theorem getElem?_release (cs : List Commitment) (a : Commitment) :
    (cs.foldl (fun index c => if index[c]? = some h then index.erase c else index) index)[a]? =
      if a ∈ cs ∧ index[a]? = some h then none else index[a]? := by
  induction cs generalizing index with
  | nil => simp
  | cons c cs ih =>
    rw [List.foldl_cons, ih]
    by_cases hc : index[c]? = some h
    · rw [if_pos hc, getElem?_erase]
      by_cases ha : c = a
      · subst ha
        simp [hc]
      · simp [ha, Ne.symm ha]
    · rw [if_neg hc]
      by_cases ha : c = a
      · subst ha
        simp [hc]
      · simp [Ne.symm ha]

theorem getElem?_reserve (cs : List Commitment) (a : Commitment) :
    (cs.foldl (fun index c => index.insert c h) index)[a]? = if a ∈ cs then some h else index[a]? := by
  induction cs generalizing index with
  | nil => simp
  | cons c cs ih =>
    rw [List.foldl_cons, ih, getElem?_insert]
    by_cases hmem : a ∈ cs
    · simp [hmem]
    · by_cases ha : c = a
      · simp [ha]
      · simp [hmem, ha, Ne.symm ha]

end Folds

section Steps

variable {m m' : Mempool}

def Below (m' m : Mempool) : Prop :=
  ∀ (h : Hash256) (e : MempoolEntry), m'.entries[h]? = some e → m.entries[h]? = some e

theorem below_removeTx (m : Mempool) (txHash : Hash256) : Below (m.removeTx txHash) m := by
  intro h e he
  unfold removeTx at he
  split at he
  · exact he
  · rw [getElem?_erase] at he
    split at he
    · cases he
    · exact he

theorem maxWeight_removeTx (m : Mempool) (txHash : Hash256) : (m.removeTx txHash).maxWeight = m.maxWeight := by
  unfold removeTx
  split <;> rfl

theorem Consistent.removeTx (hm : Consistent m) (txHash : Hash256) : Consistent (m.removeTx txHash) := by
  cases hentry : m.entries[txHash]? with
  | none => simpa only [Mempool.removeTx, hentry] using hm
  | some entry =>
    simp only [Mempool.removeTx, hentry]
    have hsum := tableSum_erase (·.weight) hentry
    constructor
    · intro h e he
      rw [getElem?_erase] at he
      split at he
      · cases he
      · exact hm.entryOf h e he
    · intro c h
      dsimp only
      rw [getElem?_release, getElem?_erase]
      -- the inputs that `txHash` holds are those of its entry
      have howned : m.inputIndex[c]? = some txHash ↔ c ∈ entry.tx.inputs := by
        simp [hm.inputs, hentry]
      by_cases hh : txHash = h
      · subst hh
        by_cases hc : c ∈ entry.tx.inputs
        · simp [hc, howned]
        · simp [hc, howned]
      · have hoth : m.inputIndex[c]? = some h → m.inputIndex[c]? ≠ some txHash := by
          intro hc hc'
          exact hh (Option.some.inj (hc'.symm.trans hc))
        rw [if_neg hh, ← hm.inputs]
        split
        · rename_i hown
          exact iff_of_false nofun fun hc => hoth hc hown.2
        · rfl
    · rintro ⟨rate, h⟩
      dsimp only
      rw [getElem?_erase, getElem?_erase]
      by_cases hh : txHash = h
      · subst hh
        by_cases hrate : entry.feeRate = rate
        · simp [hrate]
        · simp [hrate, hm.fees, hentry]
      · simp [hh, hm.fees]
    · dsimp only
      rw [hm.weight]
      omega
    · exact (Nat.sub_le _ _).trans hm.capacity

theorem getElem?_entries_insertEntry (m : Mempool) (entry : MempoolEntry) (h : Hash256) :
    (m.insertEntry entry).entries[h]? = if entry.txHash = h then some entry else m.entries[h]? :=
  getElem?_insert _ _ _ _

theorem Consistent.insertEntry (hm : Consistent m)
    (hnew : MempoolEntry.new entry.tx entry.txHash entry.receivedAt = .ok entry)
    (hfr : m.entries[entry.txHash]? = none) (hfree : ∀ c ∈ entry.tx.inputs, m.inputIndex[c]? = none)
    (hfits : m.totalWeight + entry.weight ≤ m.maxWeight) : Consistent (m.insertEntry entry) := by
  unfold Mempool.insertEntry
  constructor
  · intro h e he
    rw [getElem?_insert] at he
    split at he
    · rename_i hh
      subst hh
      cases he
      exact hnew
    · exact hm.entryOf h e he
  · intro c h
    dsimp only
    rw [getElem?_reserve, getElem?_insert]
    by_cases hh : entry.txHash = h
    · subst hh
      by_cases hc : c ∈ entry.tx.inputs
      · simp [hc]
      · simp [hc, hm.inputs, hfr]
    · rw [if_neg hh, ← hm.inputs]
      by_cases hc : c ∈ entry.tx.inputs
      · simp [hc, hh, hfree c hc]
      · simp [hc]
  · rintro ⟨rate, h⟩
    dsimp only
    rw [getElem?_insert, getElem?_insert]
    by_cases hh : entry.txHash = h
    · subst hh
      by_cases hrate : entry.feeRate = rate
      · simp [hrate]
      · simp [hrate, hm.fees, hfr]
    · simp [hh, hm.fees]
  · dsimp only
    rw [hm.weight, tableSum_insert (·.weight) hfr, Nat.add_comm]
  · exact hfits

/-! ## Eviction -/

theorem evictLowestFee_eq_ok (h : m.evictLowestFee minFeeRate = .ok m') :
    m' = m ∨ ∃ txHash, m' = m.removeTx txHash := by
  unfold evictLowestFee at h
  split at h
  · cases h
    exact .inl rfl
  · split at h
    · cases h
    · cases h
      exact .inr ⟨_, rfl⟩

structure Reduced (m m' : Mempool) : Prop where
  consistent : Consistent m'
  below : Below m' m
  maxWeight_eq : m'.maxWeight = m.maxWeight

theorem Consistent.reduced (hm : Consistent m) : Reduced m m :=
  ⟨hm, fun _ _ he => he, rfl⟩

theorem Reduced.trans {m'' : Mempool} (h : Reduced m m') (h' : Reduced m' m'') : Reduced m m'' :=
  ⟨h'.consistent, fun hash e he => h.below hash e (h'.below hash e he), h'.maxWeight_eq.trans h.maxWeight_eq⟩

theorem Consistent.reduced_removeTx (hm : Consistent m) (txHash : Hash256) : Reduced m (m.removeTx txHash) :=
  ⟨hm.removeTx txHash, below_removeTx m txHash, maxWeight_removeTx m txHash⟩

theorem Consistent.reduced_evict (hm : Consistent m)
    (h : m.evictLowestFee minFeeRate = .ok m') : Reduced m m' := by
  obtain rfl | ⟨txHash, rfl⟩ := evictLowestFee_eq_ok h
  · exact hm.reduced
  · exact hm.reduced_removeTx txHash

theorem Consistent.makeRoomLoop (hm : Consistent m) (weight feeRate fuel : Nat) :
    Reduced m (makeRoomLoop weight feeRate fuel m).2 ∧ ((makeRoomLoop weight feeRate fuel m).1 = .ok () →
        (makeRoomLoop weight feeRate fuel m).2.totalWeight + weight ≤ m.maxWeight) := by
  induction fuel generalizing m with
  | zero =>
    unfold Mempool.makeRoomLoop
    split
    · exact ⟨hm.reduced, nofun⟩
    · exact ⟨hm.reduced, fun _ => by dsimp only; omega⟩
  | succ fuel ih =>
    unfold Mempool.makeRoomLoop
    split
    · cases hevict : m.evictLowestFee feeRate with
      | error e => exact ⟨hm.reduced, nofun⟩
      | ok evicted =>
        have hred := hm.reduced_evict hevict
        dsimp only
        split
        · exact ⟨hred, nofun⟩
        · obtain ⟨hrest, hroom⟩ := ih hred.consistent
          refine ⟨hred.trans hrest, fun hok => ?_⟩
          rw [← hred.maxWeight_eq]
          exact hroom hok
    · exact ⟨hm.reduced, fun _ => by dsimp only; omega⟩

theorem Consistent.makeRoom (hm : Consistent m) (weight feeRate : Nat) : Reduced m (m.makeRoom weight feeRate).2 ∧
      ((m.makeRoom weight feeRate).1 = .ok () → (m.makeRoom weight feeRate).2.totalWeight + weight ≤ m.maxWeight) :=
  hm.makeRoomLoop weight feeRate (m.totalWeight + 1)

theorem makeRoomLoop_fuel (weight feeRate : Nat) {fuel : Nat} (h : m.totalWeight < fuel) :
    makeRoomLoop weight feeRate fuel m = m.makeRoom weight feeRate := by
  unfold makeRoom
  generalize hmore : m.totalWeight + 1 = more
  have hlt : m.totalWeight < more := by omega
  clear hmore
  induction fuel generalizing m more with
  | zero => omega
  | succ fuel ih =>
    obtain _ | more := more
    · omega
    · simp only [makeRoomLoop]
      cases m.evictLowestFee feeRate with
      | error e => rfl
      | ok evicted =>
        dsimp only
        split
        · split
          · rfl
          · rw [ih (by omega) more (by omega)]
        · rfl

theorem makeRoom_eq (m : Mempool) (weight feeRate : Nat) : m.makeRoom weight feeRate =
      if m.totalWeight + weight > m.maxWeight then
        match m.evictLowestFee feeRate with
        | .error e => (.error e, m)
        | .ok evicted =>
          if evicted.totalWeight ≥ m.totalWeight then
            (.error (.policyRejected "mempool full, unable to free enough space for incoming tx"), evicted)
          else evicted.makeRoom weight feeRate
      else (.ok (), m) := by
  conv_lhs => rw [makeRoom, makeRoomLoop]
  cases m.evictLowestFee feeRate with
  | error e => rfl
  | ok evicted =>
    dsimp only
    split
    · split
      · rfl
      · rw [makeRoomLoop_fuel weight feeRate (by omega)]
    · rfl

/-! ## Admission -/

variable {tx : Transaction} {txHash : Hash256}

theorem new_eq_ok {receivedAt : UInt64}
    (h : MempoolEntry.new tx txHash receivedAt = .ok entry) :
    entry.tx = tx ∧ entry.txHash = txHash ∧ entry.receivedAt = receivedAt := by
  simp only [MempoolEntry.new, inversion] at h
  obtain ⟨fee, -, shape, -, weight, -, -, -, rfl⟩ := h
  exact ⟨rfl, rfl, rfl⟩

theorem Consistent.free_of_no_conflict (hm : Consistent m)
    (hfr : m.entries[txHash]? = none) (h : m.firstConflictingTx tx txHash = none) :
    ∀ c ∈ tx.inputs, m.inputIndex[c]? = none := by
  intro c hc
  rw [Option.eq_none_iff_forall_ne_some]
  intro owner howner
  have hmine := List.findSome?_eq_none_iff.mp h c hc
  obtain ⟨e, he, -⟩ := (hm.inputs c owner).mp howner
  rw [howner] at hmine
  by_cases hown : owner = txHash
  · rw [hown, hfr] at he
    cases he
  · simp [Option.filter, hown] at hmine

/-- **What admission does.**  It refuses at once, refuses after making what room it could, or makes room and inserts
    the new entry. -/
theorem acceptValidatedTx_cases (m : Mempool) (tx : Transaction) (txHash : Hash256) (now : UInt64) :
    (∃ e, m.acceptValidatedTx tx txHash now = (.error e, m)) ∨
      ∃ entry m₁, MempoolEntry.new tx txHash now = .ok entry ∧ m.entries[txHash]? = none ∧
        m.firstConflictingTx tx txHash = none ∧ entry.weight ≤ m.maxWeight ∧
        ((∃ e, m.makeRoom entry.weight entry.feeRate = (.error e, m₁) ∧
            m.acceptValidatedTx tx txHash now = (.error e, m₁)) ∨
          (m.makeRoom entry.weight entry.feeRate = (.ok (), m₁) ∧
            m.acceptValidatedTx tx txHash now = (.ok (), m₁.insertEntry entry))) := by
  unfold acceptValidatedTx
  by_cases hctn : m.entries.contains txHash = true
  · exact .inl ⟨_, if_pos hctn⟩
  · simp only [if_neg hctn]
    have hfr : m.entries[txHash]? = none := by
      rw [Std.ExtTreeMap.contains_eq_isSome_getElem?] at hctn
      exact Option.not_isSome_iff_eq_none.mp hctn
    cases hcfl : m.firstConflictingTx tx txHash with
    | some conflict => exact .inl ⟨_, rfl⟩
    | none =>
      cases hnew : MempoolEntry.new tx txHash now with
      | error e => exact .inl ⟨e, rfl⟩
      | ok entry =>
        dsimp only
        by_cases hheavy : entry.weight > m.maxWeight
        · exact .inl ⟨_, if_pos hheavy⟩
        · rw [if_neg hheavy]
          refine .inr ⟨entry, ?_⟩
          cases hroom : m.makeRoom entry.weight entry.feeRate with
          | mk result m₁ =>
            cases result with
            | error e => exact ⟨m₁, rfl, hfr, rfl, Nat.not_lt.mp hheavy, .inl ⟨e, rfl, rfl⟩⟩
            | ok u => exact ⟨m₁, rfl, hfr, rfl, Nat.not_lt.mp hheavy, .inr ⟨rfl, rfl⟩⟩

theorem Consistent.acceptValidatedTx (hm : Consistent m) (tx : Transaction) (txHash : Hash256) (now : UInt64) :
    Consistent (m.acceptValidatedTx tx txHash now).2 := by
  obtain ⟨e, heq⟩ | ⟨entry, m₁, hnew, hfr, hcfl, -, hcs⟩ := acceptValidatedTx_cases m tx txHash now
  · rw [heq]
    exact hm
  · obtain ⟨hred, hroom⟩ := hm.makeRoom entry.weight entry.feeRate
    obtain ⟨e, hmake, heq⟩ | ⟨hmake, heq⟩ := hcs
    · rw [hmake] at hred
      rw [heq]
      exact hred.consistent
    · rw [hmake] at hred hroom
      rw [heq]
      obtain ⟨rfl, rfl, rfl⟩ := new_eq_ok hnew
      refine hred.consistent.insertEntry hnew ?_ ?_ ?_
      · rw [Option.eq_none_iff_forall_ne_some]
        intro e he
        rw [hred.below _ e he] at hfr
        cases hfr
      · intro c hc
        rw [Option.eq_none_iff_forall_ne_some]
        intro owner hown
        obtain ⟨e, he, hce⟩ := (hred.consistent.inputs c owner).mp hown
        have hheld := (hm.inputs c owner).mpr ⟨e, hred.below _ e he, hce⟩
        rw [hm.free_of_no_conflict hfr hcfl c hc] at hheld
        cases hheld
      · rw [hred.maxWeight_eq]
        exact hroom rfl

theorem Consistent.acceptTx (hm : Consistent m) (tx : Transaction) (txHash : Hash256) (now : UInt64) :
    Consistent (m.acceptTx tx txHash now).2 := by
  unfold Mempool.acceptTx
  split
  · exact hm
  · exact hm.acceptValidatedTx tx txHash now

theorem Consistent.acceptTxWithChainView (hm : Consistent m) (tx : Transaction) (txHash : Hash256) (now : UInt64)
    (currentHeight : Nat) (chainId : Hash256) (maturity : Nat)
    (lookupUtxo : Commitment → Except DomError (Option UtxoEntry)) :
    Consistent (m.acceptTxWithChainView X tx txHash now currentHeight chainId maturity lookupUtxo).2 := by
  unfold Mempool.acceptTxWithChainView
  dsimp only
  split
  · exact hm
  · exact hm.acceptValidatedTx tx txHash now

theorem Consistent.reinject {accept : Mempool → Candidate → Except DomError Unit × Mempool}
    (hacc : ∀ m c, Consistent m → Consistent (accept m c).2) (hm : Consistent m) (batch : List Candidate) :
    Consistent (m.reinject accept batch) := by
  unfold Mempool.reinject
  generalize batch.mergeSort _ = sorted
  induction sorted generalizing m with
  | nil => exact hm
  | cons c sorted ih => exact ih (hacc m c hm)

theorem Consistent.reduced_foldl (hm : Consistent m) (hashes : List Hash256) :
    Reduced m (hashes.foldl Mempool.removeTx m) := by
  induction hashes generalizing m with
  | nil => exact hm.reduced
  | cons h hashes ih => exact (hm.reduced_removeTx h).trans (ih (hm.removeTx h))

theorem getElem?_entries_removeTx (m : Mempool) (txHash h : Hash256) :
    (m.removeTx txHash).entries[h]? = if txHash = h then none else m.entries[h]? := by
  unfold Mempool.removeTx
  split
  · rename_i hnone
    split
    · rename_i heq
      rw [← heq, hnone]
    · rfl
  · exact getElem?_erase _ _ _

theorem getElem?_entries_foldl (hashes : List Hash256) (h : Hash256) :
    (hashes.foldl Mempool.removeTx m).entries[h]? = if h ∈ hashes then none else m.entries[h]? := by
  induction hashes generalizing m with
  | nil => simp
  | cons hash hashes ih =>
    rw [List.foldl_cons, ih, getElem?_entries_removeTx]
    by_cases hmem : h ∈ hashes
    · simp [hmem]
    · by_cases heq : hash = h
      · simp [heq]
      · simp [hmem, heq, Ne.symm heq]

theorem totalWeight_foldl_le (hashes : List Hash256) :
    (hashes.foldl Mempool.removeTx m).totalWeight ≤ m.totalWeight := by
  induction hashes generalizing m with
  | nil => exact Nat.le_refl _
  | cons hash hashes ih =>
    refine ih.trans ?_
    unfold Mempool.removeTx
    split
    · exact Nat.le_refl _
    · exact Nat.sub_le _ _

/-- **What is left after a block**: the entries none of whose inputs was spent. -/
theorem Consistent.entries_removeConfirmed (hm : Consistent m) (spent : List Commitment) (h : Hash256)
    (e : MempoolEntry) :
    (m.removeConfirmed spent).entries[h]? = some e ↔ m.entries[h]? = some e ∧ ∀ c ∈ e.tx.inputs, c ∉ spent := by
  have hash_eq : ∀ {k : Hash256} {e : MempoolEntry}, m.entries[k]? = some e → e.txHash = k :=
    fun hk => (new_eq_ok (hm.entryOf _ _ hk)).2.1
  unfold Mempool.removeConfirmed
  dsimp only
  generalize hlist : List.mergeSort _ _ = hashes
  have hmem : ∀ k, k ∈ hashes ↔
      ∃ e : MempoolEntry, m.entries[k]? = some e ∧ ∃ c ∈ e.tx.inputs, c ∈ spent := by
    intro k
    rw [← hlist]
    simp only [List.mem_mergeSort, List.mem_map, List.mem_filter, Prod.exists,
      Std.ExtTreeMap.mem_toList_iff_getElem?_eq_some, List.any_eq_true, decide_eq_true_eq]
    constructor
    · rintro ⟨k', e, ⟨hk, hsp⟩, rfl⟩
      rw [hash_eq hk]
      exact ⟨e, hk, hsp⟩
    · rintro ⟨e, hk, hsp⟩
      exact ⟨k, e, ⟨hk, hsp⟩, hash_eq hk⟩
  rw [getElem?_entries_foldl]
  constructor
  · intro hleft
    split at hleft
    · cases hleft
    · rename_i hkeep
      exact ⟨hleft, fun c hc hsp => hkeep ((hmem h).mpr ⟨e, hleft, c, hc, hsp⟩)⟩
  · rintro ⟨hentry, hunsp⟩
    rw [if_neg, hentry]
    intro hgone
    obtain ⟨e', he', c, hc, hsp⟩ := (hmem h).mp hgone
    obtain rfl := Option.some.inj (hentry.symm.trans he')
    exact hunsp c hc hsp

theorem Consistent.reduced_removeConfirmed (hm : Consistent m) (spent : List Commitment) :
    Reduced m (m.removeConfirmed spent) := hm.reduced_foldl _

end Steps

/-! ## Every sequence of operations -/

inductive Op where
  | accept (tx : Transaction) (txHash : Hash256) (now : UInt64)
  | acceptWithChainView (tx : Transaction) (txHash : Hash256) (now : UInt64) (currentHeight : Nat)
      (chainId : Hash256) (maturity : Nat) (lookupUtxo : Commitment → Except DomError (Option UtxoEntry))
  | remove (txHash : Hash256)
  | removeConfirmed (spent : List Commitment)
  | reinject (batch : List Candidate)
  | reinjectWithChainView (batch : List Candidate) (currentHeight : Nat) (chainId : Hash256) (maturity : Nat)
      (lookupUtxo : Commitment → Except DomError (Option UtxoEntry))
  | evict (minFeeRate : Nat)

/-- The pool after an operation, whether or not it succeeded. -/
def Op.next (m : Mempool) : Op → Mempool
  | .accept tx txHash now => (m.acceptTx tx txHash now).2
  | .acceptWithChainView tx txHash now currentHeight chainId maturity lookupUtxo =>
    (m.acceptTxWithChainView X tx txHash now currentHeight chainId maturity lookupUtxo).2
  | .remove txHash => m.removeTx txHash
  | .removeConfirmed spent => m.removeConfirmed spent
  | .reinject batch => m.reinjectBatch batch
  | .reinjectWithChainView batch currentHeight chainId maturity lookupUtxo =>
    m.reinjectBatchWithChainView X batch currentHeight chainId maturity lookupUtxo
  | .evict minFeeRate => (m.evictLowestFee minFeeRate).toOption.getD m

/-- The pool after a sequence of operations. -/
def run (ops : List Op) : Mempool := ops.foldl (Op.next X) new

theorem Consistent.next {m : Mempool} (hm : Consistent m) (op : Op) : Consistent (op.next X m) := by
  cases op with
  | accept tx txHash now => exact hm.acceptTx tx txHash now
  | acceptWithChainView tx txHash now currentHeight chainId maturity lookupUtxo =>
    exact hm.acceptTxWithChainView X tx txHash now currentHeight chainId maturity lookupUtxo
  | remove txHash => exact hm.removeTx txHash
  | removeConfirmed spent => exact (hm.reduced_removeConfirmed spent).consistent
  | reinject batch => exact hm.reinject (fun m c hm => hm.acceptTx c.tx c.txHash c.now) batch
  | reinjectWithChainView batch currentHeight chainId maturity lookupUtxo =>
    exact hm.reinject
      (fun m c hm => hm.acceptTxWithChainView X c.tx c.txHash c.now currentHeight chainId maturity lookupUtxo) batch
  | evict minFeeRate =>
    show Consistent ((m.evictLowestFee minFeeRate).toOption.getD m)
    cases hevict : m.evictLowestFee minFeeRate with
    | error e => exact hm
    | ok m' => exact (hm.reduced_evict hevict).consistent

theorem consistent_run (ops : List Op) : Consistent (run X ops) := by
  unfold run
  suffices hfold : ∀ m, Consistent m → Consistent (ops.foldl (Op.next X) m) from hfold new consistent_new
  induction ops with
  | nil => exact fun m hm => hm
  | cons op ops ih => exact fun m hm => ih _ (hm.next X op)

/-- **What a block leaves in the pool**, after any operations: exactly the transactions that share no input with it. -/
theorem left_after_block (ops : List Op) (spent : List Commitment) (h : Hash256) (e : MempoolEntry) :
    ((run X ops).removeConfirmed spent).entries[h]? = some e ↔
      (run X ops).entries[h]? = some e ∧ ∀ c ∈ e.tx.inputs, c ∉ spent :=
  (consistent_run X ops).entries_removeConfirmed spent h e

/-- **The pool over every sequence of operations.**  The input index maps exactly the inputs of the pooled
    transactions to their owners; the fee index holds one key for each entry, with the rate its transaction pays;
    the total weight is the sum of the entries' weights and within the capacity; and no two pooled transactions
    share an input. -/
theorem structures_agree (ops : List Op) : (∀ (c : Commitment) (h : Hash256), (run X ops).inputIndex[c]? = some h ↔
        ∃ e : MempoolEntry, (run X ops).entries[h]? = some e ∧ c ∈ e.tx.inputs) ∧
      (∀ key : FeeKey, (run X ops).feeIndex[key]? = some () ↔
        ∃ e : MempoolEntry, (run X ops).entries[key.txHash]? = some e ∧ e.feeRate = key.feeRate) ∧
      (∀ (h : Hash256) (e : MempoolEntry), (run X ops).entries[h]? = some e →
        MempoolEntry.new e.tx h e.receivedAt = .ok e) ∧
      (run X ops).totalWeight = tableSum (·.weight) (run X ops).entries ∧
      (run X ops).totalWeight ≤ (run X ops).maxWeight ∧
      ∀ (h h' : Hash256) (e e' : MempoolEntry), (run X ops).entries[h]? = some e →
        (run X ops).entries[h']? = some e' → ∀ c ∈ e.tx.inputs, c ∈ e'.tx.inputs → h = h' := by
  have hm := consistent_run X ops
  refine ⟨hm.inputs, hm.fees, hm.entryOf, hm.weight, hm.capacity, ?_⟩
  intro h h' e e' he he' c hc hc'
  -- both are the owner the index names
  have howner := (hm.inputs c h).mpr ⟨e, he, hc⟩
  have howner' := (hm.inputs c h').mpr ⟨e', he', hc'⟩
  exact Option.some.inj (howner.symm.trans howner')

/-! ## Refusals -/

section Refusals

variable {m : Mempool} {tx : Transaction} {txHash : Hash256} {now : UInt64}

/-- A transaction that pays to evict the cheapest entry, while all it pays to evict does not make enough room. -/
def EvictsInVain (m : Mempool) (tx : Transaction) (txHash : Hash256) (now : UInt64) : Prop :=
  m.entries[txHash]? = none ∧ m.firstConflictingTx tx txHash = none ∧
    ∃ entry, MempoolEntry.new tx txHash now = .ok entry ∧ entry.weight ≤ m.maxWeight ∧
      m.totalWeight + entry.weight > m.maxWeight ∧
      (∃ evicted, m.evictLowestFee entry.feeRate = .ok evicted ∧ evicted ≠ m) ∧
      (m.makeRoom entry.weight entry.feeRate).1 ≠ .ok ()

theorem totalWeight_evict_le {m' : Mempool} (h : m.evictLowestFee rate = .ok m') :
    m'.totalWeight ≤ m.totalWeight := by
  obtain rfl | ⟨txHash, rfl⟩ := evictLowestFee_eq_ok h
  · exact Nat.le_refl _
  · exact totalWeight_foldl_le [txHash]

theorem totalWeight_makeRoomLoop_le (weight rate fuel : Nat) :
    (makeRoomLoop weight rate fuel m).2.totalWeight ≤ m.totalWeight := by
  induction fuel generalizing m with
  | zero =>
    unfold makeRoomLoop
    split <;> exact Nat.le_refl _
  | succ fuel ih =>
    unfold makeRoomLoop
    split
    · cases hevict : m.evictLowestFee rate with
      | error e => exact Nat.le_refl _
      | ok evicted =>
        dsimp only
        split
        · exact totalWeight_evict_le hevict
        · exact ih.trans (totalWeight_evict_le hevict)
    · exact Nat.le_refl _

/-- A failed attempt to make room leaves the pool alone exactly if its first eviction does. -/
theorem makeRoom_kept_iff {weight : Nat} (hne : (m.makeRoom weight rate).1 ≠ .ok ()) :
    (m.makeRoom weight rate).2 = m ↔ ∀ evicted, m.evictLowestFee rate = .ok evicted → evicted = m := by
  rw [makeRoom_eq] at hne ⊢
  split at hne
  · rw [if_pos ‹_›]
    cases hevict : m.evictLowestFee rate with
    | error e => simp
    | ok evicted =>
      dsimp only
      split
      · simp
      · -- from here on every pool is lighter than the one before the first eviction
        rename_i hlt
        have hle := totalWeight_makeRoomLoop_le (m := evicted) weight rate (evicted.totalWeight + 1)
        refine iff_of_false (fun h => ?_) fun h => ?_
        · rw [makeRoom] at h
          rw [h] at hle
          omega
        · rw [h evicted rfl] at hlt
          omega
  · exact absurd rfl hne

theorem acceptValidatedTx_kept_iff :
    (∀ e m', m.acceptValidatedTx tx txHash now = (.error e, m') → m' = m) ↔ ¬ m.EvictsInVain tx txHash now := by
  constructor
  · rintro hkept ⟨hfr, hcfl, entry, hnew, hfits, -, ⟨evicted, hevict, hne⟩, hfail⟩
    have hctn : m.entries.contains txHash = false := by
      rw [Std.ExtTreeMap.contains_eq_isSome_getElem?, hfr]
      rfl
    cases hroom : m.makeRoom entry.weight entry.feeRate with
    | mk result m₁ =>
      cases result with
      | ok u => exact hfail (by rw [hroom])
      | error e =>
        have heq : m.acceptValidatedTx tx txHash now = (.error e, m₁) := by
          simp [acceptValidatedTx, hctn, hcfl, hnew, Nat.not_lt.mpr hfits, hroom]
        have hsame := (makeRoom_kept_iff hfail).mp (by rw [hroom]; exact hkept e m₁ heq)
        exact hne (hsame evicted hevict)
  · intro hvain e m' h
    obtain ⟨e', heq⟩ | ⟨entry, m₁, hnew, hfr, hcfl, hfits, hcs⟩ := acceptValidatedTx_cases m tx txHash now
    · rw [heq] at h
      exact (congrArg Prod.snd h).symm
    · obtain ⟨e', hroom, heq⟩ | ⟨-, heq⟩ := hcs
      · have hfail : (m.makeRoom entry.weight entry.feeRate).1 ≠ .ok () := by simp [hroom]
        have hkept := (makeRoom_kept_iff hfail).mpr fun evicted hevict => by
          by_contra hne
          refine hvain ⟨hfr, hcfl, entry, hnew, hfits, ?_, ⟨evicted, hevict, hne⟩, hfail⟩
          by_contra hroomy
          rw [makeRoom_eq, if_neg hroomy] at hfail
          exact hfail rfl
        rw [heq] at h
        rw [hroom] at hkept
        exact (congrArg Prod.snd h).symm.trans hkept
      · rw [heq] at h
        cases h

end Refusals

/-! A pool with room for two kernels holds a cheap and a dear one.  A transaction of two kernels that pays more than the
    cheap and less than the dear one is refused, and the cheap one is gone. -/

namespace SmallPool

def kernel (fee : Nat) (h : fee ≤ maxSupplyNoms) : TransactionKernel := ⟨kernelFeatPlain, ⟨fee, h⟩, 0, 0, 0⟩

def cheap : Transaction := ⟨[], [], [kernel 3000 (by decide)], 0⟩
def dear : Transaction := ⟨[], [], [kernel 30000 (by decide)], 0⟩
def between : Transaction := ⟨[], [], [kernel 6000 (by decide), kernel 6000 (by decide)], 0⟩

def pool : Mempool := ((({ new with maxWeight := 6 }).acceptTx cheap 1 0).2.acceptTx dear 2 0).2

end SmallPool

end Mempool

end DomProtocol
