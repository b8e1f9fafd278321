import Mathlib.Algebra.Order.BigOperators.Group.List
import DomProtocol.Mempool
import DomProtocol.Chain.Persistence

/-!
# `Node.Reconcile` — the pool after a block

After a block has been connected the node takes out of the pool what the connected blocks have spent and, after a
reorganization, offers the disconnected transactions to the pool again.  Nothing looks at the other pooled
transactions: a reorganization that unmakes an output, or moves a coinbase out of maturity, leaves the transactions
that spend it in the pool.  `Stranded` says which ones these are, from the state before the block.
-/

namespace DomProtocol

open Lib
open Good (ForkAt WithinPolicy)

/-! ## The operation -/

section Model

variable (X : Externals)

/-- What a transaction is admitted against. -/
structure TxChainView where
  currentHeight : Nat
  chainId : Hash256
  coinbaseMaturity : Nat
  utxos : Table Commitment (Option UtxoEntry)

/-- A disconnected transaction that may return to the pool. -/
structure ReinjectableTx where
  tx : Transaction
  txHash : Hash256
  nowSecs : UInt64
  chainView : TxChainView

def txHash (tx : Transaction) : Except DomError Hash256 := do
  return X.blake2b256 (← tx.serialize)

def snapshotTxChainView (S : ChainState) (tx : Transaction) : TxChainView where
  currentHeight := S.tipHeight
  chainId := S.chainId X
  coinbaseMaturity := S.coinbaseMaturity
  utxos := tx.inputs.foldl (fun t c => if t.contains c then t else t.insert c S.store.utxos[c]?) ∅

def collectSpentCommitments (transactions : List Transaction) : List Commitment :=
  transactions.flatMap (·.inputs)

/-- There is a record, and if it is a coinbase it is mature at the height. -/
def Spendable (height maturity : Nat) (record : Option UtxoEntry) : Prop :=
  ∃ entry ∈ record, entry.isCoinbase = true → entry.isMatureFor height maturity = true

instance (height maturity : Nat) (record : Option UtxoEntry) : Decidable (Spendable height maturity record) :=
  match record with
  | none => .isFalse fun ⟨_, hentry, _⟩ => nomatch hentry
  | some entry =>
    decidable_of_iff (entry.isCoinbase = true → entry.isMatureFor height maturity = true) (by simp [Spendable])

/-- The inputs are live, the outputs and the kernels are new, and no kernel is a coinbase kernel. -/
def ChainState.reinjectable (S : ChainState) (tx : Transaction) : Bool :=
  (tx.kernels.all fun k => k.features &&& kernelFeatCoinbase = 0) &&
    (tx.inputs.all fun c => Spendable S.tipHeight S.coinbaseMaturity S.store.utxos[c]?) &&
    (tx.outputs.all fun o => S.store.utxos[o.commitment]? = none) &&
    tx.kernels.all fun k => S.store.kernels[k.excess]? = none

/-- The disconnected transactions that may return, in the order of their hashes. -/
def collectReinjectableReorgTxs (S : ChainState) (delta : ReorgDelta) : Except DomError (List ReinjectableTx) := do
  let reinject ← (delta.disconnectedTxs.filter S.reinjectable).mapM fun tx => do
    return ⟨tx, ← txHash X tx, UInt64.ofNat S.tipHeight, snapshotTxChainView X S tx⟩
  return reinject.mergeSort fun a b => a.txHash ≤ b.txHash

def Mempool.purge (m : Mempool) (spent : List Commitment) : Mempool :=
  if spent = [] then m else m.removeConfirmed spent

/-- Offer one transaction; a refusal is ignored. -/
def Mempool.readmit (m : Mempool) (tx : ReinjectableTx) : Mempool :=
  (m.acceptTxWithChainView X tx.tx tx.txHash tx.nowSecs tx.chainView.currentHeight tx.chainView.chainId
    tx.chainView.coinbaseMaturity fun c => .ok (tx.chainView.utxos[c]?.join)).2

def reconcileMempoolAfterConnect (S : ChainState) (m : Mempool) (result : ConnectResult)
    (connectedBlockTxs : List Transaction) : Except DomError Unit × Mempool :=
  match result with
  | .BestChain => (.ok (), m.purge (collectSpentCommitments connectedBlockTxs))
  | .Reorg delta =>
    match collectReinjectableReorgTxs X S delta with
    | .error e => (.error e, m)
    | .ok reinjectable =>
      (.ok (), reinjectable.foldl (Mempool.readmit X) (m.purge (collectSpentCommitments delta.connectedTxs)))
  | .SideChain => (.ok (), m)
  | .AlreadyHave => (.ok (), m)

end Model

/-- Every input of the transaction is live at the tip. -/
def TxLive (S : ChainState) (tx : Transaction) : Prop :=
  ∀ c ∈ tx.inputs, Spendable S.tipHeight S.coinbaseMaturity S.store.utxos[c]?

/-- Every input of every pooled transaction is live at the tip. -/
def PoolLive (S : ChainState) (m : Mempool) : Prop :=
  ∀ (h : Hash256) (e : MempoolEntry), m.entries[h]? = some e → TxLive S e.tx

/-! ## The transactions that are left behind -/

section Stranded

variable (X : Externals)

/-- The block is unknown, does not extend the tip, and outranks it: connecting it reorganizes the chain. -/
def Reorganizes (S : ChainState) (block : Block) : Prop :=
  ∃ hash, computeBlockIdentifier X S.networkMagic block.header = .ok hash ∧ S.store.blocks[hash]? = none ∧
    block.header.prevHash ≠ S.tipHash ∧
    isBetterForkChoiceTip block.header.totalDifficulty hash S.tipDifficulty S.tipHash

/-- The stored blocks above the canonical chain up to a stored block, lowest first. -/
def storedBranch (S : ChainState) (hash : Hash256) : List Block :=
  match findCommonAncestor S.store S.tipHash hash with
  | .ok (some ancestor) =>
    match collectBranchBlocks X S.store ancestor S.store.blockBodies.size hash with
    | .ok blocks => (blocks.map (·.2)).reverse
    | .error _ => []
  | _ => []

/-- The record of an output the branch does not spend, once the branch has taken the place of the canonical blocks
    above a height.  The branch may create it.  Otherwise, if the canonical blocks spent it first, it comes back with the
    record of its first creation among them or of its last one below; if they created it first, it is gone; and if they
    do not mention it, nothing changes. -/
def recordAfter (S : ChainState) (height : Nat) (branch : List Block) (c : Commitment) : Option UtxoEntry :=
  let disconnected := utxoDeltas (canonicalAbove S height)
  let kept := utxoDeltas (bodiesOf S.store (S.canonicalChain.take (height + 1)))
  (Delta.firstAdded c (branch.map fun b => utxoDelta (.block b))).or <|
    if Delta.FirstRemoved c disconnected then (Delta.firstAdded c disconnected).or (Delta.lastAdded c kept)
    else if (Delta.firstAdded c disconnected).isSome then none
    else S.store.utxos[c]?

/-- **A transaction that a reorganization strands**: the new branch spends none of its inputs, and one of them is no
    longer there, or a coinbase not mature at the height of the new tip. -/
structure Stranded (S : ChainState) (block : Block) (tx : Transaction) : Prop where
  reorganizes : Reorganizes X S block
  unspent : ∀ c ∈ tx.inputs, ∀ b ∈ storedBranch X S block.header.prevHash ++ [block], c ∉ b.inputs
  dead : ∃ height, forkHeight S block.header.prevHash = some height ∧ ∃ c ∈ tx.inputs,
    ¬ Spendable block.header.height.toNat S.coinbaseMaturity
      (recordAfter S height (storedBranch X S block.header.prevHash ++ [block]) c)

def BlockBody.transactions : BlockBody → List Transaction
  | .block b => b.transactions
  | .identityEnvelope => []

/-- Weight of a transaction by its counts. -/
def Transaction.shapeWeight (tx : Transaction) : Nat :=
  transactionWeight ⟨tx.inputs.length, tx.outputs.length, tx.kernels.length⟩

/-- The pool can take all the transactions a reorganization disconnects without evicting any other. -/
def HasRoom (S : ChainState) (block : Block) (m : Mempool) : Prop :=
  ∀ height, forkHeight S block.header.prevHash = some height →
    m.totalWeight + (((canonicalAbove S height).flatMap fun x => x.2.transactions).map Transaction.shapeWeight).sum ≤
      m.maxWeight

end Stranded

/-! ## What readmission does to the pool -/

variable {tx : Transaction}

namespace Mempool

variable {X : Externals} {m : Mempool}

theorem Consistent.purge (hm : Consistent m) (spent : List Commitment) : Reduced m (m.purge spent) := by
  unfold Mempool.purge
  split
  · exact hm.reduced
  · exact hm.reduced_removeConfirmed spent

theorem Consistent.entries_purge (hm : Consistent m) (spent : List Commitment) (h : Hash256) (e : MempoolEntry) :
    (m.purge spent).entries[h]? = some e ↔ m.entries[h]? = some e ∧ ∀ c ∈ e.tx.inputs, c ∉ spent := by
  unfold Mempool.purge
  split
  · rename_i hnil
    simp [hnil]
  · exact hm.entries_removeConfirmed spent h e

theorem totalWeight_purge_le (m : Mempool) (spent : List Commitment) :
    (m.purge spent).totalWeight ≤ m.totalWeight := by
  unfold Mempool.purge
  split
  · exact Nat.le_refl _
  · exact totalWeight_foldl_le _

theorem readmit_eq (m : Mempool) (r : ReinjectableTx) :
    m.readmit X r = m ∨ m.readmit X r = (m.acceptValidatedTx r.tx r.txHash r.nowSecs).2 := by
  unfold Mempool.readmit acceptTxWithChainView
  dsimp only
  split
  · exact .inl rfl
  · exact .inr rfl

theorem Consistent.readmit (hm : Consistent m) (r : ReinjectableTx) : Consistent (m.readmit X r) := by
  obtain heq | heq := readmit_eq (X := X) m r
  · rw [heq]
    exact hm
  · rw [heq]
    exact hm.acceptValidatedTx _ _ _

variable {h : Hash256} {e : MempoolEntry}

theorem Consistent.entries_readmit (hm : Consistent m) {r : ReinjectableTx}
    (he : (m.readmit X r).entries[h]? = some e) : m.entries[h]? = some e ∨ e.tx = r.tx := by
  obtain heq | heq := readmit_eq (X := X) m r
  · rw [heq] at he
    exact .inl he
  · rw [heq] at he
    obtain ⟨e', hacc⟩ | ⟨entry, m₁, hnew, -, -, -, hcs⟩ := acceptValidatedTx_cases m r.tx r.txHash r.nowSecs
    · rw [hacc] at he
      exact .inl he
    · have hred := (hm.makeRoom entry.weight entry.feeRate).1
      obtain ⟨e', hmake, hacc⟩ | ⟨hmake, hacc⟩ := hcs
      · rw [hacc] at he
        rw [hmake] at hred
        exact .inl (hred.below h e he)
      · rw [hacc] at he
        rw [hmake] at hred
        rw [getElem?_entries_insertEntry] at he
        split at he
        · cases he
          exact .inr (new_eq_ok hnew).1
        · exact .inl (hred.below h e he)

theorem weight_of_new {txHash : Hash256} {now : UInt64} {entry : MempoolEntry}
    (h : MempoolEntry.new tx txHash now = .ok entry) : entry.weight = tx.shapeWeight := by
  simp only [MempoolEntry.new, Transaction.weightChecked, Transaction.feeShape, TransactionShape.fromCounts,
    inversion] at h
  obtain ⟨fee, -, shape, -, weight, ⟨shape', ⟨-, -, -, rfl⟩, rfl⟩, -, rfl⟩ := h
  rfl

theorem readmit_of_room (r : ReinjectableTx) (hroom : m.totalWeight + r.tx.shapeWeight ≤ m.maxWeight) :
    (m.readmit X r).totalWeight ≤ m.totalWeight + r.tx.shapeWeight ∧ (m.readmit X r).maxWeight = m.maxWeight ∧
      ∀ (h : Hash256) (e : MempoolEntry), m.entries[h]? = some e → (m.readmit X r).entries[h]? = some e := by
  have hsame : m.totalWeight ≤ m.totalWeight + r.tx.shapeWeight ∧ m.maxWeight = m.maxWeight ∧
      ∀ (h : Hash256) (e : MempoolEntry), m.entries[h]? = some e → m.entries[h]? = some e :=
    ⟨Nat.le_add_right _ _, rfl, fun _ _ he => he⟩
  obtain heq | heq := readmit_eq (X := X) m r
  · rw [heq]
    exact hsame
  · rw [heq]
    obtain ⟨e', hacc⟩ | ⟨entry, m₁, hnew, hfr, -, -, hcs⟩ := acceptValidatedTx_cases m r.tx r.txHash r.nowSecs
    · rw [hacc]
      exact hsame
    · have hwt := weight_of_new hnew
      rw [makeRoom_eq, if_neg (by omega)] at hcs
      obtain ⟨e', hmake, -⟩ | ⟨hmake, hacc⟩ := hcs
      · cases hmake
      · obtain rfl : m = m₁ := congrArg Prod.snd hmake
        rw [hacc]
        refine ⟨by show m.totalWeight + entry.weight ≤ _; omega, rfl, fun h e he => ?_⟩
        rw [getElem?_entries_insertEntry, if_neg, he]
        intro hsame
        rw [(new_eq_ok hnew).2.1] at hsame
        rw [← hsame, hfr] at he
        cases he

theorem Consistent.entries_readmitAll (hm : Consistent m) (rs : List ReinjectableTx)
    (he : (rs.foldl (Mempool.readmit X) m).entries[h]? = some e) :
    m.entries[h]? = some e ∨ ∃ r ∈ rs, e.tx = r.tx := by
  induction rs generalizing m with
  | nil => exact .inl he
  | cons r rs ih =>
    obtain hbef | ⟨r', hr', heq⟩ := ih (hm.readmit r) he
    · obtain hbef | heq := hm.entries_readmit hbef
      · exact .inl hbef
      · exact .inr ⟨r, List.mem_cons_self, heq⟩
    · exact .inr ⟨r', List.mem_cons_of_mem _ hr', heq⟩

theorem readmitAll_of_room {rs : List ReinjectableTx}
    (hroom : m.totalWeight + (rs.map fun r => r.tx.shapeWeight).sum ≤ m.maxWeight) (he : m.entries[h]? = some e) :
    (rs.foldl (Mempool.readmit X) m).entries[h]? = some e := by
  induction rs generalizing m with
  | nil => exact he
  | cons r rs ih =>
    rw [List.map_cons, List.sum_cons] at hroom
    obtain ⟨hwt, hmax, hkeep⟩ := readmit_of_room (X := X) r (m := m) (by omega)
    exact ih (by rw [hmax]; omega) (hkeep h e he)

end Mempool

/-! ## The transactions offered -/

section Collect

variable {X : Externals} {S : ChainState} {delta : ReorgDelta} {rs : List ReinjectableTx}

theorem ChainState.reinjectable_live (h : S.reinjectable tx = true) : TxLive S tx := by
  simp only [ChainState.reinjectable, Bool.and_eq_true, List.all_eq_true, decide_eq_true_eq] at h
  exact h.1.1.2

theorem collectReinjectableReorgTxs_spec (h : collectReinjectableReorgTxs X S delta = .ok rs) :
    (∀ r ∈ rs, TxLive S r.tx) ∧
      (rs.map fun r => r.tx.shapeWeight).sum ≤ (delta.disconnectedTxs.map Transaction.shapeWeight).sum := by
  simp only [collectReinjectableReorgTxs, inversion] at h
  obtain ⟨unsorted, hmap, rfl⟩ := h
  have hperm := List.mergeSort_perm unsorted fun a b => decide (a.txHash ≤ b.txHash)
  have htxs : unsorted.map (·.tx) = delta.disconnectedTxs.filter S.reinjectable := by
    have hall := mapM_eq_ok.mp hmap
    generalize delta.disconnectedTxs.filter S.reinjectable = txs at hall ⊢
    clear hmap hperm
    induction hall with
    | nil => rfl
    | cons hone _ ih =>
      simp only [inversion] at hone
      obtain ⟨hash, -, rfl⟩ := hone
      rw [List.map_cons, ih]
  constructor
  · intro r hr
    have hmem : r.tx ∈ delta.disconnectedTxs.filter S.reinjectable := by
      rw [← htxs]
      exact List.mem_map_of_mem (hperm.mem_iff.mp hr)
    exact ChainState.reinjectable_live (List.mem_filter.mp hmem).2
  · calc ((unsorted.mergeSort fun a b => decide (a.txHash ≤ b.txHash)).map fun r => r.tx.shapeWeight).sum
        = ((unsorted.map (·.tx)).map Transaction.shapeWeight).sum := by
          rw [List.map_map]
          exact (hperm.map _).sum_eq
      _ ≤ (delta.disconnectedTxs.map Transaction.shapeWeight).sum := by
          rw [htxs]
          exact (List.filter_sublist.map _).sum_le_sum fun _ _ => Nat.zero_le _

theorem collectReinjectableReorgTxs_ok (h : ∀ tx ∈ delta.disconnectedTxs, ∃ bytes, tx.serialize = .ok bytes) :
    ∃ rs, collectReinjectableReorgTxs X S delta = .ok rs := by
  have hmap : ∃ unsorted, (delta.disconnectedTxs.filter S.reinjectable).mapM (fun tx => do
      return (⟨tx, ← txHash X tx, UInt64.ofNat S.tipHeight, snapshotTxChainView X S tx⟩ : ReinjectableTx)) =
        Except.ok unsorted := by
    refine mapM_ok_of_forall fun tx htx => ?_
    obtain ⟨bytes, hbyt⟩ := h tx (List.mem_filter.mp htx).1
    exact ⟨_, by simp only [txHash, hbyt, ok_bind]; rfl⟩
  obtain ⟨unsorted, hunsorted⟩ := hmap
  exact ⟨_, by rw [collectReinjectableReorgTxs, hunsorted]; rfl⟩

theorem serialize_ok_of_valid {block : Block} {ctx : ValidationContext} {networkMagic : UInt32}
    (h : validateBlockForNetwork X block ctx networkMagic = .ok ()) (hht : block.header.height.toNat ≠ 0) :
    ∀ tx ∈ block.transactions, ∃ bytes, tx.serialize = .ok bytes := by
  intro tx htx
  simp only [validateBlockForNetwork, inversion] at h
  obtain ⟨-, weight, -, -, -, -, -, -, fees, -, -, valid, -, -, hrts⟩ := h
  simp only [validatePmmrRoots, computeBlockPmmrRoots, if_neg hht, computeBlockBodyCommitment,
    canonicalBlockBodyBytes, writeList, bind_eq_ok, pure_eq_ok] at hrts
  obtain ⟨_, ⟨_, -, _, ⟨_, ⟨_, -, _, ⟨_, -, encoded, hencoded, -⟩, -⟩, -⟩, -⟩, -⟩ := hrts
  obtain ⟨bytes, -, hbyt⟩ := exists_of_mapM_eq_ok hencoded htx
  exact ⟨bytes, hbyt⟩

end Collect

/-! ## The UTXO set after a block -/

variable {store : DomStore}

section Ledger

variable {X : Externals} {S S₁ : ChainState} {chain : List (Hash256 × BlockHeader)}
variable {block : Block} {hash : Hash256} {now : UInt64} {header : BlockHeader} {a : Hash256 × BlockHeader}
variable {l : List (Hash256 × BlockHeader)} {disc conn : List (Hash256 × Block)}

/-- **The table after a reorganization**, at the outputs that the new branch does not spend. -/
theorem Good.utxos_of_reorgStore (hG : Good X S chain) {t : Hash256}
    (hP : Planned X S chain t now header a l disc conn)
    (h : S.reorgStore t ⟨header, a.2.height.toNat, disc.reverse, conn⟩ = .ok store) {c : Commitment}
    (hunsp : ∀ b ∈ conn.map (·.2), c ∉ b.inputs) :
    store.utxos[c]? = recordAfter S a.2.height.toNat (conn.map (·.2)) c := by
  obtain ⟨hconn, hutx, -⟩ := hG.reorgStore_tables hP h
  have hkeep : ∀ d ∈ utxoChanges conn, c ∉ d.removed := by
    intro d hd
    simp only [utxoChanges, utxoDeltas, List.map_map, List.mem_map] at hd
    obtain ⟨hb, hmem, rfl⟩ := hd
    exact hunsp hb.2 (List.mem_map_of_mem hmem)
  have hbr : utxoChanges conn = (conn.map (·.2)).map fun b => utxoDelta (.block b) := by
    simp [utxoChanges, utxoDeltas, asBody]
  have hdisc : utxoDeltas (canonicalAbove S a.2.height.toNat) = utxoChanges disc := by
    rw [hG.canonicalAbove_of_planned hP]
    rfl
  have hread : store.utxos[c]? = Delta.replay (undoneUtxos S (upTo chain a) disc) (utxoChanges conn) c :=
    congrFun hutx c
  rw [hread, Delta.replay_of_not_removed hconn.replayable.1 hkeep, undoneUtxos, Delta.undo_key, recordAfter,
    hdisc, hG.canonicalChain_eq, hbr]
  rfl

theorem Good.recordAfter_quarantined (hG : Good X S chain) (hI : Incoming X S block hash now)
    (hprun : PrunedFrom X { S with store := S.store.withBlock hash block.header (.block block) } chain S₁)
    (branch : List Block) (c : Commitment) :
    recordAfter S₁ a.2.height.toNat branch c = recordAfter S a.2.height.toNat branch c := by
  have hkept : bodiesOf S₁.store (S₁.canonicalChain.take (a.2.height.toNat + 1)) =
      bodiesOf S.store (S.canonicalChain.take (a.2.height.toNat + 1)) := by
    have hmem : ∀ x ∈ chain.take (a.2.height.toNat + 1), x ∈ chain := fun _ hx => List.mem_of_mem_take hx
    rw [hprun.good.canonicalChain_eq, hG.canonicalChain_eq, hprun.bodiesOf_eq (hG.withBlock hI) hmem]
    exact bodiesOf_withBlock hI.unknown fun x hx => hG.canonical.stored x (hmem x hx)
  have hutx : S₁.store.utxos = S.store.utxos := by
    rw [hprun.frame]
    rfl
  rw [recordAfter, hG.canonicalAbove_quarantined hI hprun, hkept, hutx]
  rfl

theorem Good.branch_of_quarantined (hG : Good X S chain) (hI : Incoming X S block hash now)
    (hprun : PrunedFrom X { S with store := S.store.withBlock hash block.header (.block block) } chain S₁)
    (hP : Planned X S₁ chain hash now header a l disc conn) :
    storedBranch X S block.header.prevHash ++ [block] = conn.map (·.2) := by
  have hancestor := hG.ancestor_of_quarantined hI hprun hP
  have hnd := hP.fork.down.nodup hprun.good.storeOk.ranked
  have hconn := List.rel_reverse hP.connect
  rw [List.reverse_reverse] at hconn
  obtain ⟨m, rfl, hf⟩ := hG.fork_of_quarantined hI hprun hP.fork
  obtain ⟨tips, hT⟩ := hprun.trimmed
  have hbods : ∀ {h : Hash256} {body : BlockBody}, S₁.store.blockBodies[h]? = some body →
      (if hash = h then some (.block block) else S.store.blockBodies[h]?) = some body := by
    intro h body hread
    rw [← blockBodies_withBlock (s := S.store) h]
    exact ((hT.bodies h body).mp hread).1
  generalize hrev : conn.reverse = blocks at hconn
  obtain rfl : conn = blocks.reverse := by rw [← hrev, List.reverse_reverse]
  cases hconn with
  | @cons _ hb _ rest htop hrest =>
    have hblk : block = hb.2 := by
      have hread := hbods htop.body
      rw [if_pos rfl] at hread
      exact BlockBody.block.inj (Option.some.inj hread)
    have hsto : BlocksOf X S m rest := by
      rw [List.map_cons, List.nodup_cons] at hnd
      have hne : ∀ x ∈ m, hash ≠ x.1 := fun x hx heq => hnd.1 (List.mem_map.mpr ⟨x, hx, heq.symm⟩)
      have hmag : S₁.networkMagic = S.networkMagic ∧ S₁.chainId X = S.chainId X := by
        rw [hprun.memory]
        exact ⟨rfl, rfl⟩
      refine ((List.forall₂_and_left m rest).mpr ⟨hne, hrest⟩).imp fun x hb' hx => ?_
      have hread := hbods hx.2.body
      have hval := hx.2.valid
      rw [if_neg hx.1] at hread
      rw [hmag.1, hmag.2] at hval
      exact ⟨hx.2.hash, hx.2.header, hread, hx.2.shape, hval⟩
    have hcollect := hG.collectBranchBlocks_eq hf.down (hG.canonical.stored a hf.mem) hsto
      (hG.length_le_blocks hf.down).2
    simp only [storedBranch, hancestor, hcollect, List.reverse_cons, List.map_append, List.map_reverse]
    rw [List.map_singleton, ← hblk]

end Ledger

/-! ## The pool after a block -/

section Reconcile

variable {X : Externals} {S S₁ S' : ChainState} {chain : List (Hash256 × BlockHeader)} {m m' : Mempool}
variable {block : Block} {hash : Hash256} {now : UInt64}

/-- What has to be shown about a pool `m'` after the block, in terms of the pool `m` before it. -/
def LiveUnlessStranded (X : Externals) (S S' : ChainState) (block : Block) (m m' : Mempool) : Prop :=
  (PoolLive S' m' ↔ ∀ (h : Hash256) (e : MempoolEntry), m.entries[h]? = some e → Stranded X S block e.tx →
      m'.entries[h]? ≠ some e) ∧
    (HasRoom S block m → (PoolLive S' m' ↔
      ∀ (h : Hash256) (e : MempoolEntry), m.entries[h]? = some e → ¬ Stranded X S block e.tx))

theorem liveUnlessStranded_of_live (hlive : PoolLive S' m')
    (hnone : ∀ (h : Hash256) (e : MempoolEntry), m.entries[h]? = some e → ¬ Stranded X S block e.tx) :
    LiveUnlessStranded X S S' block m m' :=
  ⟨iff_of_true hlive fun h e he hstr => absurd hstr (hnone h e he), fun _ => iff_of_true hlive hnone⟩

theorem spendable_mono {height height' maturity : Nat} {record : Option UtxoEntry} (hle : height ≤ height')
    (h : Spendable height maturity record) : Spendable height' maturity record := by
  obtain ⟨entry, hentry, hmtr⟩ := h
  refine ⟨entry, hentry, fun hcb => ?_⟩
  have hold := hmtr hcb
  simp only [UtxoEntry.isMatureFor, hcb, not_true_eq_false, false_or, decide_eq_true_eq] at hold ⊢
  omega

theorem Good.live_extended (hG : Good X S chain) (hI : Incoming X S block hash now)
    (hprev : block.header.prevHash = S.tipHash)
    (hwrt : S.directExtensionStore block hash = .ok store)
    (hprun : PrunedFrom X (S.tipMoved store hash block.header) (chain ++ [(hash, block.header)]) S')
    (hm : m.Consistent) (hlive : PoolLive S m) :
    PoolLive S' (m.purge (collectSpentCommitments block.transactions)) := by
  have hcmt := hI.committed hwrt
  have hutx : S'.store.utxos = store.utxos := by
    rw [hprun.frame]
    rfl
  obtain ⟨htip, hmat⟩ : S'.tipHeight = block.header.height.toNat ∧ S'.coinbaseMaturity = S.coinbaseMaturity := by
    rw [hprun.memory]
    exact ⟨rfl, rfl⟩
  have hht : S.tipHeight ≤ block.header.height.toNat := by
    obtain ⟨parent, hpar, hnext, -⟩ := hI.parent (hI.height_ne_zero hG)
    obtain ⟨tip, hget, hsto, -⟩ := hG.getElem_tip
    rw [hprev, hsto, Option.some.injEq] at hpar
    have htip : tip.height.toNat = S.tipHeight := hG.height_getElem hget
    rw [hpar] at htip
    omega
  intro h e he c hc
  obtain ⟨hbef, hunsp⟩ := (hm.entries_purge _ h e).mp he
  obtain ⟨entry, hentry, hmtr⟩ := hlive h e hbef c hc
  have hread : S'.store.utxos[c]? = some entry := by
    rw [hutx, hcmt.utxos]
    have hentry' : reads S.store.utxos c = some entry := hentry
    rw [Delta.apply_of_untouched, hentry']
    · intro hadd
      rw [hcmt.utxoFits.added_absent c hadd] at hentry'
      cases hentry'
    · exact hunsp c hc
  rw [htip, hmat, hread]
  exact spendable_mono hht ⟨entry, rfl, hmtr⟩

theorem PrunedFrom.live_quarantined
    (hprun : PrunedFrom X { S with store := S.store.withBlock hash block.header (.block block) } chain S')
    (hlive : PoolLive S m) : PoolLive S' m := by
  have hutx : S'.store.utxos = S.store.utxos := by
    rw [hprun.frame]
    rfl
  obtain ⟨hht, hmat⟩ : S'.tipHeight = S.tipHeight ∧ S'.coinbaseMaturity = S.coinbaseMaturity := by
    rw [hprun.memory]
    exact ⟨rfl, rfl⟩
  intro h e he c hc
  rw [hutx, hht, hmat]
  exact hlive h e he c hc

/-- What a reorganization leaves: the promoted block, the blocks on both sides, and the tables. -/
structure ReorgStep (X : Externals) (S : ChainState) (block : Block) (delta : ReorgDelta) (S' : ChainState) :
    Prop where
  reorganizes : Reorganizes X S block
  height : S'.tipHeight = block.header.height.toNat
  maturity : S'.coinbaseMaturity = S.coinbaseMaturity
  spent : collectSpentCommitments delta.connectedTxs =
    (storedBranch X S block.header.prevHash ++ [block]).flatMap Block.inputs
  fork : ∃ height, forkHeight S block.header.prevHash = some height ∧
    (delta.disconnectedTxs.map Transaction.shapeWeight).sum =
      (((canonicalAbove S height).flatMap fun x => x.2.transactions).map Transaction.shapeWeight).sum ∧
    ∀ c, (∀ b ∈ storedBranch X S block.header.prevHash ++ [block], c ∉ b.inputs) →
      S'.store.utxos[c]? = recordAfter S height (storedBranch X S block.header.prevHash ++ [block]) c
  encoded : ∀ tx ∈ delta.disconnectedTxs, ∃ bytes, tx.serialize = .ok bytes

variable {delta : ReorgDelta}

theorem Good.reorgStep (hG : Good X S chain) (hI : Incoming X S block hash now)
    (hprev : block.header.prevHash ≠ S.tipHash)
    (hprun : PrunedFrom X { S with store := S.store.withBlock hash block.header (.block block) } chain S₁)
    (hbet : isBetterForkChoiceTip block.header.totalDifficulty hash S.tipDifficulty S.tipHash) (hprom : S₁.promoteHeavierKnownTip X hash now = (.ok delta, S')) :
    ReorgStep X S block delta S' := by
  have hstep := hprun.good.promoteStep hash now
  rw [hprom] at hstep
  cases hstep with
  | @promoted header a l disc conn store _ hP hwrt haft =>
    change PrunedFrom X _ _ S' at haft
    have hbr := hG.branch_of_quarantined hI hprun hP
    have hsame : canonicalAbove S a.2.height.toNat = disc.map asBody := by
      rw [← hG.canonicalAbove_quarantined hI hprun, hprun.good.canonicalAbove_of_planned hP]
    obtain ⟨tips, hT⟩ := hprun.trimmed
    obtain rfl : block.header = header := by
      have hread := ((hT.blocks hash header).mp hP.stored).1
      rw [blocks_withBlock, if_pos rfl] at hread
      exact Option.some.inj hread
    have hconfig : S₁.coinbaseMaturity = S.coinbaseMaturity := by
      rw [hprun.memory]
    have hutx : S'.store.utxos = store.utxos := by
      rw [haft.frame]
      rfl
    refine ⟨⟨hash, hI.ident, hI.unknown, hprev, hbet⟩, ?_, ?_, ?_, ⟨a.2.height.toNat, ?_, ?_, ?_⟩, ?_⟩
    · rw [haft.memory]
      rfl
    · rw [haft.memory]
      exact hconfig
    · rw [hbr]
      simp [collectSpentCommitments, buildReorgDelta, List.flatMap_map, List.flatMap_assoc, Block.inputs]
    · exact hG.forkHeight_of_ancestor hP.fork.mem (hG.ancestor_of_quarantined hI hprun hP)
    · rw [hsame]
      have hperm : (disc.reverse.flatMap (·.2.transactions)).Perm (disc.flatMap (·.2.transactions)) :=
        disc.reverse_perm.flatMap_right _
      simp only [buildReorgDelta, List.flatMap_map]
      exact (hperm.map _).sum_eq
    · intro c hunsp
      rw [hbr] at hunsp ⊢
      rw [hutx, hprun.good.utxos_of_reorgStore hP hwrt hunsp, hG.recordAfter_quarantined hI hprun]
    · intro tx htx
      obtain ⟨hb, hhb, hmem⟩ := List.mem_flatMap.mp htx
      obtain ⟨x, hx, hat⟩ := hP.disconnect.exists_at hb (List.mem_reverse.mp hhb)
      refine serialize_ok_of_valid hat.valid ?_ tx hmem
      rw [hat.header]
      exact Descends.height_ne_zero (hprun.good.descends_tip hP.fork.mem) (List.mem_reverse.mpr hx)

/-- After a reorganization the transactions whose inputs the branch leaves unspent are live, or stranded. -/
theorem ReorgStep.live_iff (h : ReorgStep X S block delta S')
    (hunsp : ∀ c ∈ tx.inputs, c ∉ collectSpentCommitments delta.connectedTxs) :
    TxLive S' tx ↔ ¬ Stranded X S block tx := by
  obtain ⟨height, hfork, -, hutx⟩ := h.fork
  have hbr : ∀ c ∈ tx.inputs, ∀ b ∈ storedBranch X S block.header.prevHash ++ [block], c ∉ b.inputs := by
    intro c hc b hb hin
    refine hunsp c hc ?_
    rw [h.spent]
    exact List.mem_flatMap.mpr ⟨b, hb, hin⟩
  have hspd : ∀ c ∈ tx.inputs, (Spendable S'.tipHeight S'.coinbaseMaturity S'.store.utxos[c]? ↔
      Spendable block.header.height.toNat S.coinbaseMaturity
        (recordAfter S height (storedBranch X S block.header.prevHash ++ [block]) c)) := by
    intro c hc
    rw [h.height, h.maturity, hutx c (hbr c hc)]
  constructor
  · rintro hlive ⟨-, -, height', hfork', c, hc, hdead⟩
    obtain rfl := Option.some.inj (hfork.symm.trans hfork')
    exact hdead ((hspd c hc).mp (hlive c hc))
  · intro hstr c hc
    by_contra hdead
    exact hstr ⟨h.reorganizes, hbr, height, hfork, c, hc, fun hlive => hdead ((hspd c hc).mpr hlive)⟩

theorem ReorgStep.unspent_of_stranded (h : ReorgStep X S block delta S')
    (hstr : Stranded X S block tx) : ∀ c ∈ tx.inputs, c ∉ collectSpentCommitments delta.connectedTxs := by
  intro c hc hsp
  rw [h.spent] at hsp
  obtain ⟨b, hb, hin⟩ := List.mem_flatMap.mp hsp
  exact hstr.unspent c hc b hb hin

/-- **The pool after a reorganization.** -/
theorem ReorgStep.reconcile (h : ReorgStep X S block delta S') (hm : m.Consistent) :
    ∃ m', reconcileMempoolAfterConnect X S' m (.Reorg delta) block.transactions = (.ok (), m') ∧
      LiveUnlessStranded X S S' block m m' := by
  obtain ⟨rs, hrs⟩ := collectReinjectableReorgTxs_ok (X := X) (S := S') h.encoded
  obtain ⟨hoffered, hwt⟩ := collectReinjectableReorgTxs_spec hrs
  have hpurged := hm.purge (collectSpentCommitments delta.connectedTxs)
  generalize haft : rs.foldl (Mempool.readmit X) (m.purge (collectSpentCommitments delta.connectedTxs)) = m'
  refine ⟨m', by simp only [reconcileMempoolAfterConnect, hrs, haft], ?_⟩
  have hexa : PoolLive S' m' ↔ ∀ (k : Hash256) (e : MempoolEntry), m.entries[k]? = some e →
      Stranded X S block e.tx → m'.entries[k]? ≠ some e := by
    constructor
    · intro hlive k e _ hstr he
      exact (h.live_iff (h.unspent_of_stranded hstr)).mp (hlive k e he) hstr
    · intro hgone k e he
      have he' := he
      rw [← haft] at he'
      obtain hkept | ⟨r, hr, heq⟩ := hpurged.consistent.entries_readmitAll rs he'
      · obtain ⟨hbef, hunsp⟩ := (hm.entries_purge _ k e).mp hkept
        refine (h.live_iff hunsp).mpr fun hstr => ?_
        exact hgone k e hbef hstr he
      · rw [heq]
        exact hoffered r hr
  refine ⟨hexa, fun hroom => ?_⟩
  constructor
  · intro hlive k e he hstr
    obtain ⟨height, hfork, hsum, -⟩ := h.fork
    have hfits := hroom height hfork
    have hle := Mempool.totalWeight_purge_le m (collectSpentCommitments delta.connectedTxs)
    have hkept := (hm.entries_purge _ k e).mpr ⟨he, h.unspent_of_stranded hstr⟩
    refine hexa.mp hlive k e he hstr ?_
    rw [← haft]
    exact Mempool.readmitAll_of_room (by rw [hpurged.maxWeight_eq]; omega) hkept
  · intro hnone
    exact hexa.mpr fun k e he hstr => absurd hstr (hnone k e he)

theorem Reorganizes.not_known (h : Reorganizes X S block) : (S.connectBlock X block now).1 ≠ .ok .AlreadyHave := by
  obtain ⟨hash, hid, hunk, -⟩ := h
  simp only [ChainState.connectBlock, hid, hunk, Option.isSome_none, Bool.false_eq_true, if_false,
    ChainState.connectDirect, ChainState.connectSide, ChainState.pruned]
  repeat' split
  all_goals
    intro hres
    cases hres

/-- **The pool after every block.**  Reconciling succeeds.  Afterwards every pooled transaction spends only live,
    mature outputs if and only if every transaction the block strands has been evicted in favour of a returning one;
    and where the pool has room for the returning transactions, if and only if the block strands none. -/
theorem pool_live_after_connect_iff (hreach : Reachable X S) (hm : m.Consistent) (hlive : PoolLive S m)
    {result : ConnectResult} (hconnect : S.connectBlock X block now = (.ok result, S')) :
    ∃ m', reconcileMempoolAfterConnect X S' m result block.transactions = (.ok (), m') ∧
      (PoolLive S' m' ↔ ∀ (h : Hash256) (e : MempoolEntry), m.entries[h]? = some e →
        Stranded X S block e.tx → m'.entries[h]? ≠ some e) ∧ (HasRoom S block m → (PoolLive S' m' ↔
        ∀ (h : Hash256) (e : MempoolEntry), m.entries[h]? = some e → ¬ Stranded X S block e.tx)) := by
  rcases hreach.sound with hB | ⟨chain, hG, -⟩
  · -- without blocks only transactions without inputs are live
    have hnil : ∀ (h : Hash256) (e : MempoolEntry), m.entries[h]? = some e → ∀ c, c ∉ e.tx.inputs := by
      intro h e he c hc
      obtain ⟨entry, hentry, -⟩ := hlive h e he c hc
      simp [hB.store, DomStore.empty] at hentry
    obtain ⟨e, heq⟩ | ⟨x, S'', heq, -⟩ := hB.connectBlock (X := X) block now
    · rw [heq] at hconnect
      cases hconnect
    · rw [heq] at hconnect
      cases hconnect
      refine ⟨_, rfl, liveUnlessStranded_of_live ?_ ?_⟩
      · intro h e he c hc
        exact absurd hc (hnil h e ((hm.entries_purge _ h e).mp he).1 c)
      · rintro h e he ⟨-, -, -, -, c, hc, -⟩
        exact hnil h e he c hc
  · have hstep := hG.connectStep block now
    have hknown : Reorganizes X S block → (S.connectBlock X block now).1 ≠ .ok .AlreadyHave :=
      Reorganizes.not_known
    rw [hconnect] at hstep hknown
    cases hstep with
    | known => exact ⟨m, rfl, liveUnlessStranded_of_live hlive fun h e _ hstranded => hknown hstranded.1 rfl⟩
    | extended hI hprev hwritten hpruned =>
      refine ⟨_, rfl, liveUnlessStranded_of_live (hG.live_extended hI hprev hwritten hpruned hm hlive) ?_⟩
      rintro h e he ⟨⟨_, -, -, hoff, -⟩, -⟩
      exact hoff hprev
    | quarantined hI hprev hpruned hworse =>
      refine ⟨m, rfl, liveUnlessStranded_of_live ?_ ?_⟩
      · exact hpruned.live_quarantined hlive
      · rintro h e he ⟨⟨hash', hident, -, -, hbetter⟩, -⟩
        rw [hI.ident] at hident
        cases hident
        exact hworse hbetter
    | reorganized hI hprev hpruned hbetter hpromote =>
      exact (hG.reorgStep hI hprev hpruned hbetter hpromote).reconcile hm

end Reconcile

/-! ## Two pools -/

/-- A property of the inputs of all pooled transactions, by evaluation. -/
def Mempool.allInputs (m : Mempool) (p : Commitment → Bool) : Bool :=
  m.entries.toList.all fun x => x.2.tx.inputs.all p

theorem Mempool.allInputs_iff {m : Mempool} {p : Commitment → Bool} :
    m.allInputs p = true ↔ ∀ (h : Hash256) (e : MempoolEntry), m.entries[h]? = some e → ∀ c ∈ e.tx.inputs, p c = true := by
  simp only [allInputs, List.all_eq_true, Prod.forall, Std.ExtTreeMap.mem_toList_iff_getElem?_eq_some]

instance (S : ChainState) (m : Mempool) : Decidable (PoolLive S m) :=
  decidable_of_iff (m.allInputs fun c => Spendable S.tipHeight S.coinbaseMaturity S.store.utxos[c]?) <| by
    simp only [Mempool.allInputs_iff, decide_eq_true_eq, PoolLive, TxLive]

namespace Miniature

/-- A transaction that spends one output and pays the relay fee. -/
def payment (input : ℤ × ℤ) (r : ℤ) : Transaction where
  inputs := [encodePoint input]
  outputs := [output (input.1 - 25000, r)]
  kernels := [{ features := kernelFeatPlain
                fee := ⟨25000, by decide⟩
                lockHeight := 0
                excess := encodePoint (0, r - input.2)
                excessSignature := signatureFor (r - input.2) }]
  offset := 0

/-- The pool of one transaction, admitted on a chain under the hash 5. -/
def pooled (S : ChainState) (tx : Transaction) : Mempool :=
  (Mempool.new.acceptTxWithChainView libraries tx 5 0 S.tipHeight (S.chainId libraries) S.coinbaseMaturity
    fun c => .ok S.store.utxos[c]?).2

theorem consistent_pooled (S : ChainState) (tx : Transaction) : (pooled S tx).Consistent :=
  Mempool.consistent_new.acceptTxWithChainView libraries _ _ _ _ _ _ _

/-- A chain whose best block spends the genesis output, beside a side block of equal work. -/
def moved : ChainState :=
  let best := mine 100 genesis 11 (genesisTimestampRegtest + 1) 8 [transfer [(3300000000, 7)] [(3300000000, 1000)]]
  let side := mine 100 genesis 21 (genesisTimestampRegtest + 1) 18 []
  opened.connectAll libraries now [genesis, best, side]

end Miniature

open Miniature

/-- A pooled payment of the genesis output survives a reorganization above genesis. -/
theorem payment_live_after_reorg :
    let S := Miniature.forked
    let m := Miniature.pooled S (Miniature.payment (3300000000, 7) 1000)
    m.entries.size = 1 ∧ ∃ result S' m',
      S.connectBlock Miniature.libraries Miniature.overtaking Miniature.now = (.ok result, S') ∧ S'.tipHash = 3 ∧
      reconcileMempoolAfterConnect Miniature.libraries S' m result Miniature.overtaking.transactions = (.ok (), m') ∧
      PoolLive S' m' := by
  obtain ⟨result, hresult⟩ := exists_ok (x := (forked.connectBlock libraries
    overtaking now).1) (by decide +kernel)
  obtain ⟨m', hreconcile, hexact, -⟩ := pool_live_after_connect_iff forked_cleanly.reachable
    (consistent_pooled forked (payment (3300000000, 7) 1000)) (by decide +kernel)
    (Prod.ext hresult rfl)
  refine ⟨by decide +kernel, result, _, m', Prod.ext hresult rfl, by decide +kernel, hreconcile, hexact.mpr ?_⟩
  rintro h e he ⟨-, -, height, hfork, c, hc, hdead⟩
  have hzero : forkHeight forked overtaking.header.prevHash = some 0 := by decide +kernel
  obtain rfl := Option.some.inj (hzero.symm.trans hfork)
  have hall : (pooled forked (payment (3300000000, 7) 1000)).allInputs (fun c =>
      Spendable overtaking.header.height.toNat forked.coinbaseMaturity
        (recordAfter forked 0 (storedBranch libraries forked
          overtaking.header.prevHash ++ [overtaking]) c)) = true := by decide +kernel
  exact absurd (of_decide_eq_true (Mempool.allInputs_iff.mp hall h e he c hc)) hdead

/-- A pooled payment of an output that the reorganization unmakes stays in the pool. -/
theorem payment_stranded_by_reorg :
    let S := Miniature.moved
    let m := Miniature.pooled S (Miniature.payment (3300000000, 1000) 1001)
    Reachable Miniature.libraries S ∧ m.Consistent ∧ PoolLive S m ∧ ∃ result S' m',
      S.connectBlock Miniature.libraries Miniature.overtaking Miniature.now = (.ok result, S') ∧
      reconcileMempoolAfterConnect Miniature.libraries S' m result Miniature.overtaking.transactions = (.ok (), m') ∧
      ¬ PoolLive S' m' := by
  refine ⟨reachable_opened.connectAll _ _, consistent_pooled _ _, by decide +kernel, ?_⟩
  obtain ⟨result, hresult, hafter⟩ := exists_of_toOption_any (x := (moved.connectBlock libraries
    overtaking now).1) (p := fun result =>
      let S' := (moved.connectBlock libraries overtaking now).2
      let out := reconcileMempoolAfterConnect libraries S'
        (pooled moved (payment (3300000000, 1000) 1001)) result
        overtaking.transactions
      out.1.isOk && ! decide (PoolLive S' out.2)) (by decide +kernel)
  simp only [Bool.and_eq_true, Bool.not_eq_true', decide_eq_false_iff_not] at hafter
  obtain ⟨u, hu⟩ := exists_ok hafter.1
  exact ⟨result, _, _, Prod.ext hresult rfl, Prod.ext hu rfl, hafter.2⟩

end DomProtocol
