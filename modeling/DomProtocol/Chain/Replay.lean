import DomProtocol.Chain.Run

/-!
# `Chain.Replay` — rebuilding the indices from the canonical bodies

What `reconstruct_canonical_utxo_set` computes is the replay of the canonical change sets.  So where the UTXO table is
that replay, opening the store finds nothing to repair.
-/

namespace DomProtocol

open Lib

variable {X : Externals}
variable {S : ChainState} {chain : List (Hash256 × BlockHeader)}

/-! ## Replaying a block -/

def transactionDelta (height : UInt64) (tx : Transaction) : Delta Commitment UtxoEntry :=
  ⟨tx.inputs, tx.outputs.map fun o => (o.commitment, ⟨height, false, o.proof⟩)⟩

def coinbaseDelta (b : Block) : Delta Commitment UtxoEntry :=
  ⟨[], [(b.coinbase.output.commitment, ⟨b.header.height, true, b.coinbase.output.proof⟩)]⟩

theorem utxoDelta_eq_merge (b : Block) :
    utxoDelta (.block b) = Delta.merge (coinbaseDelta b :: b.transactions.map (transactionDelta b.header.height)) := by
  simp [utxoDelta, Delta.merge, coinbaseDelta, transactionDelta, Block.inputs, Block.utxoEntries, List.flatMap_map]

variable {t : Table Commitment UtxoEntry}

theorem replayTransaction_ok (height : Nat) {blockHeight : UInt64}
    {tx : Transaction} (h : (transactionDelta blockHeight tx).Applicable (reads t)) :
    ∃ t', replayTransaction height blockHeight t tx = .ok t' ∧
      reads t' = (transactionDelta blockHeight tx).apply (reads t) := by
  obtain ⟨removed, t', hdel, hput, hread⟩ := Delta.delete_insert (d := transactionDelta blockHeight tx) h
  exact ⟨t', bind_eq_ok.mpr ⟨removed, hdel, hput⟩, funext hread⟩

/-- **A fitting block is replayed.** -/
theorem replayBlock_ok (height : Nat) {b : Block}
    (h : (utxoDelta (.block b)).Applicable (reads t)) :
    ∃ t', replayBlock height t b = .ok t' ∧ reads t' = (utxoDelta (.block b)).apply (reads t) := by
  rw [utxoDelta_eq_merge] at h ⊢
  obtain ⟨⟨hcb, htxs⟩, hrpl⟩ := h.replay_of_merge
  -- the transactions in order, after the coinbase
  have hfold : ∀ (txs : List Transaction) (t : Table Commitment UtxoEntry),
      Delta.Replayable (reads t) (txs.map (transactionDelta b.header.height)) →
      ∃ t', txs.foldlM (replayTransaction height b.header.height) t = .ok t' ∧
        reads t' = Delta.replay (reads t) (txs.map (transactionDelta b.header.height)) := by
    intro txs
    induction txs with
    | nil => exact fun t _ => ⟨t, rfl, rfl⟩
    | cons tx txs ih =>
      intro t hall
      obtain ⟨t₁, hone, hread⟩ := replayTransaction_ok height hall.1
      obtain ⟨t', hrest, hread'⟩ := ih t₁ (hread ▸ hall.2)
      refine ⟨t', ?_, ?_⟩
      · rw [List.foldlM_cons, hone, ok_bind, hrest]
      · rw [hread', hread]
        rfl
  have habs : t[b.coinbase.output.commitment]? = none :=
    hcb.added_absent _ (by simp [Delta.addedKeys, coinbaseDelta])
  have hread : reads (t.insert b.coinbase.output.commitment
      ⟨b.header.height, true, b.coinbase.output.proof⟩) = (coinbaseDelta b).apply (reads t) := by
    funext c
    rw [Delta.apply_eq_or, reads, getElem?_insert]
    by_cases hc : b.coinbase.output.commitment = c
    · simp [coinbaseDelta, hc]
    · have hbeq : (c == b.coinbase.output.commitment) = false := by simpa using Ne.symm hc
      simp [coinbaseDelta, hc, List.lookup_cons, hbeq]
  obtain ⟨t', hrest, hread'⟩ := hfold b.transactions _ (hread ▸ htxs)
  refine ⟨t', bind_eq_ok.mpr ⟨_, putNew_eq_ok.mpr ⟨habs, rfl⟩, hrest⟩, ?_⟩
  rw [hread', hread, ← hrpl]
  rfl

/-! ## Rebuilding -/

variable {x : Hash256 × BlockHeader}

theorem Good.canonicalBlockAt_eq (hG : Good X S chain) (labels : RebuildLabels) {k : Nat} (hx : chain[k]? = some x) :
    ∃ body, S.store.blockBodies[x.1]? = some body ∧
      ((body = .identityEnvelope ∧ canonicalBlockAt X labels S.store S.networkMagic k = .ok none) ∨
        ∃ b, body = .block b ∧ canonicalBlockAt X labels S.store S.networkMagic k = .ok (some (x.1, b))) := by
  have hsto := hG.canonical.stored x (List.mem_of_getElem? hx)
  have hidx : S.store.heightIndex[k]? = some x.1 := by rw [hG.canonical.index, hx]; rfl
  obtain ⟨body, hbody, hof⟩ := hG.storeOk.body hsto
  refine ⟨body, hbody, ?_⟩
  simp only [canonicalBlockAt, hidx, hbody, okOr, ok_bind]
  cases body with
  | identityEnvelope =>
    have hk : k = 0 := by rw [← hG.height_getElem hx]; exact hof.1
    refine .inl ⟨rfl, ?_⟩
    rw [if_pos ⟨hk, hof.2, rfl⟩]
    rfl
  | block b =>
    have hid : computeBlockIdentifier X S.networkMagic b.header = .ok x.1 := by
      rw [hof.1]
      exact hG.storeOk.ident hsto
    refine .inr ⟨b, rfl, ?_⟩
    rw [if_neg (fun hc => by cases hc.2.2)]
    simp only [BlockBody.decodeBlock, Except.mapError, ok_bind, hid, rejectIf, ne_eq, not_true_eq_false, if_false]
    rfl

/-- **The reconstruction is the replay.**  Where the canonical change sets fit one after the other, the
    reconstruction succeeds and reads as their replay. -/
theorem Good.reconstruct_ok (hG : Good X S chain)
    (hrepl : Delta.Replayable noEntries (utxoDeltas (bodiesOf S.store chain))) :
    ∃ t, reconstructCanonicalUtxoSet X S.store S.tipHeight S.networkMagic = .ok t ∧
      reads t = Delta.replay noEntries (utxoDeltas (bodiesOf S.store chain)) := by
  have htkn : chain.take (S.tipHeight + 1) = chain := by
    rw [← hG.length_chain, List.take_length]
  have hk : S.tipHeight + 1 ≤ chain.length := by rw [hG.length_chain]
  unfold reconstructCanonicalUtxoSet
  nth_rewrite 1 [← htkn]
  -- one height after the other
  generalize S.tipHeight + 1 = k at hk ⊢
  induction k with
  | zero => exact ⟨∅, rfl, by funext c; simp [bodiesOf, utxoDeltas]⟩
  | succ k ih =>
    obtain ⟨t, ht, hread⟩ := ih (by omega)
    have hx := List.getElem?_eq_getElem (show k < chain.length by omega)
    obtain ⟨body, hbody, hcs⟩ := hG.canonicalBlockAt_eq utxoRebuild hx
    have htake : bodiesOf S.store (chain.take (k + 1)) =
        bodiesOf S.store (chain.take k) ++ [(chain[k].1, body)] := by
      rw [List.take_succ_eq_append_getElem (by omega), bodiesOf_append]
      simp [bodiesOf, hbody]
    have hfits : (utxoDelta body).Applicable (reads t) := by
      have hspl := hrepl
      rw [← List.take_append_drop (k + 1) chain, bodiesOf_append, utxoDeltas, List.map_append,
        Delta.replayable_append, htake, List.map_append] at hspl
      rw [hread]
      exact (Delta.replayable_concat.mp hspl.1).2
    rw [List.range_succ, List.foldlM_append, ht, ok_bind, htake, utxoDeltas, List.map_append,
      Delta.replay_append, ← utxoDeltas, ← hread]
    rcases hcs with ⟨rfl, hat⟩ | ⟨b, rfl, hat⟩
    · refine ⟨t, ?_, ?_⟩
      · simp only [List.foldlM_cons, List.foldlM_nil, hat, ok_bind]
        rfl
      · funext c
        simp [utxoDelta, Delta.apply_eq_or]
    · obtain ⟨t', ht', hread'⟩ := replayBlock_ok k hfits
      refine ⟨t', ?_, hread'⟩
      simp only [List.foldlM_cons, List.foldlM_nil, hat, ok_bind, ht']
      rfl

/-- **A ledger is what the reconstruction computes.** -/
theorem Good.reconstruct_eq (hG : Good X S chain) (hL : Ledger S chain) :
    reconstructCanonicalUtxoSet X S.store S.tipHeight S.networkMagic = .ok S.store.utxos := by
  obtain ⟨t, ht, hread⟩ := hG.reconstruct_ok hL.replayable
  rw [ht]
  congr 1
  refine Std.ExtTreeMap.ext_getElem? fun c => ?_
  rw [hL.utxos]
  exact congrFun hread c

/-- The kernel excesses of a stored body, the coinbase kernel first. -/
def BlockBody.excesses : BlockBody → List Commitment
  | .block b => b.excesses
  | .identityEnvelope => []

theorem addedKeys_kernelDelta (hash : Hash256) (body : BlockBody) :
    (kernelDelta hash body).addedKeys = body.excesses := by
  cases body with
  | block b => simp [kernelDelta, Delta.addedKeys, Block.extractKernelExcesses, BlockBody.excesses, Function.comp_def]
  | identityEnvelope => rfl

variable {excess : Commitment} {hash : Hash256}

theorem lookup_kernelDelta {hash' : Hash256} {body : BlockBody} :
    (kernelDelta hash body).added.lookup excess = some hash' ↔ excess ∈ body.excesses ∧ hash = hash' := by
  by_cases hmem : excess ∈ body.excesses
  · cases body with
    | block b =>
      have hlk : (kernelDelta hash (.block b)).added.lookup excess = some hash :=
        List.lookup_graph (fun _ => hash) hmem
      simp [hlk, hmem]
    | identityEnvelope => cases hmem
  · have hnone : (kernelDelta hash body).added.lookup excess = none := by
      rw [Delta.lookup_eq_none, addedKeys_kernelDelta]
      exact hmem
    simp [hnone, hmem]

theorem removed_kernelDeltas {bodies : List (Hash256 × BlockBody)} : ∀ d ∈ kernelDeltas bodies, d.removed = [] := by
  intro d hd
  obtain ⟨⟨hash, body⟩, -, rfl⟩ := List.mem_map.mp hd
  cases body <;> rfl

/-- **No kernel occurs twice on the canonical chain.** -/
theorem Good.nodup_excesses (hG : Good X S chain) :
    ((bodiesOf S.store chain).flatMap fun x => x.2.excesses).Nodup := by
  have hnd := hG.kernelsOk.replayable.nodup_added removed_kernelDeltas
  simpa only [kernelDeltas, List.flatMap_map, addedKeys_kernelDelta] using hnd

/-- **The kernel index maps each canonical kernel to its block**, and nothing else. -/
theorem Good.kernels_iff (hG : Good X S chain) :
    S.store.kernels[excess]? = some hash ↔
      ∃ body, (hash, body) ∈ bodiesOf S.store chain ∧ excess ∈ body.excesses := by
  rw [hG.kernelsOk.kernels, hG.kernelsOk.replayable.replay_eq_some removed_kernelDeltas]
  constructor
  · rintro ⟨d, hd, hlook⟩
    obtain ⟨⟨hash', body⟩, hmem, rfl⟩ := List.mem_map.mp hd
    obtain ⟨hexc, rfl⟩ := lookup_kernelDelta.mp hlook
    exact ⟨body, hmem, hexc⟩
  · rintro ⟨body, hmem, hexc⟩
    exact ⟨kernelDelta hash body, List.mem_map.mpr ⟨_, hmem, rfl⟩, lookup_kernelDelta.mpr ⟨hexc, rfl⟩⟩

theorem Good.kernel_indexed (hG : Good X S chain) (hx : x ∈ chain) {b : Block}
    (hbody : S.store.blockBodies[x.1]? = some (.block b)) (hexc : excess ∈ b.excesses) :
    S.store.kernels[excess]? = some x.1 := by
  have hmem : (x.1, BlockBody.block b) ∈ bodiesOf S.store chain :=
    List.mem_filterMap.mpr ⟨x, hx, by rw [hbody]; rfl⟩
  exact hG.kernels_iff.mpr ⟨_, hmem, hexc⟩

theorem ensureKernelIndices_eq {s : DomStore} {kernels : List (Commitment × Hash256)}
    (h : ∀ p ∈ kernels, s.kernels[p.1]? = some p.2) : s.ensureKernelIndices kernels = .ok s := by
  refine bind_eq_ok.mpr ⟨s.kernels, ?_, rfl⟩
  induction kernels with
  | nil => rfl
  | cons p kernels ih =>
    simp only [List.foldlM_cons, h p List.mem_cons_self, if_true, ok_bind]
    exact ih fun q hq => h q (List.mem_cons_of_mem _ hq)

theorem Good.rebuildKernelIndex_eq (hG : Good X S chain) :
    rebuildKernelIndexFromCanonicalChain X S.store S.tipHeight S.networkMagic = .ok S.store := by
  have hall : ∀ k ∈ List.range (S.tipHeight + 1), k < chain.length := by
    intro k hk
    rw [hG.length_chain]
    exact List.mem_range.mp hk
  unfold rebuildKernelIndexFromCanonicalChain
  -- every block read back leaves the store as it is, so the heights are independent of each other
  generalize List.range (S.tipHeight + 1) = heights at hall ⊢
  induction heights with
  | nil => rfl
  | cons k heights ih =>
    have hlt := hall k List.mem_cons_self
    have hrest := ih fun j hj => hall j (List.mem_cons_of_mem _ hj)
    obtain ⟨body, hbody, ⟨rfl, hat⟩ | ⟨b, rfl, hat⟩⟩ :=
      hG.canonicalBlockAt_eq kernelRebuild (List.getElem?_eq_getElem hlt)
    · simp only [List.foldlM_cons, hat, ok_bind]
      exact hrest
    · have hensure : S.store.ensureKernelIndices (b.extractKernelExcesses chain[k].1) = .ok S.store := by
        refine ensureKernelIndices_eq fun p hp => ?_
        obtain ⟨excess, hexc, rfl⟩ := List.mem_map.mp hp
        exact hG.kernel_indexed (List.getElem_mem hlt) hbody hexc
      simp only [List.foldlM_cons, hat, ok_bind, hensure]
      exact hrest

/-! ## Reopening -/

theorem Good.withDigest (hG : Good X S chain) (digest : Option Hash256) :
    Good X { S with store := { S.store with utxoSetDigest := digest } } chain :=
  ⟨⟨hG.storeOk.ranked, hG.storeOk.work, hG.storeOk.headerSyntax, hG.storeOk.ident, hG.storeOk.body,
      hG.storeOk.header⟩,
    ⟨hG.canonical.index, hG.canonical.stored, hG.canonical.ascending, hG.canonical.genesis, hG.canonical.tip,
      hG.canonical.diskTip, hG.canonical.root⟩,
    ⟨hG.kernelsOk.replayable, hG.kernelsOk.kernels⟩⟩

theorem Good.validatePersistedTip_ok (hG : Good X S chain) :
    ∃ header, ChainState.validatePersistedTip S.store S.tipHash = .ok header ∧
      header.height.toNat = S.tipHeight := by
  obtain ⟨header, hget, hsto, -⟩ := hG.getElem_tip
  obtain ⟨body, hbody, -⟩ := hG.storeOk.body hsto
  have hht := hG.height_getElem hget
  have hidx : S.store.heightIndex[header.height.toNat]? = some S.tipHash := by
    rw [hG.canonical.index, hht, hget]
    rfl
  refine ⟨header, ?_, hht⟩
  simp [ChainState.validatePersistedTip, hsto, hbody, hidx, okOr, rejectIf, pure, Except.pure]

/-- **A store whose UTXO table is the replay of its chain reopens**, unless it is opened for another genesis. -/
theorem Good.openStore_ok (hG : Good X S chain) (hL : Ledger S chain) {anchor : AsertAnchor}
    (hanc : genesisAnchor S.networkMagic = .ok anchor) {genesisHash : Hash256}
    (hgen : validatePersistedGenesisIdentity S.store genesisHash = .ok ()) :
    ∃ S', ChainState.openStore X S.store genesisHash S.networkMagic = .ok S' := by
  obtain ⟨header, htip, hht⟩ := hG.validatePersistedTip_ok
  -- at most the digest is written
  have hensure : ∃ digest, ensureCanonicalUtxoSet X S.store S.tipHeight S.networkMagic false =
      .ok { S.store with utxoSetDigest := digest } := by
    simp only [ensureCanonicalUtxoSet, hG.reconstruct_eq hL, ok_bind, if_true]
    by_cases hsame : S.store.utxoSetDigest ≠ some (digestUtxoEntries X S.store.utxos)
    · exact ⟨_, by rw [if_pos hsame]; rfl⟩
    · exact ⟨S.store.utxoSetDigest, by rw [if_neg hsame]; rfl⟩
  obtain ⟨digest, hdigest⟩ := hensure
  obtain ⟨tips, store', hprune, hT, -⟩ := (hG.withDigest digest).pruned_good
  have hprune' : pruneRetainedSideChains { S.store with utxoSetDigest := digest } S.tipHeight S.tipHash =
      .ok store' := hprune
  have hgen' : validatePersistedGenesisIdentity store' genesisHash = .ok () := by
    have hidx : store'.heightIndex = S.store.heightIndex := by rw [hT.frame]
    simpa only [validatePersistedGenesisIdentity, hidx] using hgen
  have hreopened : (do
      let header ← ChainState.validatePersistedTip S.store S.tipHash
      let store ← rebuildKernelIndexFromCanonicalChain X S.store header.height.toNat S.networkMagic
      let store ← ensureCanonicalUtxoSet X store header.height.toNat S.networkMagic false
      let store ← pruneRetainedSideChains store header.height.toNat S.tipHash
      return (store, S.tipHash, header.height.toNat, header.totalDifficulty)) =
      (.ok (store', S.tipHash, S.tipHeight, header.totalDifficulty) : Except DomError _) := by
    rw [htip, ok_bind, hht, hG.rebuildKernelIndex_eq, ok_bind, hdigest, ok_bind, hprune']
    rfl
  simp only [ChainState.openStore, ChainState.openInner, hanc, Except.mapError, ok_bind, hG.canonical.diskTip]
  rw [hreopened, ok_bind]
  exact ⟨_, bind_eq_ok.mpr ⟨(), hgen', rfl⟩⟩

end DomProtocol
