import DomProtocol.Chain.Retention

/-!
# `Chain.Extend` — accepting a block: storing it and extending the tip

What `connect_block` has checked about a block when it starts to write, and the two writes that do not
reorganize: quarantining a side block and committing a block on the tip.
-/

namespace DomProtocol

open Lib ChainState

variable {X : Externals}
variable {S : ChainState} {chain : List (Hash256 × BlockHeader)}

/-! ## Checked blocks -/

/-- An unknown block that passed every check of `connect_block` that comes before the ledger. -/
structure Incoming (X : Externals) (S : ChainState) (block : Block) (hash : Hash256) (now : UInt64) :
    Prop where
  ident : computeBlockIdentifier X S.networkMagic block.header = .ok hash
  unknown : S.store.blocks[hash]? = none
  checked : S.validateIncomingBlock X block hash now = .ok ()

namespace Incoming

variable {block : Block} {hash : Hash256} {now : UInt64}

variable (h : Incoming X S block hash now)
include h

theorem stages : validateHeaderSyntax block.header S.networkMagic = .ok () ∧
      S.validateGenesisIdentity block.header hash = .ok () ∧ S.validateHeaderContext X block.header now = .ok () ∧
      validateBlockForNetwork X block ⟨block.header.height.toNat, S.chainId X⟩ S.networkMagic = .ok () := by
  have hchkd := h.checked
  simp only [validateIncomingBlock, validateHeaderIdentity, inversion] at hchkd
  obtain ⟨⟨hwf, hgen⟩, -, hcontext, hval⟩ := hchkd
  exact ⟨hwf, hgen, hcontext, hval⟩

theorem headerSyntax : validateHeaderSyntax block.header S.networkMagic = .ok () := h.stages.1

theorem valid : validateBlockForNetwork X block ⟨block.header.height.toNat, S.chainId X⟩ S.networkMagic = .ok () :=
  h.stages.2.2.2

theorem shape : BlockShape block := validateBlockForNetwork_shape X h.valid

theorem parent (hht : block.header.height.toNat ≠ 0) :
    ∃ parent, S.store.blocks[block.header.prevHash]? = some parent ∧
      block.header.height.toNat = parent.height.toNat + 1 ∧
      parent.totalDifficulty < block.header.totalDifficulty := by
  have hcontext := h.stages.2.2.1
  simp only [validateHeaderContext, if_pos hht, inversion, map_eq_ok] at hcontext
  obtain ⟨_, ⟨parent, hlink, rfl⟩, -, seed, -, -, -, hwork⟩ := hcontext
  simp only [validateParentLink, inversion, not_not, ne_eq] at hlink
  obtain ⟨parent, hsto, expected, hnext, hht', -, -, rfl⟩ := hlink
  have hlt := validateTotalDifficulty_lt hwork
  refine ⟨parent, hsto, ?_, hlt⟩
  rw [hht']
  exact (checkedAdd64_eq_some.mp hnext).2.symm

theorem height_ne_zero (hG : Good X S chain) : block.header.height.toNat ≠ 0 := by
  intro hht
  have hgen := h.stages.2.1
  obtain ⟨x, hx⟩ := List.exists_mem_of_ne_nil chain hG.canonical.ne_nil
  have hpos := List.length_pos_of_mem hx
  have hidx := hG.canonical.index 0
  rw [List.getElem?_eq_getElem hpos, Option.map_some] at hidx
  simp only [validateGenesisIdentity, hht, hidx, inversion, ne_eq, not_true_eq_false, if_false,
    not_not] at hgen
  have hsto := hG.canonical.stored _ (List.getElem_mem hpos)
  rw [hgen.2.2, h.unknown] at hsto
  cases hsto

omit h

end Incoming

/-! ## Adding a stored block -/

def DomStore.withBlock (s : DomStore) (hash : Hash256) (header : BlockHeader) (body : BlockBody) : DomStore :=
  { s with blocks := s.blocks.insert hash header, blockBodies := s.blockBodies.insert hash body }

/-- A header and its body that may be added to sound stored blocks. -/
structure Fits (X : Externals) (networkMagic : UInt32) (chainId : Hash256) (s : DomStore) (hash : Hash256)
    (header : BlockHeader) (body : BlockBody) : Prop where
  unknown : s.blocks[hash]? = none
  headerSyntax : validateHeaderSyntax header networkMagic = .ok ()
  ident : computeBlockIdentifier X networkMagic header = .ok hash
  body : BodyOf X networkMagic chainId header body
  parent : ∀ p, parentOf header = some p → ∃ parent : BlockHeader, s.blocks[p]? = some parent ∧
    header.height.toNat = parent.height.toNat + 1 ∧ parent.totalDifficulty < header.totalDifficulty

variable {k chainId : Hash256} {networkMagic : UInt32}

section withBlock

variable {s : DomStore} {hash : Hash256} {header : BlockHeader} {body : BlockBody}

theorem blocks_withBlock (h : Hash256) :
    (s.withBlock hash header body).blocks[h]? = if hash = h then some header else s.blocks[h]? :=
  getElem?_insert _ _ _ _

theorem blockBodies_withBlock (h : Hash256) :
    (s.withBlock hash header body).blockBodies[h]? = if hash = h then some body else s.blockBodies[h]? :=
  getElem?_insert _ _ _ _

theorem blocks_withBlock_of_stored (h : s.blocks[hash]? = none) {old : BlockHeader}
    (hsto : s.blocks[k]? = some old) : (s.withBlock hash header body).blocks[k]? = some old := by
  have hne : hash ≠ k := by
    rintro rfl
    rw [h] at hsto
    cases hsto
  rw [blocks_withBlock, if_neg hne, hsto]

theorem blocks_withBlock_cases {header' : BlockHeader}
    (h : (s.withBlock hash header body).blocks[k]? = some header') :
    (hash = k ∧ header = header') ∨ (hash ≠ k ∧ s.blocks[k]? = some header') := by
  rw [blocks_withBlock] at h
  by_cases heq : hash = k
  · rw [if_pos heq, Option.some.injEq] at h
    exact .inl ⟨heq, h⟩
  · rw [if_neg heq] at h
    exact .inr ⟨heq, h⟩

/-- **A fitting block keeps the stored blocks sound.** -/
theorem StoreOk.withBlock (hS : StoreOk X networkMagic chainId s)
    (hF : Fits X networkMagic chainId s hash header body) :
    StoreOk X networkMagic chainId (s.withBlock hash header body) := by
  have hkeep : ∀ {k : Hash256} {old : BlockHeader}, s.blocks[k]? = some old →
      (s.withBlock hash header body).blocks[k]? = some old := blocks_withBlock_of_stored hF.unknown
  refine ⟨?_, ?_, ?_, ?_, ?_, ?_⟩
  · intro k header' p hread hp
    rcases blocks_withBlock_cases hread with ⟨rfl, rfl⟩ | ⟨-, hold⟩
    · obtain ⟨parent, hpar, hht, -⟩ := hF.parent p hp
      exact ⟨parent, hkeep hpar, hht⟩
    · obtain ⟨parent, hpar, hht⟩ := hS.parent hold hp
      exact ⟨parent, hkeep hpar, hht⟩
  · intro k p header' parent hread hp hpar
    rcases blocks_withBlock_cases hread with ⟨rfl, rfl⟩ | ⟨-, hold⟩
    · obtain ⟨parent', hpar', -, hwork⟩ := hF.parent p hp
      rw [hkeep hpar', Option.some.injEq] at hpar
      exact hpar ▸ hwork
    · obtain ⟨parent', hpar', -⟩ := hS.parent hold hp
      rw [hkeep hpar', Option.some.injEq] at hpar
      exact hS.work hold hp (hpar ▸ hpar')
  · intro k header' hread
    rcases blocks_withBlock_cases hread with ⟨-, rfl⟩ | ⟨-, hold⟩
    · exact hF.headerSyntax
    · exact hS.headerSyntax hold
  · intro k header' hread
    rcases blocks_withBlock_cases hread with ⟨rfl, rfl⟩ | ⟨-, hold⟩
    · exact hF.ident
    · exact hS.ident hold
  · intro k header' hread
    rcases blocks_withBlock_cases hread with ⟨rfl, rfl⟩ | ⟨hne, hold⟩
    · exact ⟨body, by rw [blockBodies_withBlock, if_pos rfl], hF.body⟩
    · obtain ⟨body', hbody, hof⟩ := hS.body hold
      exact ⟨body', by rw [blockBodies_withBlock, if_neg hne, hbody], hof⟩
  · intro k body' hread
    rw [blockBodies_withBlock] at hread
    by_cases heq : hash = k
    · exact ⟨header, by rw [blocks_withBlock, if_pos heq]⟩
    · rw [if_neg heq] at hread
      obtain ⟨header', hsto⟩ := hS.header hread
      exact ⟨header', hkeep hsto⟩

theorem StoreOk.bodies_unknown
    (hS : StoreOk X networkMagic chainId s) (h : s.blocks[hash]? = none) : s.blockBodies[hash]? = none := by
  cases hbody : s.blockBodies[hash]? with
  | none => rfl
  | some body =>
    obtain ⟨header, hsto⟩ := hS.header hbody
    rw [h] at hsto
    cases hsto

theorem bodiesOf_withBlock (h : s.blocks[hash]? = none)
    {chain : List (Hash256 × BlockHeader)} (hsto : ∀ x ∈ chain, s.blocks[x.1]? = some x.2) :
    bodiesOf (s.withBlock hash header body) chain = bodiesOf s chain := by
  refine bodiesOf_congr fun x hx => ?_
  have hread := hsto x hx
  have hne : hash ≠ x.1 := by
    rintro rfl
    rw [h] at hread
    cases hread
  rw [blockBodies_withBlock, if_neg hne]

end withBlock

variable {hash : Hash256}

theorem Incoming.fits {block : Block} {now : UInt64} (hI : Incoming X S block hash now) :
    Fits X S.networkMagic (S.chainId X) S.store hash block.header (.block block) := by
  refine ⟨hI.unknown, hI.headerSyntax, hI.ident, ⟨rfl, hI.shape, fun _ => hI.valid⟩, ?_⟩
  intro p hp
  obtain ⟨hht, rfl⟩ := parentOf_eq_some.mp hp
  exact hI.parent hht

/-! ## Quarantining a side block -/

namespace Good

variable {block : Block} {hash : Hash256} {now : UInt64}

theorem withBlock (hG : Good X S chain) (hI : Incoming X S block hash now) :
    Good X { S with store := S.store.withBlock hash block.header (.block block) } chain := by
  have hC := hG.canonical
  have hbods : bodiesOf (S.store.withBlock hash block.header (.block block)) chain = bodiesOf S.store chain :=
    bodiesOf_withBlock hI.unknown hC.stored
  refine ⟨hG.storeOk.withBlock hI.fits, ⟨hC.index, ?_, hC.ascending, hC.genesis, hC.tip, hC.diskTip, ?_⟩, ?_⟩
  · intro x hx
    exact blocks_withBlock_of_stored hI.unknown (hC.stored x hx)
  · intro k header hread hht
    rcases blocks_withBlock_cases hread with ⟨-, rfl⟩ | ⟨-, hold⟩
    · exact absurd hht (hI.height_ne_zero hG)
    · exact hC.root hold hht
  · refine ⟨?_, ?_⟩
    · simp only [hbods]
      exact hG.kernelsOk.replayable
    · intro excess
      simp only [hbods]
      exact hG.kernelsOk.kernels excess

theorem storeKnownBlock_eq (hG : Good X S chain) (hI : Incoming X S block hash now) :
    S.store.storeKnownBlock hash block.header (.block block) =
      .ok (S.store.withBlock hash block.header (.block block)) :=
  DomStore.putBlockNew_eq_ok.mpr ⟨hI.unknown, hG.storeOk.bodies_unknown hI.unknown, rfl⟩

end Good

/-! ## Committing a block as the new tip -/

structure Committed (s s' : DomStore) (hash : Hash256) (height : Nat) (header : BlockHeader)
    (body : BlockBody) : Prop where
  unknown : s.blocks[hash]? = none
  bodyUnknown : s.blockBodies[hash]? = none
  stored : s'.blocks = (s.withBlock hash header body).blocks
  bodies : s'.blockBodies = (s.withBlock hash header body).blockBodies
  index : s'.heightIndex = s.heightIndex.insert height hash
  tip : s'.chainTip = some hash
  digest : s'.utxoSetDigest = none
  utxoFits : (utxoDelta body).Applicable (reads s.utxos)
  utxos : ∀ c, s'.utxos[c]? = (utxoDelta body).apply (reads s.utxos) c
  kernelFits : (kernelDelta hash body).Applicable (reads s.kernels)
  kernels : ∀ excess, s'.kernels[excess]? = (kernelDelta hash body).apply (reads s.kernels) excess

variable {height : Nat} {header : BlockHeader} {body : BlockBody}

/-- **A commit goes through exactly when both change sets fit.** -/
theorem commitBlock_iff {s s' : DomStore} (hcut : ∀ c ∈ (utxoDelta body).removed, c ∉ (utxoDelta body).addedKeys) :
    s.commitBlock hash height header body (utxoDelta body).added (utxoDelta body).removed
      (kernelDelta hash body).added = .ok s' ↔ Committed s s' hash height header body := by
  have hker : kernelDelta hash body = Delta.mk [] (kernelDelta hash body).added := by cases body <;> rfl
  simp only [DomStore.commitBlock, inversion, DomStore.putBlockNew_eq_ok]
  constructor
  · rintro ⟨_, ⟨hblk, hbody, rfl⟩, added, hadd, utxos, hutx, kernels, hkers, rfl⟩
    obtain ⟨hfits, hread⟩ := (Delta.insert_delete_iff hcut).mp ⟨added, hadd, hutx⟩
    obtain ⟨hkfits, hkread⟩ := Delta.insert_iff.mp hkers
    rw [← hker] at hkfits hkread
    exact ⟨hblk, hbody, rfl, rfl, rfl, rfl, rfl, hfits, hread, hkfits, hkread⟩
  · intro h
    obtain ⟨added, hadd, hutx⟩ := (Delta.insert_delete_iff hcut).mpr ⟨h.utxoFits, h.utxos⟩
    have hkers := (Delta.insert_iff (e := DomStore.kernelReplayError)).mpr
      ⟨hker ▸ h.kernelFits, hker ▸ h.kernels⟩
    exact ⟨_, ⟨h.unknown, h.bodyUnknown, rfl⟩, added, hadd, s'.utxos, hutx, s'.kernels, hkers,
      DomStore.ext h.stored.symm h.bodies.symm h.index.symm h.tip.symm rfl rfl h.digest.symm⟩

section Committed

variable {s s' : DomStore} {hash : Hash256} {height : Nat} {header : BlockHeader} {body : BlockBody}

theorem Committed.storeOk
    (h : Committed s s' hash height header body) (hS : StoreOk X networkMagic chainId s)
    (hF : Fits X networkMagic chainId s hash header body) : StoreOk X networkMagic chainId s' := by
  have hnew := hS.withBlock hF
  refine ⟨?_, ?_, ?_, ?_, ?_, ?_⟩
  all_goals simp only [h.stored, h.bodies]
  · exact hnew.ranked
  · exact hnew.work
  · exact hnew.headerSyntax
  · exact hnew.ident
  · exact hnew.body
  · exact hnew.header

theorem Committed.bodiesOf_concat (h : Committed s s' hash height header body)
    {chain : List (Hash256 × BlockHeader)} (hsto : ∀ x ∈ chain, s.blocks[x.1]? = some x.2) :
    bodiesOf s' (chain ++ [(hash, header)]) = bodiesOf s chain ++ [(hash, body)] := by
  have hold : bodiesOf s' chain = bodiesOf (s.withBlock hash header body) chain :=
    bodiesOf_congr fun x _ => by rw [h.bodies]
  have hnew : s'.blockBodies[hash]? = some body := by rw [h.bodies, blockBodies_withBlock, if_pos rfl]
  have hkept : bodiesOf (s.withBlock hash header body) chain = bodiesOf s chain :=
    bodiesOf_withBlock h.unknown hsto
  rw [← hkept, ← hold]
  simp [bodiesOf, hnew]

end Committed

variable {S' : ChainState}

theorem KernelsOk.commit (hK : KernelsOk S chain) (h : Committed S.store S'.store hash height header body)
    (hsto : ∀ x ∈ chain, S.store.blocks[x.1]? = some x.2) : KernelsOk S' (chain ++ [(hash, header)]) := by
  have hrds : reads S.store.kernels = Delta.replay noEntries (kernelDeltas (bodiesOf S.store chain)) :=
    funext hK.kernels
  refine ⟨?_, fun excess => ?_⟩
  · rw [h.bodiesOf_concat hsto, kernelDeltas, List.map_append]
    exact Delta.replayable_concat.mpr ⟨hK.replayable, hrds ▸ h.kernelFits⟩
  · rw [h.bodiesOf_concat hsto, kernelDeltas, List.map_append, Delta.replay_append, h.kernels, hrds]
    rfl

theorem Ledger.commit (hL : Ledger S chain) (h : Committed S.store S'.store hash height header body)
    (hsto : ∀ x ∈ chain, S.store.blocks[x.1]? = some x.2) : Ledger S' (chain ++ [(hash, header)]) := by
  have hrds : reads S.store.utxos = Delta.replay noEntries (utxoDeltas (bodiesOf S.store chain)) :=
    funext hL.utxos
  refine ⟨?_, fun c => ?_⟩
  · rw [h.bodiesOf_concat hsto, utxoDeltas, List.map_append]
    exact Delta.replayable_concat.mpr ⟨hL.replayable, hrds ▸ h.utxoFits⟩
  · rw [h.bodiesOf_concat hsto, utxoDeltas, List.map_append, Delta.replay_append, h.utxos, hrds]
    rfl

/-- The state whose tip is a newly committed block. -/
def ChainState.tipMoved (S : ChainState) (store : DomStore) (hash : Hash256) (header : BlockHeader) :
    ChainState :=
  { S with store, tipHash := hash, tipHeight := header.height.toNat, tipDifficulty := header.totalDifficulty }

variable {store : DomStore}

/-- **A committed block on the tip is the new last block of the canonical chain.** -/
theorem Good.commit (hG : Good X S chain) (h : Committed S.store store hash header.height.toNat header body)
    (hF : Fits X S.networkMagic (S.chainId X) S.store hash header body) (hpar : parentOf header = some S.tipHash) :
    Good X (S.tipMoved store hash header) (chain ++ [(hash, header)]) := by
  have hC := hG.canonical
  have hlen := hG.length_chain
  obtain ⟨tipHeader, hget, htip, -⟩ := hG.getElem_tip
  have hht : header.height.toNat = chain.length := by
    obtain ⟨parent, hsto, hnext, -⟩ := hF.parent _ hpar
    obtain rfl := Option.some.inj (hsto.symm.trans htip)
    rw [hnext, hlen, hG.height_getElem hget]
  refine ⟨h.storeOk hG.storeOk hF, ⟨?_, ?_, ?_, ?_, ?_, h.tip, ?_⟩, ?_⟩
  · intro k
    simp only [tipMoved, h.index]
    rw [getElem?_insert, hht, hC.index]
    by_cases hk : chain.length = k
    · rw [if_pos hk, ← hk]
      simp
    · rw [if_neg hk]
      rcases Nat.lt_or_ge k chain.length with hlt | hge
      · rw [List.getElem?_append_left hlt]
      · have hlong : (chain ++ [(hash, header)]).length ≤ k := by
          rw [List.length_append, List.length_singleton]
          omega
        rw [List.getElem?_eq_none hge, List.getElem?_eq_none hlong]
  · intro x hx
    simp only [tipMoved, h.stored]
    rcases List.mem_append.mp hx with hx | hx
    · exact blocks_withBlock_of_stored h.unknown (hC.stored x hx)
    · rw [List.mem_singleton.mp hx, blocks_withBlock, if_pos rfl]
  · refine List.isChain_append.mpr ⟨hC.ascending, List.isChain_singleton _, ?_⟩
    intro x hx y hy
    obtain ⟨x', hlast, htipHash, -⟩ := hC.tip
    obtain rfl := Option.some.inj (hlast.symm.trans hx)
    obtain rfl : (hash, header) = y := by simpa using hy
    rw [htipHash]
    exact hpar
  · intro x hx
    rw [List.head?_append_of_ne_nil _ hC.ne_nil] at hx
    exact hC.genesis x hx
  · exact ⟨(hash, header), List.getLast?_concat, rfl, rfl, rfl⟩
  · intro k header' hread hzero
    simp only [tipMoved, h.stored] at hread
    rw [List.head?_append_of_ne_nil _ hC.ne_nil]
    rcases blocks_withBlock_cases hread with ⟨-, rfl⟩ | ⟨-, hold⟩
    · exact absurd hzero (parentOf_eq_some.mp hpar).1
    · exact hC.root hold hzero
  · exact hG.kernelsOk.commit h hC.stored

/-! ## The first block -/

theorem storeOk_empty (networkMagic : UInt32) (chainId : Hash256) :
    StoreOk X networkMagic chainId DomStore.empty := by
  refine ⟨?_, ?_, ?_, ?_, ?_, ?_⟩ <;> intro h <;> simp [DomStore.empty]

theorem Blank.commit (hB : Blank S) (h : Committed S.store store hash 0 header body)
    (hF : Fits X S.networkMagic (S.chainId X) S.store hash header body) (hht : header.height.toNat = 0) :
    Good X (S.tipMoved store hash header) [(hash, header)] ∧ Retained (S.tipMoved store hash header) [(hash, header)] ∧
      Ledger (S.tipMoved store hash header) [(hash, header)] := by
  have hone {k : Hash256} {header' : BlockHeader} (hread : store.blocks[k]? = some header') : hash = k ∧ header = header' := by
    simp only [h.stored] at hread
    rcases blocks_withBlock_cases hread with hsame | ⟨-, hold⟩
    · exact hsame
    · simp [hB.store, DomStore.empty] at hold
  have hemp : StoreOk X S.networkMagic (S.chainId X) S.store := hB.store ▸ storeOk_empty _ _
  have hkers : KernelsOk S [] := by
    refine ⟨trivial, fun excess => ?_⟩
    simp [hB.store, DomStore.empty, kernelDeltas, bodiesOf]
  have hled : Ledger S [] := by
    refine ⟨trivial, fun c => ?_⟩
    simp [hB.store, DomStore.empty, utxoDeltas, bodiesOf]
  refine ⟨⟨h.storeOk hemp hF, ⟨?_, ?_, List.isChain_singleton _, ?_, ?_, h.tip, ?_⟩, ?_⟩, ?_, ?_⟩
  · intro k
    simp only [tipMoved, h.index, getElem?_insert, hB.store]
    cases k with
    | zero => rfl
    | succ k => simp [DomStore.empty]
  · intro x hx
    simp only [tipMoved, h.stored]
    rw [List.mem_singleton.mp hx, blocks_withBlock, if_pos rfl]
  · intro x hx
    obtain rfl := Option.some.inj hx
    exact hht
  · exact ⟨(hash, header), rfl, rfl, rfl, rfl⟩
  · intro k header' hread _
    obtain ⟨rfl, rfl⟩ := hone hread
    rfl
  · exact hkers.commit h (by simp)
  · intro k header' hread hside
    obtain ⟨rfl, -⟩ := hone hread
    exact absurd (by simp) hside
  · exact hled.commit h (by simp)

/-! ## Direct extension -/

/-- The spent coinbase outputs among `inputs` are mature at a height. -/
def InputsMature (m : Commitment → Option UtxoEntry) (height maturity : Nat) (inputs : List Commitment) : Prop :=
  ∀ c ∈ inputs, ∀ entry, m c = some entry → entry.isCoinbase = true → entry.isMatureFor height maturity = true

/-- **A direct extension goes through exactly when** it improves the tip, its spends are mature and its change
    sets fit. -/
theorem directExtensionStore_iff {block : Block} (hshp : BlockShape block) :
    S.directExtensionStore block hash = .ok store ↔
      isBetterForkChoiceTip block.header.totalDifficulty hash S.tipDifficulty S.tipHash ∧
      InputsMature (reads S.store.utxos) block.header.height.toNat S.coinbaseMaturity block.inputs ∧
      Committed S.store store hash block.header.height.toNat block.header (.block block) := by
  have hcut : ∀ c ∈ (utxoDelta (.block block)).removed, c ∉ (utxoDelta (.block block)).addedKeys := by
    intro c hc
    rw [Delta.addedKeys, utxoDelta, Block.map_fst_utxoEntries]
    exact hshp.cut_through c hc
  have hcmt : S.store.commitBlock hash block.header.height.toNat block.header (.block block)
      block.utxoEntries block.inputs (block.extractKernelExcesses hash) = .ok store ↔
      Committed S.store store hash block.header.height.toNat block.header (.block block) := commitBlock_iff hcut
  simp only [directExtensionStore, validateDirectExtensionInputs, buildUtxoChangeset, inversion,
    forM_eq_ok, not_not, ne_eq, not_and, Bool.not_eq_true, Bool.not_eq_false]
  constructor
  · rintro ⟨hbet, hins, -, -, hstore⟩
    refine ⟨hbet, ?_, hcmt.mp hstore⟩
    intro c hc entry hentry hcb
    obtain ⟨entry', hentry', hmtr⟩ := hins c hc
    obtain rfl := Option.some.inj (hentry.symm.trans hentry')
    exact hmtr hcb
  · rintro ⟨hbet, hmtr, hC⟩
    refine ⟨hbet, ?_, ?_, ?_, hcmt.mpr hC⟩
    · intro c hc
      obtain ⟨entry, hentry⟩ := Option.ne_none_iff_exists'.mp (hC.utxoFits.removed_present c hc)
      exact ⟨entry, hentry, hmtr c hc entry hentry⟩
    · intro c hc
      refine hC.utxoFits.added_absent c ?_
      rwa [Delta.addedKeys, utxoDelta, Block.map_fst_utxoEntries]
    · intro excess hexc
      refine hC.kernelFits.added_absent excess ?_
      simpa [Delta.addedKeys, kernelDelta, Block.extractKernelExcesses] using hexc

end DomProtocol
