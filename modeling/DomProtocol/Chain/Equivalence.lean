import DomProtocol.Chain.Persistence

/-!
# `Chain.Equivalence` — promoting a branch against connecting it block by block

The same branch is connected twice: by a promotion, on overlays in front of the current tables, and block by block on
the canonical state of the fork point.  The two agree when no disconnected block created an older output again and no
output of the branch meets a current one with another proof or flag.
-/

namespace DomProtocol

open Lib Delta
open Good (ForkAt WithinPolicy Kept)

variable {X : Externals}
variable {S : ChainState} {chain : List (Hash256 × BlockHeader)}

/-! ## The canonical state at an ancestor -/

/-- The state the node was in when the canonical block `a` was its tip, without side blocks. -/
def ChainState.canonicalAt (S : ChainState) (a : Hash256 × BlockHeader) : ChainState :=
  let base := upTo S.canonicalChain a
  let bodies := bodiesOf S.store base
  { S with
    store :=
      { blocks := tableOf base
        blockBodies := tableOf bodies
        heightIndex := tableOf (base.map fun x => (x.2.height.toNat, x.1))
        chainTip := some a.1
        utxos := writeAll ∅ (utxoDeltas bodies)
        kernels := writeAll ∅ (kernelDeltas bodies)
        utxoSetDigest := none }
    tipHash := a.1
    tipHeight := a.2.height.toNat
    tipDifficulty := a.2.totalDifficulty }

namespace Good

theorem nodup_chain (hG : Good X S chain) : (chain.map Prod.fst).Nodup := by
  rw [List.nodup_iff_getElem?_ne_getElem?]
  intro i j hij hj heq
  rw [List.length_map] at hj
  rw [List.getElem?_map, List.getElem?_map, List.getElem?_eq_getElem hj,
    List.getElem?_eq_getElem (hij.trans hj), Option.map_some, Option.map_some, Option.some.injEq] at heq
  have hsame := hG.eq_of_hash_eq (List.getElem_mem _) (List.getElem_mem _) heq
  have hi := hG.height_getElem (List.getElem?_eq_getElem (hij.trans hj))
  have hj' := hG.height_getElem (List.getElem?_eq_getElem hj)
  rw [hsame, hj'] at hi
  omega

theorem mem_upTo (hG : Good X S chain) {a x : Hash256 × BlockHeader} :
    x ∈ upTo chain a ↔ x ∈ chain ∧ x.2.height.toNat ≤ a.2.height.toNat := by
  rw [upTo, List.mem_take_iff_getElem]
  constructor
  · rintro ⟨i, hi, rfl⟩
    have := hG.height_getElem (List.getElem?_eq_getElem (show i < chain.length by omega))
    exact ⟨List.getElem_mem _, by omega⟩
  · rintro ⟨hx, hle⟩
    obtain ⟨hlt, heq⟩ := List.getElem?_eq_some_iff.mp (hG.getElem_height hx)
    exact ⟨x.2.height.toNat, by omega, heq⟩

section CanonicalAt

variable {a : Hash256 × BlockHeader}

variable (hG : Good X S chain)
include hG

theorem nodup_upTo : ((upTo chain a).map Prod.fst).Nodup := by
  rw [upTo, List.map_take]
  exact hG.nodup_chain.sublist (List.take_sublist _ _)

theorem blocks_canonicalAt (h : Hash256) (header : BlockHeader) :
    (S.canonicalAt a).store.blocks[h]? = some header ↔ (h, header) ∈ upTo chain a := by
  simp only [ChainState.canonicalAt, hG.canonicalChain_eq]
  exact getElem?_tableOf hG.nodup_upTo h header

theorem bodies_canonicalAt (h : Hash256) (body : BlockBody) : (S.canonicalAt a).store.blockBodies[h]? = some body ↔
      h ∈ (upTo chain a).map Prod.fst ∧ S.store.blockBodies[h]? = some body := by
  have hall : ∀ x ∈ upTo chain a, ∃ body, S.store.blockBodies[x.1]? = some body := by
    intro x hx
    obtain ⟨body, hbody, -⟩ := hG.storeOk.body (hG.canonical.stored x (List.mem_of_mem_take hx))
    exact ⟨body, hbody⟩
  simp only [ChainState.canonicalAt, hG.canonicalChain_eq]
  rw [getElem?_tableOf (by rw [map_fst_bodiesOf hall]; exact hG.nodup_upTo), mem_bodiesOf]

theorem bodiesOf_canonicalAt : bodiesOf (S.canonicalAt a).store (upTo chain a) = bodiesOf S.store (upTo chain a) := by
  refine bodiesOf_congr fun x hx => ?_
  obtain ⟨body, hbody, -⟩ := hG.storeOk.body (hG.canonical.stored x (List.mem_of_mem_take hx))
  rw [hbody]
  exact (hG.bodies_canonicalAt x.1 body).mpr ⟨List.mem_map_of_mem hx, hbody⟩

variable {header : BlockHeader}

theorem of_canonicalAt {h : Hash256} (hread : (S.canonicalAt a).store.blocks[h]? = some header) :
    (h, header) ∈ chain ∧ header.height.toNat ≤ a.2.height.toNat ∧ S.store.blocks[h]? = some header := by
  obtain ⟨hmem, hle⟩ := hG.mem_upTo.mp ((hG.blocks_canonicalAt h header).mp hread)
  exact ⟨hmem, hle, hG.canonical.stored _ hmem⟩

theorem storeOk_canonicalAt :
    StoreOk X (S.canonicalAt a).networkMagic ((S.canonicalAt a).chainId X) (S.canonicalAt a).store := by
  refine ⟨?_, ?_, ?_, ?_, ?_, ?_⟩
  · -- a parent is canonical and lower
    intro h header p hread hp
    obtain ⟨hmem, hle, hsto⟩ := hG.of_canonicalAt hread
    obtain ⟨parent, hpar, hht⟩ := hG.storeOk.parent hsto hp
    obtain ⟨y, hy, rfl⟩ := List.mem_map.mp (hG.parent_mem hmem hp)
    obtain rfl := Option.some.inj ((hG.canonical.stored y hy).symm.trans hpar)
    exact ⟨y.2, (hG.blocks_canonicalAt _ _).mpr (hG.mem_upTo.mpr ⟨hy, by dsimp only; omega⟩), hht⟩
  · intro h p header parent hread hp hpar
    exact hG.storeOk.work (hG.of_canonicalAt hread).2.2 hp (hG.of_canonicalAt hpar).2.2
  · intro h header hread
    exact hG.storeOk.headerSyntax (hG.of_canonicalAt hread).2.2
  · intro h header hread
    exact hG.storeOk.ident (hG.of_canonicalAt hread).2.2
  · intro h header hread
    obtain ⟨body, hbody, hof⟩ := hG.storeOk.body (hG.of_canonicalAt hread).2.2
    have hmem := (hG.blocks_canonicalAt h header).mp hread
    exact ⟨body, (hG.bodies_canonicalAt h body).mpr ⟨List.mem_map_of_mem hmem, hbody⟩, hof⟩
  · intro h body hread
    obtain ⟨x, hx, rfl⟩ := List.mem_map.mp ((hG.bodies_canonicalAt h body).mp hread).1
    exact ⟨x.2, (hG.blocks_canonicalAt _ _).mpr hx⟩

theorem index_canonicalAt (k : Nat) : (S.canonicalAt a).store.heightIndex[k]? = (upTo chain a)[k]?.map Prod.fst := by
  have hhts : ∀ i x, (upTo chain a)[i]? = some x → x.2.height.toNat = 0 + i := by
    intro i x hx
    rw [upTo, List.getElem?_take] at hx
    rw [Nat.zero_add]
    split at hx
    · exact hG.height_getElem hx
    · cases hx
  have hnd : (((upTo chain a).map fun x => (x.2.height.toNat, x.1)).map Prod.fst).Nodup := by
    rw [List.map_map, List.nodup_iff_getElem?_ne_getElem?]
    intro i j hij hj heq
    rw [List.length_map] at hj
    have hi := List.getElem?_eq_getElem (hij.trans hj)
    have hj' := List.getElem?_eq_getElem hj
    rw [List.getElem?_map, List.getElem?_map, hi, hj'] at heq
    have h₁ := hhts i _ hi
    have h₂ := hhts j _ hj'
    simp only [Option.map_some, Function.comp_apply, Option.some.injEq] at heq
    omega
  simp only [ChainState.canonicalAt, hG.canonicalChain_eq]
  rw [tableOf, getElem?_foldl_insert hnd, lookup_heights hhts]
  simp

/-- **The state at a canonical block is a sound state with its ledger.** -/
theorem canonicalAt (hL : Ledger S chain) (ha : a ∈ chain) :
    Good X (S.canonicalAt a) (upTo chain a) ∧ Ledger (S.canonicalAt a) (upTo chain a) := by
  have hbods := hG.bodiesOf_canonicalAt (a := a)
  have hspl : bodiesOf S.store chain = bodiesOf S.store (upTo chain a) ++ bodiesOf S.store (above chain a) := by
    rw [← bodiesOf_append, upTo_append_above]
  have hkers := hG.kernelsOk.replayable
  rw [hspl, kernelDeltas, List.map_append, replayable_append] at hkers
  have hutx := hL.replayable
  rw [hspl, utxoDeltas, List.map_append, replayable_append] at hutx
  refine ⟨⟨hG.storeOk_canonicalAt, ⟨hG.index_canonicalAt, ?_, ?_, ?_, ?_, rfl, ?_⟩, ⟨?_, ?_⟩⟩, ⟨?_, ?_⟩⟩
  · intro x hx
    exact (hG.blocks_canonicalAt x.1 x.2).mpr hx
  · exact List.IsChain.take hG.canonical.ascending _
  · intro x hx
    rw [upTo, List.head?_take] at hx
    exact hG.canonical.genesis x (by simpa using hx)
  · exact ⟨a, hG.getLast_upTo ha, rfl, rfl, rfl⟩
  · intro h header hread hzero
    rw [upTo, List.head?_take]
    simpa using hG.canonical.root (hG.of_canonicalAt hread).2.2 hzero
  · rw [hbods]
    exact hkers.1
  · intro excess
    rw [hbods]
    simp only [ChainState.canonicalAt, hG.canonicalChain_eq]
    exact congrFun (reads_writeAll hkers.1.added_nodup ∅) excess
  · rw [hbods]
    exact hutx.1
  · intro c
    rw [hbods]
    simp only [ChainState.canonicalAt, hG.canonicalChain_eq]
    exact congrFun (reads_writeAll hutx.1.added_nodup ∅) c

omit hG

end CanonicalAt

end Good

/-! ## Connecting block by block -/

/-- Connect blocks by the direct-extension path, one after the other. -/
def ChainState.extendAll (S : ChainState) : List (Hash256 × Block) → Except DomError ChainState
  | [] => .ok S
  | hb :: blocks =>
    match S.connectDirect hb.2 hb.1 with
    | (.error e, _) => .error e
    | (.ok _, S') => S'.extendAll blocks

/-- Blocks on top of a block, each on the one before. -/
def Stacked (X : Externals) (networkMagic : UInt32) (chainId : Hash256) :
    Hash256 × BlockHeader → List (Hash256 × Block) → Prop
  | _, [] => True
  | x, hb :: blocks =>
    parentOf hb.2.header = some x.1 ∧ hb.2.header.height.toNat = x.2.height.toNat + 1 ∧
      x.2.totalDifficulty < hb.2.header.totalDifficulty ∧ validateHeaderSyntax hb.2.header networkMagic = .ok () ∧
      computeBlockIdentifier X networkMagic hb.2.header = .ok hb.1 ∧
      BodyOf X networkMagic chainId hb.2.header (.block hb.2) ∧
      Stacked X networkMagic chainId (hb.1, hb.2.header) blocks

variable {hash : Hash256}

variable {header : BlockHeader}

theorem exists_committed {s : DomStore} {height : Nat} {body : BlockBody} (hunk : s.blocks[hash]? = none)
    (hbody : s.blockBodies[hash]? = none) (hutxo : (utxoDelta body).Applicable (reads s.utxos))
    (hker : (kernelDelta hash body).Applicable (reads s.kernels)) :
    ∃ s', Committed s s' hash height header body := by
  refine ⟨{ s.withBlock hash header body with
    heightIndex := s.heightIndex.insert height hash
    chainTip := some hash
    utxos := write s.utxos (utxoDelta body)
    kernels := write s.kernels (kernelDelta hash body)
    utxoSetDigest := none }, ?_⟩
  exact ⟨hunk, hbody, rfl, rfl, rfl, rfl, rfl, hutxo, congrFun (reads_write hutxo.added_nodup _), hker,
    congrFun (reads_write hker.added_nodup _)⟩

variable {S' : ChainState}

namespace Good

variable {hb : Hash256 × Block}

theorem connectDirect_ok (hG : Good X S chain) (hshp : BlockShape hb.2)
    (hF : Fits X S.networkMagic (S.chainId X) S.store hb.1 hb.2.header (.block hb.2))
    (hpar : parentOf hb.2.header = some S.tipHash) (hwork : S.tipDifficulty < hb.2.header.totalDifficulty)
    (hconn : Connectable S.coinbaseMaturity (reads S.store.utxos) (reads S.store.kernels) hb) :
    ∃ store S', Committed S.store store hb.1 hb.2.header.height.toNat hb.2.header (.block hb.2) ∧
      S.connectDirect hb.2 hb.1 = (.ok .BestChain, S') ∧
      PrunedFrom X (S.tipMoved store hb.1 hb.2.header) (chain ++ [(hb.1, hb.2.header)]) S' := by
  obtain ⟨store, hcmt⟩ : ∃ store, Committed S.store store hb.1 hb.2.header.height.toNat hb.2.header (.block hb.2) :=
    exists_committed hF.unknown (hG.storeOk.bodies_unknown hF.unknown) hconn.utxoFits hconn.kernelFits
  have hstore : S.directExtensionStore hb.2 hb.1 = .ok store :=
    (directExtensionStore_iff hshp).mpr ⟨.inl hwork, hconn.mature, hcmt⟩
  obtain ⟨S', hprun, hS'⟩ := (hG.commit hcmt hF hpar).pruned_eq ConnectResult.BestChain
  refine ⟨store, S', hcmt, ?_, hS'⟩
  simp only [ChainState.connectDirect, hstore]
  exact hprun

theorem connectable_of_connectDirect (hshp : BlockShape hb.2) {r : ConnectResult}
    (h : S.connectDirect hb.2 hb.1 = (.ok r, S')) :
    Connectable S.coinbaseMaturity (reads S.store.utxos) (reads S.store.kernels) hb := by
  cases hstore : S.directExtensionStore hb.2 hb.1 with
  | error e =>
    simp only [ChainState.connectDirect, hstore, Prod.mk.injEq] at h
    cases h.1
  | ok store =>
    obtain ⟨-, hmtr, hcmt⟩ := (directExtensionStore_iff hshp).mp hstore
    exact ⟨hcmt.utxoFits, hcmt.kernelFits, hmtr⟩

end Good

/-- New blocks that can be stacked on the tip, up to what they spend and create. -/
structure OnTip (X : Externals) (S : ChainState) (blocks : List (Hash256 × Block)) : Prop where
  stacked : ∃ tip, S.store.blocks[S.tipHash]? = some tip ∧
    Stacked X S.networkMagic (S.chainId X) (S.tipHash, tip) blocks
  unknown : ∀ hb ∈ blocks, S.store.blocks[hb.1]? = none
  nodup : (blocks.map Prod.fst).Nodup

variable {blocks : List (Hash256 × Block)}

/-- **One connectable block is connected**, and the others are on the new tip. -/
theorem OnTip.step {hb : Hash256 × Block} (h : OnTip X S (hb :: blocks)) (hG : Good X S chain)
    (hconn : Connectable S.coinbaseMaturity (reads S.store.utxos) (reads S.store.kernels) hb) :
    ∃ S', S.connectDirect hb.2 hb.1 = (.ok .BestChain, S') ∧ Good X S' (chain ++ [(hb.1, hb.2.header)]) ∧
      OnTip X S' blocks ∧ S'.coinbaseMaturity = S.coinbaseMaturity ∧
      reads S'.store.utxos = (utxoDelta (asBody hb).2).apply (reads S.store.utxos) ∧
      reads S'.store.kernels = (kernelDelta hb.1 (asBody hb).2).apply (reads S.store.kernels) := by
  obtain ⟨tip, hsto, hpar, hht, hwork, hwf, hid, hbody, hrest⟩ := h.stacked
  have hF : Fits X S.networkMagic (S.chainId X) S.store hb.1 hb.2.header (.block hb.2) := by
    refine ⟨h.unknown hb List.mem_cons_self, hwf, hid, hbody, fun p hp => ?_⟩
    obtain rfl := Option.some.inj (hpar.symm.trans hp)
    exact ⟨tip, hsto, hht, hwork⟩
  have htipWork : S.tipDifficulty < hb.2.header.totalDifficulty := by
    obtain ⟨tip', -, htip, htd⟩ := hG.getElem_tip
    rw [htip, Option.some.injEq] at hsto
    rwa [← htd, hsto]
  obtain ⟨store, S', hcmt, hconnect, hprun⟩ := hG.connectDirect_ok hbody.2.1 hF hpar htipWork hconn
  have hmag : S'.networkMagic = S.networkMagic := by rw [hprun.memory]; rfl
  have hchainId : S'.chainId X = S.chainId X := by rw [hprun.memory]; rfl
  have htip : S'.tipHash = hb.1 := by rw [hprun.memory]; rfl
  obtain ⟨tips, hT⟩ := hprun.trimmed
  have hnd := h.nodup
  rw [List.map_cons, List.nodup_cons] at hnd
  refine ⟨S', hconnect, hprun.good, ⟨?_, ?_, hnd.2⟩, by rw [hprun.memory]; rfl, ?_, ?_⟩
  · rw [htip, hmag, hchainId]
    exact ⟨hb.2.header, hprun.good.canonical.stored (hb.1, hb.2.header) (by simp), hrest⟩
  · intro hb' hmem
    have hne : hb.1 ≠ hb'.1 := fun heq => hnd.1 (heq ▸ List.mem_map_of_mem hmem)
    by_contra hsome
    obtain ⟨header, hhr⟩ := Option.ne_none_iff_exists'.mp hsome
    have hread := ((hT.blocks _ _).mp hhr).1
    simp only [ChainState.tipMoved, hcmt.stored, blocks_withBlock, if_neg hne,
      h.unknown hb' (List.mem_cons_of_mem _ hmem)] at hread
    cases hread
  · rw [hprun.frame]
    exact funext hcmt.utxos
  · rw [hprun.frame]
    exact funext hcmt.kernels

/-- **Connectable blocks are connected one after the other**, and replayed. -/
theorem OnTip.extendAll_ok (h : OnTip X S blocks) (hG : Good X S chain)
    (hall : AllConnectable S.coinbaseMaturity (reads S.store.utxos) (reads S.store.kernels) blocks) :
    ∃ S', S.extendAll blocks = .ok S' ∧ reads S'.store.utxos = replay (reads S.store.utxos) (utxoChanges blocks) ∧
      reads S'.store.kernels = replay (reads S.store.kernels) (kernelChanges blocks) ∧
      ∀ k : Nat, S'.store.heightIndex[k]? =
        (chain ++ blocks.map fun hb => (hb.1, hb.2.header))[k]?.map Prod.fst := by
  induction blocks generalizing S chain with
  | nil =>
    refine ⟨S, rfl, rfl, rfl, fun k => ?_⟩
    rw [List.map_nil, List.append_nil]
    exact hG.canonical.index k
  | cons hb blocks ih =>
    obtain ⟨S₁, hconn, hG₁, hnext, hmat, hutx, hkers⟩ := h.step hG hall.1
    have hall₁ := hall.2
    rw [← hutx, ← hkers, ← hmat] at hall₁
    obtain ⟨S', hext, hutx', hkers', hidx⟩ := ih hnext hG₁ hall₁
    refine ⟨S', ?_, ?_, ?_, fun k => ?_⟩
    · rw [ChainState.extendAll, hconn]
      exact hext
    · rw [hutx', hutx]
      rfl
    · rw [hkers', hkers]
      rfl
    · rw [hidx, List.append_assoc, List.map_cons]
      rfl

theorem OnTip.connectable_of_extendAll (h : OnTip X S blocks) (hG : Good X S chain) (hext : S.extendAll blocks = .ok S') :
    AllConnectable S.coinbaseMaturity (reads S.store.utxos) (reads S.store.kernels) blocks := by
  induction blocks generalizing S chain with
  | nil => trivial
  | cons hb blocks ih =>
    rw [ChainState.extendAll] at hext
    obtain ⟨_, -, -, -, -, -, -, hbody, -⟩ := h.stacked
    cases hdir : S.connectDirect hb.2 hb.1 with
    | mk r S₂ =>
      cases r with
      | error e =>
        rw [hdir] at hext
        cases hext
      | ok r =>
        have hconn := Good.connectable_of_connectDirect hbody.2.1 hdir
        obtain ⟨S₁, hconnect, hG₁, hnext, hmat, hutx, hkers⟩ := h.step hG hconn
        rw [hconnect] at hext
        have hrest := ih hnext hG₁ hext
        rw [hutx, hkers, hmat] at hrest
        exact ⟨hconn, hrest⟩

/-! ## The two paths -/

/-- A stored side branch that outranks the tip: its blocks from the fork point up, within the finality and depth
    limits, all of which pass the checks that need no other state. -/
structure SideBranch (X : Externals) (S : ChainState) (t : Hash256) (now : UInt64) (a : Hash256 × BlockHeader)
    (l : List (Hash256 × BlockHeader)) (blocks : List (Hash256 × Block)) : Prop where
  heavier : ∃ header, S.store.blocks[t]? = some header ∧
    isBetterForkChoiceTip header.totalDifficulty t S.tipDifficulty S.tipHash
  fork : ForkAt S S.canonicalChain t a l
  policy : WithinPolicy S a l
  finality : ¬ (S.tipHeight ≥ maxReorgDepth ∧ S.tipHeight - a.2.height.toNat ≥ maxReorgDepth)
  bodies : BlocksOf X S l.reverse blocks
  candidates : ∀ hb ∈ blocks, S.validateReorgCandidate X now hb = .ok ()

/-- Nothing has the zero hash, which the ancestor walks take for the end of a chain. -/
def NonzeroHashes (X : Externals) : Prop := ∀ bytes, X.blake2b256 bytes ≠ Hash256.zero

theorem NonzeroHashes.identifier (hX : NonzeroHashes X) {networkMagic : UInt32}
    (h : computeBlockIdentifier X networkMagic header = .ok hash) : hash ≠ Hash256.zero := by
  unfold computeBlockIdentifier headerIdentifier at h
  split at h
  · simp only [inversion] at h
    rw [← h.2]
    exact hX _
  · split at h
    · cases h
      exact hX _
    · cases h

/-- An output that ends up unspent on the branch and is unspent now has the same proof and flag on both sides. -/
def OutputsAgree (S : ChainState) (blocks : List (Hash256 × Block)) : Prop :=
  ∀ p ∈ (writeAll ∅ (utxoChanges blocks)).toList, ∀ current ∈ S.store.utxos[p.1]?,
    current.proof = p.2.proof ∧ current.isCoinbase = p.2.isCoinbase

instance (S : ChainState) (blocks : List (Hash256 × Block)) : Decidable (OutputsAgree S blocks) :=
  List.decidableBAll _ _

variable {c : Commitment}

section Paths

variable {t : Hash256} {now : UInt64} {a : Hash256 × BlockHeader} {l : List (Hash256 × BlockHeader)}
variable {blocks : List (Hash256 × Block)}

theorem SideBranch.planned (h : SideBranch X S t now a l blocks) (hG : Good X S chain) (hX : NonzeroHashes X) :
    ∃ header disc, Planned X S chain t now header a l disc blocks := by
  obtain ⟨header, hsto, hbet⟩ := h.heavier
  have hnz : ∀ {hash : Hash256} {header : BlockHeader}, S.store.blocks[hash]? = some header →
      hash ≠ Hash256.zero := by
    intro hash header hread
    exact hX.identifier (hG.storeOk.ident hread)
  obtain ⟨tip, -, htip, -⟩ := hG.getElem_tip
  have hfork := h.fork
  rw [hG.canonicalChain_eq] at hfork
  obtain ⟨disc, hdisc⟩ := hG.exists_blocksOf_above hfork.mem
  exact ⟨header, disc, hnz htip, hnz hsto, hsto, hfork, h.policy, hbet, h.finality, hdisc,
    h.bodies, h.candidates⟩

theorem Reachable.sideBranch_of_plan (hrch : Reachable X S) {plan : ChainState.ReorgPlan}
    (h : S.planReorg X t now = .ok plan) :
    ∃ a l, SideBranch X S t now a l plan.connectBlocks ∧ S.canonicalChain[plan.ancestorHeight]? = some a ∧
      plan.ancestorHeight = a.2.height.toNat := by
  rcases hrch.sound with hB | ⟨chain, hG, -⟩
  · have hmis : S.store.blocks[t]? = none := by simp [hB.store, DomStore.empty]
    simp [ChainState.planReorg, hmis, okOr] at h
  · obtain ⟨header, a, l, disc, conn, hP, rfl⟩ := hG.planReorg_iff.mp h
    have hfork := hP.fork
    rw [← hG.canonicalChain_eq] at hfork
    refine ⟨a, l, ⟨⟨header, hP.stored, hP.better⟩, hfork, hP.policy, hP.finality, hP.connect, hP.candidates⟩, ?_,
      rfl⟩
    rw [hG.canonicalChain_eq]
    exact hG.getElem_height hP.fork.mem

theorem Good.stacked (hG : Good X S chain) {x : Hash256 × BlockHeader} (hch : Ascending parentOf (x :: l))
    (hsto : ∀ y ∈ x :: l, S.store.blocks[y.1]? = some y.2) (hblks : BlocksOf X S l blocks) :
    Stacked X S.networkMagic (S.chainId X) x blocks := by
  induction hblks generalizing x with
  | nil => trivial
  | @cons y hb l blocks hy _ ih =>
    obtain ⟨hlink, hrest⟩ := List.isChain_cons_cons.mp hch
    have hy' := hsto y (by simp)
    have hx' := hsto x (by simp)
    obtain ⟨parent, hpar, hht⟩ := hG.storeOk.parent hy' hlink
    obtain rfl := Option.some.inj (hx'.symm.trans hpar)
    have hbody : BodyOf X S.networkMagic (S.chainId X) y.2 (.block hb.2) := ⟨hy.header, hy.shape, fun _ => hy.valid⟩
    have hnext := ih hrest fun z hz => hsto z (List.mem_cons_of_mem _ hz)
    have heq : (hb.1, hb.2.header) = y := by rw [hy.header, hy.hash]
    rw [Stacked, heq, hy.header, hy.hash]
    exact ⟨hlink, hht, hG.storeOk.work hy' hlink hx', hG.storeOk.headerSyntax hy', hG.storeOk.ident hy', hbody,
      hnext⟩

theorem Good.onTip_canonicalAt (hG : Good X S chain) (hf : ForkAt S chain t a l)
    (hblks : BlocksOf X S l.reverse blocks) : OnTip X (S.canonicalAt a) blocks := by
  obtain ⟨hch, -⟩ := hf.down.ascending a.2
  have hmap := hblks.map_headers
  have hfst : blocks.map Prod.fst = l.reverse.map Prod.fst := by
    rw [← hmap, List.map_map]
    rfl
  refine ⟨⟨a.2, ?_, ?_⟩, ?_, ?_⟩
  · exact (hG.blocks_canonicalAt a.1 a.2).mpr (hG.mem_upTo.mpr ⟨hf.mem, le_rfl⟩)
  · refine hG.stacked hch ?_ hblks
    intro y hy
    rcases List.mem_cons.mp hy with rfl | hy
    · exact hG.canonical.stored _ hf.mem
    · exact hf.down.lookup_of_mem (List.mem_reverse.mp hy)
  · intro hb hmem
    by_contra hsome
    obtain ⟨header, hhr⟩ := Option.ne_none_iff_exists'.mp hsome
    have hcanon := (hG.of_canonicalAt hhr).1
    have hside : hb.1 ∈ l.reverse.map Prod.fst := hfst ▸ List.mem_map_of_mem hmem
    obtain ⟨x, hx, heq⟩ := List.mem_map.mp hside
    exact hf.side x (List.mem_reverse.mp hx) (heq ▸ List.mem_map_of_mem hcanon)
  · rw [hfst, List.map_reverse, List.nodup_reverse]
    exact hf.down.nodup hG.storeOk.ranked

variable {header : BlockHeader} {disc : List (Hash256 × Block)}

variable (hL : Ledger S chain) (hP : Planned X S chain t now header a l disc blocks)

include hL hP in
theorem Good.restored_ne_none {hb : Hash256 × Block} (hmem : hb ∈ disc) (hc : c ∈ hb.2.inputs) :
    restored S (upTo chain a) disc c ≠ none := by
  have hrepl := hL.replayable
  rw [hP.bodiesOf_chain, utxoDeltas, List.map_append, replayable_append] at hrepl
  have hdelta : utxoDelta (.block hb.2) ∈ utxoChanges disc :=
    List.mem_map.mpr ⟨asBody hb, List.mem_map_of_mem hmem, rfl⟩
  rw [restored]
  rcases removed_origin hrepl.2 hdelta hc with hpres | hadd
  · obtain ⟨entry, hentry⟩ := Option.ne_none_iff_exists'.mp hpres
    have hlast : lastAdded c (utxoDeltas (bodiesOf S.store (upTo chain a))) = some entry :=
      lastAdded_of_replay hentry
    simp [hlast]
  · obtain ⟨entry, hentry⟩ := Option.ne_none_iff_exists'.mp hadd
    have hfst : firstAdded c (utxoChanges disc) = some entry := hentry
    simp [hfst]

include hL hP in
theorem Good.pending_agrees (hcln : ∀ c, ¬ Delta.Shadowed c (utxoChanges disc)) (hagr : OutputsAgree S blocks)
    {current desired : UtxoEntry} (hcur : S.store.utxos[c]? = some current)
    (hdes : replay (undoneUtxos S (upTo chain a) disc) (utxoChanges blocks) c = some desired) :
    current.proof = desired.proof ∧ current.isCoinbase = desired.isCoinbase := by
  rcases replay_key_cases c (utxoChanges blocks) with hkeep | ⟨o, hfix⟩
  · -- the branch leaves the commitment alone: it was unspent at the fork point and is so now
    have hrepl := hL.replayable
    rw [hP.bodiesOf_chain, utxoDeltas, List.map_append, replayable_append] at hrepl
    rw [hL.utxos, hP.bodiesOf_chain, utxoDeltas, List.map_append, replay_append] at hcur
    rw [hkeep, Good.undoneUtxos_eq hL hP hcln] at hdes
    obtain rfl := replay_of_not_shadowed hrepl.2 hdes hcur (hcln c)
    exact ⟨rfl, rfl⟩
  · have hnd : ∀ d ∈ utxoChanges blocks, d.addedKeys.Nodup := by
      intro d hd
      obtain ⟨body, hbody, rfl⟩ := List.mem_map.mp hd
      obtain ⟨hb, hmem, rfl⟩ := List.mem_map.mp hbody
      rw [asBody, addedKeys_utxoDelta]
      exact (hP.connect.shape hb hmem).outputs_nodup
    have htab : (writeAll ∅ (utxoChanges blocks))[c]? = some desired := by
      refine (congrFun (reads_writeAll hnd ∅) c).trans ?_
      rw [hfix, ← hfix, hdes]
    exact hagr (c, desired) (Std.ExtTreeMap.mem_toList_iff_getElem?_eq_some.mpr htab) current hcur

variable (hG : Good X S chain)

include hG hL hP in
/-- **A branch that connects at the fork point is written.** -/
theorem Good.reorgStore_ok (hcln : ∀ c, ¬ Delta.Shadowed c (utxoChanges disc)) (hagr : OutputsAgree S blocks)
    (hall : AllConnectable S.coinbaseMaturity (undoneUtxos S (upTo chain a) disc) (kernelsOf S (upTo chain a)) blocks) :
    ∃ store, S.reorgStore t ⟨header, a.2.height.toNat, disc.reverse, blocks⟩ = .ok store := by
  have hsou : ∀ hb ∈ disc.reverse, ∀ c ∈ hb.2.inputs, restored S (upTo chain a) disc c ≠ none :=
    fun hb hmem c hc => Good.restored_ne_none hL hP (List.mem_reverse.mp hmem) hc
  obtain ⟨o₁, hdisc⟩ := hG.foldlM_applyDisconnect_ok hP.fork.mem hP.disconnect.shape hsou ⟨∅, ∅⟩
  obtain ⟨hutxo, hker⟩ := hG.disconnected_views hP hdisc
  rw [← hutxo, ← hker] at hall
  obtain ⟨o, hconn⟩ := foldlM_applyConnect_ok hP.connect.shape hall
  have hoverlays : S.reorgOverlays ⟨header, a.2.height.toNat, disc.reverse, blocks⟩ = .ok o := by
    simp only [ChainState.reorgOverlays, hdisc, ok_bind, hconn]
  obtain ⟨-, hview, -⟩ := hG.reorgOverlays_spec hP hoverlays
  have hups : ∃ updates, buildUtxoUpdates S.store o.utxo = .ok updates := by
    refine buildUtxoUpdates_ok_iff.mpr fun c current desired hcur hpend => ?_
    refine Good.pending_agrees hL hP hcln hagr hcur ?_
    rw [← hview, Overlays.utxoView, view, hpend]
  obtain ⟨updates, hups⟩ := hups
  exact ⟨_, by simp only [ChainState.reorgStore, hoverlays, hups, ok_bind]; rfl⟩

end Paths

namespace Miniature

/-- A branch that creates the commitment of the coinbase of the rival block `best` as an ordinary output.  Its
    promotion fails. -/
def rivals : ChainState :=
  let best := mine 100 genesis 11 (genesisTimestampRegtest + 1) 8 []
  let side := mine 100 genesis 21 (genesisTimestampRegtest + 1) 18 [transfer [(3300000000, 7)] [(3300000000, 8)]]
  opened.connectAll libraries now [genesis, best, side, mine 100 side 2 (genesisTimestampRegtest + 2) 19 []]

/-- The same, after the canonical chain has spent the output in question. -/
def reconciled : ChainState :=
  let best := mine 100 genesis 11 (genesisTimestampRegtest + 1) 8 []
  rivals.connectAll libraries now
    [mine 100 best 12 (genesisTimestampRegtest + 2) 9 [transfer [(3300000000, 8)] [(3300000000, 500)]]]

/-- A canonical chain that creates an older output again, under a branch that waits for its rival output to go. -/
def shadowed : ChainState :=
  let best := mine 100 genesis 11 (genesisTimestampRegtest + 1) 8 [transfer [(3300000000, 7)] [(3300000000, 1000)]]
  let best₂ := mine 100 best 12 (genesisTimestampRegtest + 2) 9 [transfer [(3300000000, 1000)] [(3300000000, 7)]]
  let best₃ := mine 100 best₂ 13 (genesisTimestampRegtest + 3) 10 [transfer [(3300000000, 8)] [(3300000000, 500)]]
  let side := mine 100 genesis 21 (genesisTimestampRegtest + 1) 18 []
  let side₂ := mine 100 side 3 (genesisTimestampRegtest + 2) 19 [transfer [(3300000000, 18)] [(3300000000, 8)]]
  let side₃ := mine 100 side₂ 2 (genesisTimestampRegtest + 3) 20 []
  opened.connectAll libraries now [genesis, best, best₂, side, side₂, side₃, best₃]

end Miniature

open Miniature

end DomProtocol
