import DomProtocol.Chain.Step
import DomProtocol.Lib.Reach

/-!
# `Chain.Run` — fresh chains, runs and their invariant

A run starts from a freshly created chain and makes calls of `connect_block` and `promote_heavier_known_tip`, failed
ones included.  `Sound` holds of every state on every run.
-/

namespace DomProtocol

open Lib

variable {X : Externals}
variable {S S' : ChainState}

/-! ## Fresh chains -/

theorem pruneRetainedSideChains_empty :
    pruneRetainedSideChains DomStore.empty 0 Hash256.zero = .ok DomStore.empty := rfl

theorem blank_of_openStore {genesisHash : Hash256} {networkMagic : UInt32}
    (h : ChainState.openStore X DomStore.empty genesisHash networkMagic = .ok S) :
    Blank S ∧ S.networkMagic = networkMagic := by
  have htip : DomStore.empty.chainTip = none := rfl
  simp only [ChainState.openStore, ChainState.openInner, htip, pruneRetainedSideChains_empty, ok_bind, inversion] at h
  obtain ⟨anchor, -, _, rfl, -, rfl⟩ := h
  exact ⟨⟨rfl, rfl, rfl, rfl⟩, rfl⟩

theorem requiredBlockVersion_genesis (networkMagic : UInt32) :
    requiredBlockVersionForNetwork networkMagic 0 = blockVersionLegacy := by
  unfold requiredBlockVersionForNetwork
  by_cases htest : networkMagic = networkMagicTestnet
  · rw [if_pos htest]
    rfl
  · by_cases hreg : networkMagic = networkMagicRegtest
    · rw [if_neg htest, if_pos hreg]
      rfl
    · rw [if_neg htest, if_neg hreg]
      rfl

theorem headerSyntax_canonicalHeader (networkMagic : UInt32) (anchor : AsertAnchor)
    (outputRoot kernelRoot rangeproofRoot : Hash256) :
    validateHeaderSyntax (canonicalHeader networkMagic anchor outputRoot kernelRoot rangeproofRoot)
      networkMagic = .ok () := by
  have hver := requiredBlockVersion_genesis networkMagic
  simp [validateHeaderSyntax, validateKernelOffsetCanonical, canonicalHeader, rejectIf, hver, secp256k1N]

theorem buildCanonicalGenesis_fits {networkMagic : UInt32} {signingChain : Hash256} (chainId : Hash256)
    {genesis : CanonicalGenesis} (h : buildCanonicalGenesis X networkMagic signingChain = .ok genesis) :
    Fits X networkMagic chainId DomStore.empty genesis.hash genesis.header genesis.body ∧
      genesis.header.height.toNat = 0 := by
  -- at height zero there is neither a parent nor a validated body
  have hfits : ∀ {hash : Hash256} {header : BlockHeader} {body : BlockBody}, header.height.toNat = 0 →
      validateHeaderSyntax header networkMagic = .ok () →
      computeBlockIdentifier X networkMagic header = .ok hash →
      BodyOf X networkMagic chainId header body →
      Fits X networkMagic chainId DomStore.empty hash header body := by
    intro hash header body hht hwf hid hbody
    refine ⟨by simp [DomStore.empty], hwf, hid, hbody, fun p hp => ?_⟩
    exact absurd hht (parentOf_eq_some.mp hp).1
  unfold buildCanonicalGenesis at h
  by_cases hmain : networkMagic = networkMagicMainnet
  · subst hmain
    rw [if_pos rfl] at h
    simp only [constructMainnetIdentity, inversion] at h
    obtain ⟨anchor, -, hash, hid, rfl⟩ := h
    exact ⟨hfits rfl (headerSyntax_canonicalHeader _ _ _ _ _) hid ⟨rfl, rfl⟩, rfl⟩
  · rw [if_neg hmain] at h
    by_cases hkn : networkMagic = networkMagicTestnet ∨ networkMagic = networkMagicRegtest
    · rw [if_pos hkn] at h
      simp only [buildLegacyCanonicalGenesis, inversion] at h
      obtain ⟨anchor, -, coinbase, -, ⟨outputRoot, kernelRoot, rangeproofRoot⟩, -, rfl⟩ := h
      refine ⟨hfits rfl (headerSyntax_canonicalHeader _ _ _ _ _) ?_ ⟨rfl, ?_, fun hne => absurd rfl hne⟩, rfl⟩
      · unfold computeBlockIdentifier headerIdentifier
        rw [if_neg (fun hc => hmain hc.1), if_pos (.inr hkn)]
        rfl
      · exact ⟨by simp [Block.inputs], by simp [Block.outputCommitments, Block.outputs], by simp [Block.inputs]⟩
    · rw [if_neg hkn] at h
      cases h

theorem genesisCanonicalChangeset_eq (body : BlockBody) (hash : Hash256) :
    ChainState.genesisCanonicalChangeset body hash =
      ((utxoDelta body).added, (utxoDelta body).removed, (kernelDelta hash body).added) := by
  cases body <;> rfl

theorem Blank.createGenesisBlock (hB : Blank S) (h : S.createGenesisBlock X = .ok S') :
    ∃ x, Good X S' [x] ∧ Retained S' [x] ∧ Ledger S' [x] := by
  simp only [ChainState.createGenesisBlock, genesisCanonicalChangeset_eq, inversion] at h
  obtain ⟨configured, -, genesis, hgen, -, store, hstore, rfl⟩ := h
  obtain ⟨hF, hht⟩ := buildCanonicalGenesis_fits (S.chainId X) hgen
  rw [← hB.store] at hF
  have hcut : ∀ c ∈ (utxoDelta genesis.body).removed, c ∉ (utxoDelta genesis.body).addedKeys := by
    have hbody := hF.body
    cases hb : genesis.body with
    | identityEnvelope => simp [utxoDelta]
    | block b =>
      rw [hb] at hbody
      intro c hc
      rw [addedKeys_utxoDelta]
      exact hbody.2.1.cut_through c hc
  have hfst := hB.commit ((commitBlock_iff hcut).mp hstore) hF hht
  have hsame : S.tipMoved store genesis.hash genesis.header = { S with
      store := store
      tipHash := genesis.hash
      tipHeight := 0
      tipDifficulty := genesis.header.totalDifficulty } := by
    rw [ChainState.tipMoved, hht]
  exact ⟨_, hsame ▸ hfst⟩

theorem Blank.connectBlock (hB : Blank S) (block : Block) (now : UInt64) :
    (∃ e, S.connectBlock X block now = (.error e, S)) ∨ ∃ x S', S.connectBlock X block now = (.ok .BestChain, S') ∧
        Good X S' [x] ∧ Retained S' [x] ∧ Ledger S' [x] := by
  unfold ChainState.connectBlock
  cases hid : computeBlockIdentifier X S.networkMagic block.header with
  | error e => exact .inl ⟨e, rfl⟩
  | ok hash =>
    have hunk : S.store.blocks[hash]? = none := by simp [hB.store, DomStore.empty]
    simp only [hunk, Option.isSome_none, Bool.false_eq_true, if_false]
    cases hchkd : S.validateIncomingBlock X block hash now with
    | error e => exact .inl ⟨e, rfl⟩
    | ok u =>
      have hI : Incoming X S block hash now := ⟨hid, hunk, hchkd⟩
      have hht : block.header.height.toNat = 0 := by
        by_contra hne
        obtain ⟨parent, hpar, -⟩ := hI.parent hne
        simp [hB.store, DomStore.empty] at hpar
      simp only [if_pos (Or.inl hht : _ ∨ block.header.prevHash = S.tipHash)]
      cases hstore : S.directExtensionStore block hash with
      | error e => exact .inl ⟨e, by simp only [ChainState.connectDirect, hstore]⟩
      | ok store =>
        have hcom := hI.committed hstore
        rw [hht] at hcom
        obtain ⟨hgood, -, hled⟩ := hB.commit hcom hI.fits hht
        obtain ⟨S', hprun, hS'⟩ := hgood.pruned_eq ConnectResult.BestChain
        refine .inr ⟨(hash, block.header), S', ?_, hS'.good, hS'.retained, hS'.ledger hgood hled⟩
        simp only [ChainState.connectDirect, hstore]
        exact hprun

theorem Blank.promote (hB : Blank S) (t : Hash256) (now : UInt64) :
    ∃ e, S.promoteHeavierKnownTip X t now = (.error e, S) := by
  have hmis : S.store.blocks[t]? = none := by simp [hB.store, DomStore.empty]
  simp only [ChainState.promoteHeavierKnownTip, ChainState.planReorg, hmis, okOr, error_bind]
  exact ⟨_, rfl⟩

/-! ## Runs -/

inductive Call where
  | connect (block : Block) (now : UInt64)
  | promote (newTipHash : Hash256) (now : UInt64)

/-- The state a call leaves behind, whether it succeeds or not. -/
def Call.next (X : Externals) (S : ChainState) : Call → ChainState
  | .connect block now => (S.connectBlock X block now).2
  | .promote newTipHash now => (S.promoteHeavierKnownTip X newTipHash now).2

def Call.Succeeds (X : Externals) (S : ChainState) : Call → Prop
  | .connect block now => (S.connectBlock X block now).1.isOk
  | .promote newTipHash now => (S.promoteHeavierKnownTip X newTipHash now).1.isOk

instance (S : ChainState) : (c : Call) → Decidable (c.Succeeds X S)
  | .connect block now => inferInstanceAs (Decidable ((S.connectBlock X block now).1.isOk = true))
  | .promote newTipHash now => inferInstanceAs (Decidable ((S.promoteHeavierKnownTip X newTipHash now).1.isOk = true))

theorem Blank.next (hB : Blank S) (c : Call) : (¬ c.Succeeds X S ∧ c.next X S = S) ∨
      ∃ x, Good X (c.next X S) [x] ∧ Retained (c.next X S) [x] ∧ Ledger (c.next X S) [x] := by
  cases c with
  | connect block now =>
    rcases hB.connectBlock (X := X) block now with ⟨e, heq⟩ | ⟨x, S', heq, hfst⟩
    · simp only [Call.Succeeds, Call.next, heq]
      exact .inl ⟨Bool.false_ne_true, trivial⟩
    · simp only [Call.next, heq]
      exact .inr ⟨x, hfst⟩
  | promote t now =>
    obtain ⟨e, heq⟩ := hB.promote (X := X) t now
    simp only [Call.Succeeds, Call.next, heq]
    exact .inl ⟨Bool.false_ne_true, trivial⟩

def ChainState.config (S : ChainState) : Hash256 × AsertAnchor × UInt32 × Nat :=
  (S.genesisHash, S.asertAnchor, S.networkMagic, S.coinbaseMaturity)

@[simp] theorem config_pruned {α : Type} (S : ChainState) (result : α) : (S.pruned result).2.config = S.config := by
  unfold ChainState.pruned
  split <;> rfl

@[simp] theorem config_promote (S : ChainState) (t : Hash256) (now : UInt64) :
    (S.promoteHeavierKnownTip X t now).2.config = S.config := by
  dsimp only [ChainState.promoteHeavierKnownTip]
  split
  · rfl
  · rw [config_pruned]
    rfl

@[simp] theorem config_connectDirect (S : ChainState) (block : Block) (hash : Hash256) :
    (S.connectDirect block hash).2.config = S.config := by
  dsimp only [ChainState.connectDirect]
  split
  · rfl
  · rw [config_pruned]
    rfl

@[simp] theorem config_connectSide (S : ChainState) (block : Block) (hash : Hash256) (now : UInt64) :
    (S.connectSide X block hash now).2.config = S.config := by
  dsimp only [ChainState.connectSide]
  cases hstore : S.store.storeKnownBlock hash block.header (.block block) with
  | error e => rfl
  | ok store =>
    have hprun : ({ S with store }.pruned ()).2.config = S.config := config_pruned _ _
    dsimp only
    generalize { S with store }.pruned () = r at hprun
    obtain ⟨_ | _, S'⟩ := r
    · exact hprun
    · have hprom := config_promote (X := X) S' hash now
      dsimp only
      generalize S'.promoteHeavierKnownTip X hash now = r at hprom
      obtain ⟨_ | _, S''⟩ := r
      · split
        · exact hprom.trans hprun
        · exact hprun
      · split
        · exact hprom.trans hprun
        · exact hprun

@[simp] theorem config_connectBlock (S : ChainState) (block : Block) (now : UInt64) :
    (S.connectBlock X block now).2.config = S.config := by
  unfold ChainState.connectBlock
  cases computeBlockIdentifier X S.networkMagic block.header with
  | error e => rfl
  | ok hash =>
    dsimp only
    split
    · rfl
    · split
      · rfl
      · split
        · exact config_connectDirect S block hash
        · exact config_connectSide S block hash now

theorem Call.config_next (S : ChainState) (c : Call) : (c.next X S).config = S.config := by
  cases c with
  | connect block now => exact config_connectBlock S block now
  | promote t now => exact config_promote S t now

def Reachable (X : Externals) : ChainState → Prop :=
  Reach (ChainState.Fresh X) (fun _ _ => True) (Call.next X)

/-- **The invariant of all runs**: no block yet, or a sound chain with bounded side branches. -/
def Sound (X : Externals) (S : ChainState) : Prop :=
  Blank S ∨ ∃ chain, Good X S chain ∧ Retained S chain

theorem sound_of_fresh (h : ChainState.Fresh X S) : Sound X S := by
  cases h with
  | opened h => exact .inl (blank_of_openStore h).1
  | created h hgen =>
    obtain ⟨x, hgood, hret, -⟩ := (blank_of_openStore h).1.createGenesisBlock hgen
    exact .inr ⟨[x], hgood, hret⟩

theorem Good.sound_promote {chain : List (Hash256 × BlockHeader)} (hG : Good X S chain)
    (hret : Retained S chain) (t : Hash256) (now : UInt64) : Sound X (S.promoteHeavierKnownTip X t now).2 := by
  have hstep := hG.promoteStep t now
  generalize S.promoteHeavierKnownTip X t now = r at hstep
  obtain ⟨r, S'⟩ := r
  cases hstep with
  | refused e => exact .inr ⟨chain, hG, hret⟩
  | promoted _ _ hprun => exact .inr ⟨_, hprun.good, hprun.retained⟩

theorem Sound.next (h : Sound X S) (c : Call) : Sound X (c.next X S) := by
  rcases h with hB | ⟨chain, hG, hret⟩
  · rcases hB.next (X := X) c with ⟨-, heq⟩ | ⟨x, hgood, hret, -⟩
    · rw [heq]
      exact .inl hB
    · exact .inr ⟨[x], hgood, hret⟩
  · cases c with
    | connect block now =>
      have hstep := hG.connectStep block now
      rw [Call.next]
      generalize S.connectBlock X block now = r at hstep
      obtain ⟨r, S'⟩ := r
      cases hstep with
      | rejected | known => exact .inr ⟨chain, hG, hret⟩
      | extended _ _ _ hprun | quarantined _ _ hprun _ | notPromoted _ _ hprun _ _ =>
        exact .inr ⟨_, hprun.good, hprun.retained⟩
      | @reorganized hash S₁ _ _ _ _ hprun _ hprom =>
        have := hprun.good.sound_promote hprun.retained hash now
        rwa [hprom] at this
    | promote t now => exact hG.sound_promote hret t now

/-- **Every reachable state is sound.** -/
theorem Reachable.sound (h : Reachable X S) : Sound X S := by
  refine Reach.invariant (P := Sound X) ?_ ?_ h
  · intro s hs
    exact sound_of_fresh hs
  · intro s c hs _
    exact hs.next c

/-- The state after offering blocks one after the other. -/
def ChainState.connectAll (X : Externals) (S : ChainState) (now : UInt64) (blocks : List Block) : ChainState :=
  blocks.foldl (fun S block => (S.connectBlock X block now).2) S

theorem Reachable.connectAll (h : Reachable X S) (now : UInt64) (blocks : List Block) :
    Reachable X (S.connectAll X now blocks) := by
  induction blocks generalizing S with
  | nil => exact h
  | cons block blocks ih => exact ih (.step h (.connect block now) trivial)

end DomProtocol
