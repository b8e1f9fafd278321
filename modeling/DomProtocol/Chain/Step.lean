import DomProtocol.Chain.Reorganize

/-!
# `Chain.Step` — everything one call can do

One inversion lemma for each of the two operations on a sound chain.  They list every outcome with the state it
leaves behind; in particular pruning, the last stage of each of them, does not fail.
-/

namespace DomProtocol

open Lib
open Good (ForkAt WithinPolicy Kept)

variable {X : Externals}
variable {S : ChainState} {chain : List (Hash256 × BlockHeader)}

/-! ## Pruning as a step -/

/-- The state `S'` is what pruning leaves of `S`. -/
structure PrunedFrom (X : Externals) (S : ChainState) (chain : List (Hash256 × BlockHeader)) (S' : ChainState) :
    Prop where
  computed : pruneRetainedSideChains S.store S.tipHeight S.tipHash = .ok S'.store
  good : Good X S' chain
  retained : Retained S' chain
  memory : S' = { S with store := S'.store }
  trimmed : ∃ tips, Trimmed S.store S'.store (Kept S chain tips)

theorem Good.pruned_eq {α : Type} (hG : Good X S chain) (result : α) :
    ∃ S', S.pruned result = (.ok result, S') ∧ PrunedFrom X S chain S' := by
  obtain ⟨tips, store', hprune, hT, hgood, hret⟩ := hG.pruned_good
  exact ⟨{ S with store := store' }, by rw [ChainState.pruned, hprune], hprune, hgood, hret, rfl, tips, hT⟩

variable {S' : ChainState}

theorem PrunedFrom.pruned_eq {α : Type} (h : PrunedFrom X S chain S') (result : α) :
    S.pruned result = (.ok result, S') := by
  rw [ChainState.pruned, h.computed, h.memory]

theorem PrunedFrom.frame (h : PrunedFrom X S chain S') :
    S'.store = { S.store with blocks := S'.store.blocks, blockBodies := S'.store.blockBodies } := by
  obtain ⟨tips, hT⟩ := h.trimmed
  exact hT.frame

theorem PrunedFrom.bodiesOf_eq (h : PrunedFrom X S chain S') (hG : Good X S chain)
    {part : List (Hash256 × BlockHeader)} (hpart : ∀ x ∈ part, x ∈ chain) :
    bodiesOf S'.store part = bodiesOf S.store part := by
  obtain ⟨tips, hT⟩ := h.trimmed
  exact hG.trim_bodiesOf hT (fun x hx => .inl (List.mem_map_of_mem hx)) hpart

theorem PrunedFrom.ledger (h : PrunedFrom X S chain S') (hG : Good X S chain) (hL : Ledger S chain) : Ledger S' chain := by
  have hbods := h.bodiesOf_eq hG fun _ hx => hx
  have hutx : S'.store.utxos = S.store.utxos := by rw [h.frame]
  exact ⟨by rw [hbods]; exact hL.replayable, fun c => by rw [hbods, hutx]; exact hL.utxos c⟩

/-! ## Promotion -/

variable (X S chain) (t : Hash256) (now : UInt64) in
/-- **The transitions of `promote_heavier_known_tip`** on a sound chain. -/
inductive PromoteStep : Except DomError ReorgDelta → ChainState → Prop where
  | refused (e : DomError) : PromoteStep (.error e) S
  | promoted {header : BlockHeader} {a : Hash256 × BlockHeader} {l : List (Hash256 × BlockHeader)}
      {disc conn : List (Hash256 × Block)} {store : DomStore} {S' : ChainState}
      (planned : Planned X S chain t now header a l disc conn)
      (written : S.reorgStore t ⟨header, a.2.height.toNat, disc.reverse, conn⟩ = .ok store)
      (pruned : PrunedFrom X (S.tipMoved store t header) (reorged chain a l) S') :
      PromoteStep (.ok (buildReorgDelta a.2.height.toNat disc.reverse conn)) S'

section Promote

variable {t : Hash256} {now : UInt64} {header : BlockHeader} {a : Hash256 × BlockHeader}
variable {l : List (Hash256 × BlockHeader)} {disc conn : List (Hash256 × Block)}

theorem Good.promote_error (hG : Good X S chain) (hP : Planned X S chain t now header a l disc conn) {e : DomError}
    (h : S.reorgStore t ⟨header, a.2.height.toNat, disc.reverse, conn⟩ = .error e) :
    S.promoteHeavierKnownTip X t now = (.error e, S) := by
  have hplan := hG.planReorg_iff.mpr ⟨header, a, l, disc, conn, hP, rfl⟩
  simp only [ChainState.promoteHeavierKnownTip, hplan, h, ok_bind, error_bind]

theorem Good.promote_ok (hG : Good X S chain) (hP : Planned X S chain t now header a l disc conn) {store : DomStore}
    (h : S.reorgStore t ⟨header, a.2.height.toNat, disc.reverse, conn⟩ = .ok store) :
    ∃ S', S.promoteHeavierKnownTip X t now = (.ok (buildReorgDelta a.2.height.toNat disc.reverse conn), S') ∧
      PrunedFrom X (S.tipMoved store t header) (reorged chain a l) S' := by
  have hplan := hG.planReorg_iff.mpr ⟨header, a, l, disc, conn, hP, rfl⟩
  obtain ⟨S', hprun, hS'⟩ := (hG.reorg hP h).pruned_eq (buildReorgDelta a.2.height.toNat disc.reverse conn)
  refine ⟨S', ?_, hS'⟩
  simp only [ChainState.promoteHeavierKnownTip, hplan, h, ok_bind]
  exact hprun

end Promote

theorem Good.promoteStep (hG : Good X S chain) (t : Hash256) (now : UInt64) :
    PromoteStep X S chain t now (S.promoteHeavierKnownTip X t now).1 (S.promoteHeavierKnownTip X t now).2 := by
  cases hplan : S.planReorg X t now with
  | error e =>
    simp only [ChainState.promoteHeavierKnownTip, hplan, error_bind]
    exact .refused e
  | ok plan =>
    obtain ⟨header, a, l, disc, conn, hP, rfl⟩ := hG.planReorg_iff.mp hplan
    cases hstore : S.reorgStore t ⟨header, a.2.height.toNat, disc.reverse, conn⟩ with
    | error e =>
      rw [hG.promote_error hP hstore]
      exact .refused e
    | ok store =>
      obtain ⟨S', heq, hS'⟩ := hG.promote_ok hP hstore
      rw [heq]
      exact .promoted hP hstore hS'

/-! ## Connecting a block -/

variable (X S chain) (block : Block) (now : UInt64) in
/-- **The transitions of `connect_block`** on a sound chain. -/
inductive ConnectStep : Except DomError ConnectResult → ChainState → Prop where
  | rejected (e : DomError) : ConnectStep (.error e) S
  | known : ConnectStep (.ok .AlreadyHave) S
  | extended {hash : Hash256} {store : DomStore} {S' : ChainState} (incoming : Incoming X S block hash now)
      (onTip : block.header.prevHash = S.tipHash) (written : S.directExtensionStore block hash = .ok store)
      (pruned : PrunedFrom X (S.tipMoved store hash block.header) (chain ++ [(hash, block.header)]) S') :
      ConnectStep (.ok .BestChain) S'
  | quarantined {hash : Hash256} {S' : ChainState} (incoming : Incoming X S block hash now)
      (offTip : block.header.prevHash ≠ S.tipHash)
      (pruned : PrunedFrom X { S with store := S.store.withBlock hash block.header (.block block) } chain S')
      (worse : ¬ isBetterForkChoiceTip block.header.totalDifficulty hash S.tipDifficulty S.tipHash) :
      ConnectStep (.ok .SideChain) S'
  | notPromoted {hash : Hash256} {S' : ChainState} {e : DomError} (incoming : Incoming X S block hash now)
      (offTip : block.header.prevHash ≠ S.tipHash)
      (pruned : PrunedFrom X { S with store := S.store.withBlock hash block.header (.block block) } chain S')
      (better : isBetterForkChoiceTip block.header.totalDifficulty hash S.tipDifficulty S.tipHash)
      (promotion : S'.promoteHeavierKnownTip X hash now = (.error e, S')) :
      ConnectStep (.error e) S'
  | reorganized {hash : Hash256} {S' S'' : ChainState} {delta : ReorgDelta}
      (incoming : Incoming X S block hash now) (offTip : block.header.prevHash ≠ S.tipHash)
      (pruned : PrunedFrom X { S with store := S.store.withBlock hash block.header (.block block) } chain S')
      (better : isBetterForkChoiceTip block.header.totalDifficulty hash S.tipDifficulty S.tipHash)
      (promotion : S'.promoteHeavierKnownTip X hash now = (.ok delta, S'')) :
      ConnectStep (.ok (.Reorg delta)) S''

section Connect

variable {block : Block} {hash : Hash256} {now : UInt64}

theorem Good.parentOf_incoming (hG : Good X S chain) (hI : Incoming X S block hash now)
    (hprev : block.header.prevHash = S.tipHash) : parentOf block.header = some S.tipHash :=
  parentOf_eq_some.mpr ⟨hI.height_ne_zero hG, hprev⟩

theorem Incoming.committed {store : DomStore} (hI : Incoming X S block hash now)
    (h : S.directExtensionStore block hash = .ok store) :
    Committed S.store store hash block.header.height.toNat block.header (.block block) :=
  ((directExtensionStore_iff hI.shape).mp h).2.2

theorem Good.connectDirect_step (hG : Good X S chain) (hI : Incoming X S block hash now)
    (hprev : block.header.prevHash = S.tipHash) :
    ConnectStep X S chain block now (S.connectDirect block hash).1 (S.connectDirect block hash).2 := by
  cases hstore : S.directExtensionStore block hash with
  | error e =>
    simp only [ChainState.connectDirect, hstore]
    exact .rejected e
  | ok store =>
    have hgood := hG.commit (hI.committed hstore) hI.fits (hG.parentOf_incoming hI hprev)
    obtain ⟨S', hprun, hS'⟩ := hgood.pruned_eq ConnectResult.BestChain
    have heq : S.connectDirect block hash = (.ok .BestChain, S') := by
      simp only [ChainState.connectDirect, hstore]
      exact hprun
    rw [heq]
    exact .extended hI hprev hstore hS'

theorem Good.connectSide_step (hG : Good X S chain) (hI : Incoming X S block hash now)
    (hprev : block.header.prevHash ≠ S.tipHash) :
    ConnectStep X S chain block now (S.connectSide X block hash now).1 (S.connectSide X block hash now).2 := by
  have hgood := hG.withBlock hI
  obtain ⟨S', hprun, hS'⟩ := hgood.pruned_eq ()
  simp only [ChainState.connectSide, hG.storeKnownBlock_eq hI, hprun]
  by_cases hbet : isBetterForkChoiceTip block.header.totalDifficulty hash S.tipDifficulty S.tipHash
  · rw [if_pos hbet]
    have hstep := hS'.good.promoteStep hash now
    cases hprom : S'.promoteHeavierKnownTip X hash now with
    | mk r S'' =>
      rw [hprom] at hstep
      cases r with
      | error e =>
        cases hstep
        exact .notPromoted hI hprev hS' hbet hprom
      | ok delta => exact .reorganized hI hprev hS' hbet hprom
  · rw [if_neg hbet]
    exact .quarantined hI hprev hS' hbet

theorem Good.connectStep (hG : Good X S chain) (block : Block) (now : UInt64) :
    ConnectStep X S chain block now (S.connectBlock X block now).1 (S.connectBlock X block now).2 := by
  unfold ChainState.connectBlock
  cases hid : computeBlockIdentifier X S.networkMagic block.header with
  | error e => exact .rejected e
  | ok hash =>
    cases hkn : S.store.blocks[hash]? with
    | some header =>
      simp only [hkn, Option.isSome_some, if_true]
      exact .known
    | none =>
      simp only [hkn, Option.isSome_none, Bool.false_eq_true, if_false]
      cases hchkd : S.validateIncomingBlock X block hash now with
      | error e => exact .rejected e
      | ok u =>
        have hI : Incoming X S block hash now := ⟨hid, hkn, hchkd⟩
        have hht := hI.height_ne_zero hG
        by_cases hprev : block.header.prevHash = S.tipHash
        · simp only [if_pos (Or.inr hprev : _ ∨ _)]
          exact hG.connectDirect_step hI hprev
        · have hside : ¬ (block.header.height.toNat = 0 ∨ block.header.prevHash = S.tipHash) := by
            rintro (h | h)
            · exact hht h
            · exact hprev h
          simp only [if_neg hside]
          exact hG.connectSide_step hI hprev

end Connect

end DomProtocol
