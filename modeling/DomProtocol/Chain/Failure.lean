import DomProtocol.Miniature

/-!
# `Chain.Failure` — what a failed `connect_block` leaves behind

A call may have stored the offered block and pruned side blocks before it fails.  Nothing canonical changes, in
memory or on disk.
-/

namespace DomProtocol

open Lib
open Good (ForkAt WithinPolicy Kept)

variable {X : Externals}
variable {S : ChainState} {chain : List (Hash256 × BlockHeader)}

/-- Between `S` and `S'` only blocks off the canonical chain came and went, and what came is `block`. -/
structure OnlySideBlocks (S S' : ChainState) (block : Block) : Prop where
  tipHash : S'.tipHash = S.tipHash
  tipHeight : S'.tipHeight = S.tipHeight
  tipDifficulty : S'.tipDifficulty = S.tipDifficulty
  diskTip : S'.store.chainTip = S.store.chainTip
  heightIndex : S'.store.heightIndex = S.store.heightIndex
  utxos : S'.store.utxos = S.store.utxos
  kernels : S'.store.kernels = S.store.kernels
  /-- Nothing else in memory changes. -/
  memory : S' = { S with store := S'.store }
  /-- Nothing else on disk changes. -/
  disk : S'.store = { S.store with blocks := S'.store.blocks, blockBodies := S'.store.blockBodies }
  /-- Canonical blocks stay. -/
  canonical : ∀ (k : Nat) (h : Hash256), S.store.heightIndex[k]? = some h →
    S'.store.blocks[h]? = S.store.blocks[h]? ∧ S'.store.blockBodies[h]? = S.store.blockBodies[h]?
  /-- Only the offered block is new. -/
  stored : ∀ (h : Hash256) (header : BlockHeader), S'.store.blocks[h]? = some header →
    S.store.blocks[h]? = some header ∨ header = block.header

theorem OnlySideBlocks.refl (S : ChainState) (block : Block) : OnlySideBlocks S S block := by
  refine ⟨rfl, rfl, rfl, rfl, rfl, rfl, rfl, rfl, rfl, ?_, ?_⟩
  · exact fun _ _ _ => ⟨rfl, rfl⟩
  · exact fun _ _ h => .inl h

theorem Good.onlySideBlocks (hG : Good X S chain) {block : Block} {hash : Hash256} {now : UInt64}
    (hI : Incoming X S block hash now) {S' : ChainState}
    (hprun : PrunedFrom X { S with store := S.store.withBlock hash block.header (.block block) } chain S') :
    OnlySideBlocks S S' block := by
  obtain ⟨tips, hT⟩ := hprun.trimmed
  have hdisk := hprun.frame
  have hmm := hprun.memory
  refine ⟨by rw [hmm], by rw [hmm], by rw [hmm], by rw [hdisk]; rfl, by rw [hdisk]; rfl,
    by rw [hdisk]; rfl, by rw [hdisk]; rfl, hmm, hdisk, ?_, ?_⟩
  · intro k h hidx
    rw [hG.canonical.index, Option.map_eq_some_iff] at hidx
    obtain ⟨x, hx, rfl⟩ := hidx
    have hmem := List.mem_of_getElem? hx
    have hsto := hG.canonical.stored x hmem
    obtain ⟨body, hbody, -⟩ := hG.storeOk.body hsto
    have hkept : Kept { S with store := S.store.withBlock hash block.header (.block block) } chain tips x.1 :=
      .inl (List.mem_map_of_mem hmem)
    have hne : hash ≠ x.1 := by
      rintro rfl
      rw [hI.unknown] at hsto
      cases hsto
    constructor
    · rw [hsto]
      exact (hT.blocks _ _).mpr ⟨blocks_withBlock_of_stored hI.unknown hsto, hkept⟩
    · rw [hbody]
      refine (hT.bodies _ _).mpr ⟨?_, hkept⟩
      rw [blockBodies_withBlock, if_neg hne, hbody]
  · intro h header hread
    rcases blocks_withBlock_cases ((hT.blocks _ _).mp hread).1 with ⟨-, rfl⟩ | ⟨-, hold⟩
    · exact .inr rfl
    · exact .inl hold

/-- **A failed `connect_block` leaves everything canonical as it was**, in memory and on disk. -/
theorem connectBlock_error_onlySideBlocks {block : Block} {now : UInt64} {e : DomError}
    (hreach : Reachable X S) (herror : (S.connectBlock X block now).1 = .error e) :
    OnlySideBlocks S (S.connectBlock X block now).2 block := by
  rcases hreach.sound with hB | ⟨chain, hG, -⟩
  · rcases hB.connectBlock (X := X) block now with ⟨e', heq⟩ | ⟨x, S', heq, -⟩
    · rw [heq]
      exact .refl S block
    · rw [heq] at herror
      cases herror
  · have hstep := hG.connectStep block now
    generalize S.connectBlock X block now = r at hstep herror
    obtain ⟨r, S'⟩ := r
    subst herror
    cases hstep with
    | rejected e => exact .refl _ block
    | notPromoted hI _ hpruned _ _ => exact hG.onlySideBlocks hI hpruned

namespace Miniature

/-- A chain of two blocks and a side block of equal work. -/
def forked : ChainState :=
  let best := mine 100 genesis 11 (genesisTimestampRegtest + 1) 8 []
  let side := mine 100 genesis 21 (genesisTimestampRegtest + 1) 18 []
  opened.connectAll libraries now [genesis, best, side]

/-- A heavier block on the side branch that spends an output nobody created. -/
def overspending : Block :=
  mine 100 (mine 100 genesis 21 (genesisTimestampRegtest + 1) 18 []) 22 (genesisTimestampRegtest + 2) 19
    [transfer [(5, 5)] [(5, 6)]]

end Miniature

open Miniature

/-- The overspending block is stored, fails to be promoted and stays stored; the tip does not move. -/
theorem overspending_onlySideBlocks :
    (Miniature.forked.connectBlock Miniature.libraries Miniature.overspending Miniature.now).2 ≠ Miniature.forked ∧
      OnlySideBlocks Miniature.forked
        (Miniature.forked.connectBlock Miniature.libraries Miniature.overspending Miniature.now).2
        Miniature.overspending := by
  have hfails : (forked.connectBlock libraries overspending
      now).1.isOk = false := by decide +kernel
  obtain ⟨e, he⟩ := exists_error hfails
  refine ⟨by decide +kernel, ?_⟩
  exact connectBlock_error_onlySideBlocks (reachable_opened.connectAll _ _) he

end DomProtocol
