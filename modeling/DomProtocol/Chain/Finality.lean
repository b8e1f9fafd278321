import DomProtocol.Chain.Persistence

/-!
# `Chain.Finality` — what no later call takes back

The tip only ever gives way to a better one, and a block at least `maxReorgDepth` below the tip keeps its height.
-/

namespace DomProtocol

open Lib

variable {X : Externals} {S S' : ChainState} {chain : List (Hash256 × BlockHeader)}

/-- The tip of `S'` is the tip of `S`, or fork choice prefers it. -/
def TipNoWorse (S S' : ChainState) : Prop :=
  (S'.tipHash = S.tipHash ∧ S'.tipDifficulty = S.tipDifficulty) ∨
    isBetterForkChoiceTip S'.tipDifficulty S'.tipHash S.tipDifficulty S.tipHash

theorem TipNoWorse.trans {S'' : ChainState} (h : TipNoWorse S S') (h' : TipNoWorse S' S'') : TipNoWorse S S'' := by
  simp only [TipNoWorse, isBetterForkChoiceTip, gt_iff_lt, BitVec.lt_def, ← BitVec.toNat_inj] at h h' ⊢
  omega

/-- What one call leaves: a sound chain, a tip that is no worse, and every final block where it was. -/
structure Advances (X : Externals) (S S' : ChainState) : Prop where
  good : ∃ chain, Good X S' chain
  tip : TipNoWorse S S'
  final : ∀ k, k + maxReorgDepth ≤ S.tipHeight → S'.store.heightIndex[k]? = S.store.heightIndex[k]?

theorem Good.advances_of_agree {chain' : List (Hash256 × BlockHeader)} (hG : Good X S chain) (hG' : Good X S' chain')
    (htip : TipNoWorse S S') (h : ∀ k, k + maxReorgDepth ≤ S.tipHeight → chain'[k]? = chain[k]?) : Advances X S S' := by
  refine ⟨⟨chain', hG'⟩, htip, fun k hk => ?_⟩
  rw [hG.canonical.index, hG'.canonical.index, h k hk]

theorem Good.promote_advances (hG : Good X S chain) (t : Hash256) (now : UInt64) :
    Advances X S (S.promoteHeavierKnownTip X t now).2 := by
  have hstep := hG.promoteStep t now
  generalize S.promoteHeavierKnownTip X t now = r at hstep
  obtain ⟨r, S'⟩ := r
  dsimp only at hstep ⊢
  cases hstep with
  | refused e => exact ⟨⟨chain, hG⟩, .inl ⟨rfl, rfl⟩, fun _ _ => rfl⟩
  | @promoted header a l disc conn store _ hP _ hprun =>
    refine hG.advances_of_agree hprun.good (.inr ?_) fun k hk => ?_
    · rw [hprun.memory]
      exact hP.better
    · -- the fork point lies above every final height
      have hlow : k < a.2.height.toNat + 1 := by
        have := hP.finality
        have : 0 < maxReorgDepth := by decide
        omega
      rw [reorged, List.getElem?_append_left (by rwa [length_upTo hG hP.fork.mem]), upTo, List.getElem?_take_of_lt hlow]

theorem Good.advances (hG : Good X S chain) (c : Call) : Advances X S (c.next X S) := by
  cases c with
  | promote t now => exact hG.promote_advances t now
  | connect block now =>
    have hstep := hG.connectStep block now
    rw [Call.next]
    generalize S.connectBlock X block now = r at hstep
    obtain ⟨r, S'⟩ := r
    dsimp only at hstep ⊢
    cases hstep with
    | rejected | known => exact ⟨⟨chain, hG⟩, .inl ⟨rfl, rfl⟩, fun _ _ => rfl⟩
    | @extended hash store _ hI hprev _ hprun =>
      refine hG.advances_of_agree hprun.good (.inr (.inl ?_)) fun k hk => ?_
      · -- the block links to the old tip, which is still stored
        obtain ⟨header, htip, -, hwork⟩ := hG.getElem_tip
        have hold := hprun.good.canonical.stored _ (List.mem_append_left _ (List.mem_of_getElem? htip))
        have hnew := hprun.good.canonical.stored (hash, block.header) (by simp)
        rw [hprun.memory, ← hwork]
        exact hprun.good.storeOk.work hnew (hG.parentOf_incoming hI hprev) hold
      · rw [List.getElem?_append_left (by rw [hG.length_chain]; omega)]
    | quarantined hI _ hprun | notPromoted hI _ hprun =>
      have hside := hG.onlySideBlocks hI hprun
      exact ⟨⟨chain, hprun.good⟩, .inl ⟨hside.tipHash, hside.tipDifficulty⟩, fun _ _ => by rw [hside.heightIndex]⟩
    | @reorganized hash S₁ _ _ hI _ hprun _ hprom =>
      -- storing the block moved nothing canonical
      have hside := hG.onlySideBlocks hI hprun
      have hadv := hprun.good.promote_advances hash now
      rw [hprom] at hadv
      refine ⟨hadv.good, ?_, fun k hk => ?_⟩
      · simpa only [TipNoWorse, hside.tipHash, hside.tipDifficulty] using hadv.tip
      · rw [hadv.final k (by rwa [hside.tipHeight]), hside.heightIndex]

/-- The tip is no worse after a run, and a height that is final in each of its states names the same block. -/
structure NothingTakenBack (X : Externals) (S : ChainState) (calls : List Call) : Prop where
  tip : TipNoWorse S (calls.foldl (Call.next X) S)
  final : ∀ k, (∀ before, before <+: calls → k + maxReorgDepth ≤ (before.foldl (Call.next X) S).tipHeight) →
    (calls.foldl (Call.next X) S).store.heightIndex[k]? = S.store.heightIndex[k]?

/-- **Finality over runs.**  From every reachable chain with a genesis, and whatever is offered, the tip is kept or
exchanged for better ones, and no block that stays `maxReorgDepth` below the tip is exchanged. -/
theorem nothing_taken_back (hreach : Reachable X S) (hgenesis : S.store.chainTip ≠ none) (calls : List Call) :
    NothingTakenBack X S calls := by
  rcases hreach.sound with hB | ⟨chain, hG, -⟩
  · rw [hB.store] at hgenesis
    exact absurd rfl hgenesis
  clear hreach hgenesis
  induction calls generalizing S chain with
  | nil => exact ⟨.inl ⟨rfl, rfl⟩, fun _ _ => rfl⟩
  | cons c calls ih =>
    have hadv := hG.advances c
    obtain ⟨chain', hG'⟩ := hadv.good
    obtain ⟨htip, hfinal⟩ := ih chain' hG'
    refine ⟨hadv.tip.trans htip, fun k hdeep => ?_⟩
    have hrest := hfinal k fun before hbefore => hdeep (c :: before) (List.cons_prefix_cons.mpr ⟨rfl, hbefore⟩)
    exact hrest.trans (hadv.final k (hdeep [] List.nil_prefix))

open Miniature in
/-- The overtaking block moves the tip of the fork to a better one. -/
theorem overtaking_takes_nothing_back :
    forked.store.chainTip ≠ none ∧ NothingTakenBack libraries forked [.connect overtaking now] := by
  have hgenesis : forked.store.chainTip ≠ none := by decide +kernel
  exact ⟨hgenesis, nothing_taken_back forked_cleanly.reachable hgenesis _⟩

end DomProtocol
