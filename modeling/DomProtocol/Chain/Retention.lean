import DomProtocol.Chain.Fork

/-!
# `Chain.Retention` — what pruning keeps

On a sound chain pruning does not fail.  It keeps the canonical chain and the whole branch of every retained tip, so
the invariant survives, and every side block that is left lies on a branch within the retention limits.
-/

namespace DomProtocol

open Lib
open Good (ForkAt WithinPolicy)

variable {X : Externals}
variable {S : ChainState} {chain : List (Hash256 × BlockHeader)}

/-- A stored block as a candidate for retention. -/
def sideTip (x : Hash256 × BlockHeader) : RetainedSideTip := ⟨x.1, x.2.height.toNat, x.2.totalDifficulty⟩

@[simp] theorem hash_sideTip (x : Hash256 × BlockHeader) : (sideTip x).hash = x.1 := rfl

/-- A stored block off the canonical chain. -/
structure SideBlock (S : ChainState) (chain : List (Hash256 × BlockHeader)) (x : Hash256 × BlockHeader) :
    Prop where
  stored : S.store.blocks[x.1]? = some x.2
  side : x.1 ∉ chain.map Prod.fst

/-- A leaf among the side blocks whose branch is within the limits. -/
structure Retainable (S : ChainState) (chain : List (Hash256 × BlockHeader)) (x : Hash256 × BlockHeader) :
    Prop extends SideBlock S chain x where
  leaf : ∀ y, SideBlock S chain y → y.2.prevHash ≠ x.1
  limits : ∃ a l, ForkAt S chain x.1 a l ∧ WithinPolicy S a l

namespace Good

/-! ## Candidates -/

variable {h : Hash256}

variable (hG : Good X S chain)
include hG

theorem mem_canonicalHashes : h ∈ canonicalHashes S.store S.tipHeight ↔ h ∈ chain.map Prod.fst := by
  simp only [canonicalHashes, List.mem_filterMap, List.mem_range, hG.canonical.index, Option.map_eq_some_iff,
    List.mem_map]
  constructor
  · rintro ⟨k, -, x, hx, rfl⟩
    exact ⟨x, List.mem_of_getElem? hx, rfl⟩
  · rintro ⟨x, hx, rfl⟩
    exact ⟨x.2.height.toNat, Nat.lt_succ_of_le (hG.height_le_tip hx), x, hG.getElem_height hx, rfl⟩

variable {x : Hash256 × BlockHeader}

theorem mem_noncanonicalHeaders :
    x ∈ noncanonicalHeaders S.store (canonicalHashes S.store S.tipHeight) ↔ SideBlock S chain x := by
  obtain ⟨h, header⟩ := x
  rw [noncanonicalHeaders, List.mem_filter, decide_eq_true_eq, hG.mem_canonicalHashes,
    Std.ExtTreeMap.mem_toList_iff_getElem?_eq_some]
  constructor
  · rintro ⟨hsto, hside⟩
    exact ⟨hsto, hside⟩
  · intro hx
    exact ⟨hx.stored, hx.side⟩

variable {l : List (Hash256 × BlockHeader)}

/-- **Which side blocks are candidates.**  The limits hold for every candidate; where no hash is the zero
    hash, every leaf within the limits is one. -/
theorem candidateTip_spec (childParents : List Hash256) {a : Hash256 × BlockHeader}
    (hx : SideBlock S chain x) (hf : ForkAt S chain x.1 a l) :
    ∃ r, candidateTip S.store S.tipHeight S.tipHash childParents x = .ok r ∧
      (∀ t, r = some t → t = sideTip x ∧ x.1 ∉ childParents ∧ WithinPolicy S a l) ∧
      (S.tipHash ≠ Hash256.zero → x.1 ≠ Hash256.zero → x.1 ∉ childParents → WithinPolicy S a l →
        r = some (sideTip x)) := by
  unfold candidateTip
  by_cases hchild : x.1 ∈ childParents
  · exact ⟨none, if_pos hchild, by simp, fun _ _ h => absurd hchild h⟩
  simp only [if_neg hchild]
  obtain ⟨r, hr⟩ := hG.findCommonAncestor_ok x.1
  rw [hr, ok_bind]
  cases r with
  | none =>
    refine ⟨none, rfl, by simp, fun htip hne _ hpol => ?_⟩
    rw [hG.findCommonAncestor_eq htip hf hx.stored hne, if_pos hpol] at hr
    cases hr
  | some c =>
    have hlen := hG.fork_height hf hx.stored
    by_cases hzero : c = Hash256.zero
    · -- the zero hash counts as height 0, which only makes the limits stricter
      have hnot : ¬ (S.tipHash ≠ Hash256.zero ∧ x.1 ≠ Hash256.zero) := by
        rintro ⟨htip, hne⟩
        rw [hG.findCommonAncestor_eq htip hf hx.stored hne] at hr
        by_cases hpol : WithinPolicy S a l
        · rw [if_pos hpol, Except.ok.injEq, Option.some.injEq] at hr
          exact hG.hash_ne_zero_of_tip htip hf.mem (hr.trans hzero)
        · rw [if_neg hpol] at hr
          cases hr
      simp only [if_pos hzero]
      by_cases hself : c = x.1
      · exact ⟨none, if_pos hself, by simp, fun h h' => absurd ⟨h, h'⟩ hnot⟩
      · simp only [if_neg hself]
        by_cases hlimit : S.tipHeight - 0 > maxRetainedSideBranchReorgDepth ∨
            x.2.height.toNat - 0 > maxRetainedSideBranchLength
        · exact ⟨none, if_pos hlimit, by simp, fun h h' => absurd ⟨h, h'⟩ hnot⟩
        · refine ⟨some (sideTip x), if_neg hlimit, ?_, fun _ _ _ _ => rfl⟩
          rintro t ⟨rfl⟩
          simp only [maxRetainedSideBranchReorgDepth, maxRetainedSideBranchLength] at hlimit
          exact ⟨rfl, hchild, by omega, by omega⟩
    · obtain ⟨htip, hne⟩ := ne_zero_of_ancestor hr hzero
      rw [hG.findCommonAncestor_eq htip hf hx.stored hne] at hr
      by_cases hpol : WithinPolicy S a l
      · rw [if_pos hpol, Except.ok.injEq, Option.some.injEq] at hr
        subst hr
        have hself : a.1 ≠ x.1 := fun h => hx.side (h ▸ List.mem_map_of_mem hf.mem)
        have hht := hG.fork_height hf hx.stored
        have hlimit : ¬ (S.tipHeight - a.2.height.toNat > maxRetainedSideBranchReorgDepth ∨
            x.2.height.toNat - a.2.height.toNat > maxRetainedSideBranchLength) := by
          simp only [maxRetainedSideBranchReorgDepth, maxRetainedSideBranchLength]
          have := hpol.1
          have := hpol.2
          omega
        simp only [if_neg hself, if_neg hzero, hG.canonical.stored a hf.mem, Option.map_some, if_neg hlimit]
        refine ⟨some (sideTip x), rfl, ?_, fun _ _ _ _ => rfl⟩
        rintro t ⟨rfl⟩
        exact ⟨rfl, hchild, hpol⟩
      · rw [if_neg hpol] at hr
        cases hr

theorem retainedTips_spec : ∃ candidates : List RetainedSideTip, retainedTips S.store S.tipHeight S.tipHash
          (noncanonicalHeaders S.store (canonicalHashes S.store S.tipHeight)) =
        .ok ((candidates.insertionSort RetainedSideTip.before).take maxRetainedSideBranchTips) ∧
      (∀ t ∈ candidates, ∃ x, Retainable S chain x ∧ t = sideTip x) ∧
      (S.tipHash ≠ Hash256.zero → ∀ x, Retainable S chain x → x.1 ≠ Hash256.zero → sideTip x ∈ candidates) := by
  have hleaf : ∀ x : Hash256 × BlockHeader,
      x.1 ∉ (noncanonicalHeaders S.store (canonicalHashes S.store S.tipHeight)).map (·.2.prevHash) ↔
        ∀ y, SideBlock S chain y → y.2.prevHash ≠ x.1 := by
    intro x
    simp only [List.mem_map, hG.mem_noncanonicalHeaders, not_exists, not_and, ne_eq]
  have hspec := fun x (hx : SideBlock S chain x) a l (hf : ForkAt S chain x.1 a l) =>
    hG.candidateTip_spec
      ((noncanonicalHeaders S.store (canonicalHashes S.store S.tipHeight)).map (·.2.prevHash)) hx hf
  obtain ⟨rs, hrs⟩ := mapM_ok_of_forall
    (f := candidateTip S.store S.tipHeight S.tipHash
      ((noncanonicalHeaders S.store (canonicalHashes S.store S.tipHeight)).map (·.2.prevHash)))
    (l := noncanonicalHeaders S.store (canonicalHashes S.store S.tipHeight)) (by
      intro x hx
      have hside := hG.mem_noncanonicalHeaders.mp hx
      obtain ⟨a, l, hf⟩ := hG.exists_fork hside.stored
      obtain ⟨r, hr, -⟩ := hspec x hside a l hf
      exact ⟨r, hr⟩)
  have hmem : ∀ t, t ∈ rs.filterMap id ↔ some t ∈ rs := by simp
  refine ⟨rs.filterMap id, ?_, ?_, ?_⟩
  · simp only [retainedTips, hrs, ok_bind]
    rfl
  · intro t ht
    obtain ⟨x, hx, hcand⟩ := (mem_of_mapM_eq_ok hrs _).mp ((hmem t).mp ht)
    have hside := hG.mem_noncanonicalHeaders.mp hx
    obtain ⟨a, l, hf⟩ := hG.exists_fork hside.stored
    obtain ⟨r, hr, hsnd, -⟩ := hspec x hside a l hf
    rw [hr, Except.ok.injEq] at hcand
    obtain ⟨rfl, hchild, hpol⟩ := hsnd t hcand
    exact ⟨x, ⟨hside, (hleaf x).mp hchild, a, l, hf, hpol⟩, rfl⟩
  · intro htip x hx hne
    obtain ⟨a, l, hf, hpol⟩ := hx.limits
    obtain ⟨r, hr, -, hcpl⟩ := hspec x hx.toSideBlock a l hf
    rw [hcpl htip hne ((hleaf x).mpr hx.leaf) hpol] at hr
    exact (hmem _).mpr ((mem_of_mapM_eq_ok hrs _).mpr ⟨x, hG.mem_noncanonicalHeaders.mpr hx.toSideBlock, hr⟩)

/-! ## Kept blocks -/

variable {keep : List Hash256}

theorem mem_keepBranch {t b : Hash256} (hdown : Descends S.store t b l) (hb : b ∈ keep)
    (hl : ∀ x ∈ l, x.1 ∉ keep) {steps : Nat} (hsts : l.length ≤ steps) :
    h ∈ keepBranch S.store steps t keep ↔ h ∈ keep ∨ h ∈ l.map Prod.fst := by
  induction hdown generalizing steps keep with
  | refl a =>
    cases steps with
    | zero => simp [keepBranch]
    | succ steps => simp [keepBranch, hb]
  | @step t p a n l hlk hpar htail ih =>
    obtain ⟨steps, rfl⟩ : ∃ k, steps = k + 1 := by
      rw [List.length_cons] at hsts
      exact ⟨steps - 1, by omega⟩
    have hsto : S.store.blocks[t]? = some n := hlk
    have hp := hG.parent_ne_zero hsto hpar
    obtain ⟨-, rfl⟩ := parentOf_eq_some.mp hpar
    have hnd := (Down.step hlk hpar htail).nodup hG.storeOk.ranked
    rw [List.map_cons, List.nodup_cons] at hnd
    have hrest : ∀ x ∈ l, x.1 ∉ t :: keep := by
      intro x hx hmem
      rcases List.mem_cons.mp hmem with heq | hmem
      · exact hnd.1 (List.mem_map.mpr ⟨x, hx, heq⟩)
      · exact hl x (List.mem_cons_of_mem _ hx) hmem
    have hlen : l.length ≤ steps := by
      rw [List.length_cons] at hsts
      omega
    rw [keepBranch, if_neg (hl _ List.mem_cons_self), hsto]
    simp only [if_neg hp]
    rw [ih (List.mem_cons_of_mem _ hb) hrest hlen, List.mem_cons, List.map_cons, List.mem_cons]
    tauto

/-- What pruning keeps: canonical blocks and the branches of the given tips. -/
def Kept (S : ChainState) (chain : List (Hash256 × BlockHeader)) (tips : List RetainedSideTip)
    (h : Hash256) : Prop :=
  h ∈ chain.map Prod.fst ∨ ∃ t ∈ tips, ∃ a l, ForkAt S chain t.hash a l ∧ h ∈ l.map Prod.fst

variable {tips : List RetainedSideTip}

theorem kept_parent {p : Hash256} {header : BlockHeader} (hkept : Kept S chain tips h)
    (hsto : S.store.blocks[h]? = some header) (hp : parentOf header = some p) : Kept S chain tips p := by
  rcases hkept with hmem | ⟨t, ht, a, l, hf, hmem⟩
  · obtain ⟨x, hx, rfl⟩ := List.mem_map.mp hmem
    obtain rfl := Option.some.inj (hsto.symm.trans (hG.canonical.stored x hx))
    exact .inl (hG.parent_mem hx hp)
  · obtain ⟨x, hx, rfl⟩ := List.mem_map.mp hmem
    obtain rfl := Option.some.inj (hsto.symm.trans (hf.down.lookup_of_mem hx))
    rcases hf.down.parent_mem hx hp with rfl | hpath
    · exact .inl (List.mem_map_of_mem hf.mem)
    · exact .inr ⟨t, ht, a, l, hf, hpath⟩

theorem mem_keepBranch_kept (hkeep : ∀ h, h ∈ keep ↔ Kept S chain tips h) (hx : Retainable S chain x) (h : Hash256) :
    h ∈ keepBranch S.store (maxRetainedSideBranchLength + 1) x.1 keep ↔
      Kept S chain (tips ++ [sideTip x]) h := by
  obtain ⟨a, l, hf, hpol⟩ := hx.limits
  have hclsd : ∀ t n p, Kept S chain tips t → S.store.blocks[t]? = some n → parentOf n = some p →
      Kept S chain tips p := fun t n p => hG.kept_parent
  obtain ⟨b, l₁, l₂, hupp, hlow, hb, hl₁, rfl⟩ :=
    Down.split_at_first (C := Kept S chain tips) hf.down (.inl (List.mem_map_of_mem hf.mem))
  have hlen : l₁.length ≤ maxRetainedSideBranchLength + 1 := by
    have := hpol.2
    rw [List.length_append] at this
    unfold maxRetainedSideBranchLength
    omega
  rw [hG.mem_keepBranch hupp ((hkeep b).mpr hb) (fun y hy => (hkeep y.1).not.mpr (hl₁ y hy)) hlen, hkeep]
  have hlast : (∃ a' l', ForkAt S chain x.1 a' l' ∧ h ∈ l'.map Prod.fst) ↔
      h ∈ (l₁ ++ l₂).map Prod.fst := by
    constructor
    · rintro ⟨a', l', hf', hmem⟩
      obtain ⟨-, rfl⟩ := hG.fork_unique hf hf'
      exact hmem
    · intro hmem
      exact ⟨a, _, hf, hmem⟩
  have hrest : ∀ y ∈ l₂, Kept S chain tips y.1 := Down.mem_of_closed hclsd hlow hb
  constructor
  · rintro ((hmem | ⟨t, ht, hpath⟩) | hmem)
    · exact .inl hmem
    · exact .inr ⟨t, List.mem_append_left _ ht, hpath⟩
    · exact .inr ⟨sideTip x, by simp, hlast.mpr (by rw [List.map_append]; exact List.mem_append_left _ hmem)⟩
  · rintro (hmem | ⟨t, ht, hpath⟩)
    · exact .inl (.inl hmem)
    · rcases List.mem_append.mp ht with ht | ht
      · exact .inl (.inr ⟨t, ht, hpath⟩)
      · rw [List.mem_singleton.mp ht] at hpath
        have hmem := hlast.mp hpath
        rw [List.map_append, List.mem_append] at hmem
        rcases hmem with hmem | hmem
        · exact .inr hmem
        · obtain ⟨y, hy, rfl⟩ := List.mem_map.mp hmem
          exact .inl (hrest y hy)

theorem mem_foldl_keepBranch (htips : ∀ t ∈ tips, ∃ x, Retainable S chain x ∧ t = sideTip x)
    {done : List RetainedSideTip} (hkeep : ∀ h, h ∈ keep ↔ Kept S chain done h) (h : Hash256) :
    h ∈ tips.foldl (fun keep tip => keepBranch S.store (maxRetainedSideBranchLength + 1) tip.hash keep) keep ↔
      Kept S chain (done ++ tips) h := by
  induction tips generalizing done keep with
  | nil => simpa using hkeep h
  | cons t tips ih =>
    obtain ⟨x, hx, rfl⟩ := htips t List.mem_cons_self
    have hstep := hG.mem_keepBranch_kept hkeep hx
    have := ih (fun t ht => htips t (List.mem_cons_of_mem _ ht)) hstep
    simpa using this

omit hG

end Good

/-! ## Deleting side blocks -/

/-- The store `s'` is `s` without the blocks outside `K`. -/
structure Trimmed (s s' : DomStore) (K : Hash256 → Prop) : Prop where
  blocks : ∀ h header, s'.blocks[h]? = some header ↔ s.blocks[h]? = some header ∧ K h
  bodies : ∀ h body, s'.blockBodies[h]? = some body ↔ s.blockBodies[h]? = some body ∧ K h
  frame : s' = { s with blocks := s'.blocks, blockBodies := s'.blockBodies }

variable {K : Hash256 → Prop}

theorem trimmed_pruneKnownBlocks {s : DomStore} {hashes : List Hash256}
    (hblks : ∀ h header, s.blocks[h]? = some header → (h ∈ hashes ↔ ¬ K h))
    (hbods : ∀ h body, s.blockBodies[h]? = some body → (h ∈ hashes ↔ ¬ K h)) :
    Trimmed s (s.pruneKnownBlocks hashes) K := by
  have hkept {erased read kept : Prop} (h : read → (erased ↔ ¬ kept)) : ¬ erased ∧ read ↔ read ∧ kept := by
    rw [and_comm]
    exact and_congr_right fun hread => (h hread).not.trans not_not
  refine ⟨fun h header => ?_, fun h body => ?_, rfl⟩ <;>
    simp only [DomStore.pruneKnownBlocks, getElem?_eraseAll, Option.ite_none_left_eq_some]
  · exact hkept (hblks h header)
  · exact hkept (hbods h body)

variable {s' : DomStore}

namespace Good

variable (hG : Good X S chain)
include hG

theorem trim_bodiesOf
    (hT : Trimmed S.store s' K) (hcanon : ∀ x ∈ chain, K x.1) {part : List (Hash256 × BlockHeader)}
    (hpart : ∀ x ∈ part, x ∈ chain) : bodiesOf s' part = bodiesOf S.store part := by
  refine bodiesOf_congr fun x hx => ?_
  obtain ⟨body, hbody, -⟩ := hG.storeOk.body (hG.canonical.stored x (hpart x hx))
  rw [hbody]
  exact (hT.bodies _ _).mpr ⟨hbody, hcanon x (hpart x hx)⟩

theorem trim (hT : Trimmed S.store s' K) (hcanon : ∀ x ∈ chain, K x.1)
    (hclsd : ∀ h p header, K h → S.store.blocks[h]? = some header → parentOf header = some p → K p) :
    Good X { S with store := s' } chain := by
  have hsub : ∀ {h : Hash256} {header : BlockHeader}, s'.blocks[h]? = some header →
      S.store.blocks[h]? = some header := fun h => ((hT.blocks _ _).mp h).1
  have hidx : s'.heightIndex = S.store.heightIndex := by rw [hT.frame]
  have htip : s'.chainTip = S.store.chainTip := by rw [hT.frame]
  have hkers : s'.kernels = S.store.kernels := by rw [hT.frame]
  have hbods := hG.trim_bodiesOf hT hcanon fun _ hx => hx
  refine ⟨⟨?_, ?_, ?_, ?_, ?_, ?_⟩, ⟨?_, ?_, ?_, ?_, ?_, ?_, ?_⟩, ⟨?_, ?_⟩⟩
  · -- links
    intro h header p hsto hp
    obtain ⟨hold, hK⟩ := (hT.blocks h header).mp hsto
    obtain ⟨parent, hpar, hht⟩ := hG.storeOk.parent hold hp
    exact ⟨parent, (hT.blocks p parent).mpr ⟨hpar, hclsd h p header hK hold hp⟩, hht⟩
  · intro h p header parent hsto hp hpar
    exact hG.storeOk.work (hsub hsto) hp (hsub hpar)
  · intro h header hsto
    exact hG.storeOk.headerSyntax (hsub hsto)
  · intro h header hsto
    exact hG.storeOk.ident (hsub hsto)
  · intro h header hsto
    obtain ⟨hold, hK⟩ := (hT.blocks h header).mp hsto
    obtain ⟨body, hbody, hof⟩ := hG.storeOk.body hold
    exact ⟨body, (hT.bodies h body).mpr ⟨hbody, hK⟩, hof⟩
  · intro h body hbody
    obtain ⟨hold, hK⟩ := (hT.bodies h body).mp hbody
    obtain ⟨header, hhr⟩ := hG.storeOk.header hold
    exact ⟨header, (hT.blocks h header).mpr ⟨hhr, hK⟩⟩
  · intro k
    simp only [hidx]
    exact hG.canonical.index k
  · intro x hx
    exact (hT.blocks _ _).mpr ⟨hG.canonical.stored x hx, hcanon x hx⟩
  · exact hG.canonical.ascending
  · exact hG.canonical.genesis
  · exact hG.canonical.tip
  · simp only [htip]
    exact hG.canonical.diskTip
  · intro h header hsto hht
    exact hG.canonical.root (hsub hsto) hht
  · simp only [hbods]
    exact hG.kernelsOk.replayable
  · intro excess
    simp only [hbods, hkers]
    exact hG.kernelsOk.kernels excess

/-! ## Pruning -/

/-- **Pruning a sound chain** succeeds and keeps the canonical chain and the branches of the retained tips. -/
theorem pruneRetainedSideChains_spec : ∃ tips store', retainedTips S.store S.tipHeight S.tipHash
        (noncanonicalHeaders S.store (canonicalHashes S.store S.tipHeight)) = .ok tips ∧
      (∀ t ∈ tips, ∃ x, Retainable S chain x ∧ t = sideTip x) ∧
      pruneRetainedSideChains S.store S.tipHeight S.tipHash = .ok store' ∧
      Trimmed S.store store' (Kept S chain tips) := by
  obtain ⟨candidates, htips, hsnd, -⟩ := hG.retainedTips_spec
  have hret : ∀ t ∈ (candidates.insertionSort RetainedSideTip.before).take maxRetainedSideBranchTips,
      ∃ x, Retainable S chain x ∧ t = sideTip x := by
    intro t ht
    exact hsnd t ((List.mem_insertionSort _).mp (List.mem_of_mem_take ht))
  refine ⟨_, _, htips, hret, by simp only [pruneRetainedSideChains, htips, ok_bind]; rfl, ?_⟩
  generalize (candidates.insertionSort RetainedSideTip.before).take maxRetainedSideBranchTips = tips
    at hret
  have hcanon : ∀ h, h ∈ canonicalHashes S.store S.tipHeight ↔ Kept S chain [] h := by
    intro h
    rw [hG.mem_canonicalHashes]
    simp [Kept]
  have hkeep := hG.mem_foldl_keepBranch hret hcanon
  rw [List.nil_append] at hkeep
  -- a stored block is deleted exactly when it is not kept
  have hdeleted : ∀ h header, S.store.blocks[h]? = some header →
      (h ∈ ((noncanonicalHeaders S.store (canonicalHashes S.store S.tipHeight)).map Prod.fst).filter
        (fun hash => hash ∉ tips.foldl (fun keep tip =>
          keepBranch S.store (maxRetainedSideBranchLength + 1) tip.hash keep)
          (canonicalHashes S.store S.tipHeight)) ↔ ¬ Kept S chain tips h) := by
    intro h header hsto
    rw [List.mem_filter, decide_eq_true_eq, hkeep, and_iff_right_iff_imp]
    intro hnot
    refine List.mem_map.mpr ⟨(h, header), hG.mem_noncanonicalHeaders.mpr ⟨hsto, ?_⟩, rfl⟩
    exact fun hmem => hnot (.inl hmem)
  refine trimmed_pruneKnownBlocks hdeleted ?_
  intro h body hbody
  obtain ⟨header, hsto⟩ := hG.storeOk.header hbody
  exact hdeleted h header hsto

theorem kept_fork {tips : List RetainedSideTip}
    (htips : ∀ t ∈ tips, ∃ x, Retainable S chain x ∧ t = sideTip x) {h : Hash256}
    (hkept : Kept S chain tips h) (hside : h ∉ chain.map Prod.fst) :
    ∃ a l, ForkAt S chain h a l ∧ WithinPolicy S a l ∧ ∀ x ∈ l, Kept S chain tips x.1 := by
  rcases hkept with hmem | ⟨t, ht, a, l, hf, hmem⟩
  · exact absurd hmem hside
  · obtain ⟨x, hx, rfl⟩ := htips t ht
    obtain ⟨a', l', hf', hpol⟩ := hx.limits
    obtain ⟨rfl, rfl⟩ := hG.fork_unique hf hf'
    obtain ⟨y, hy, rfl⟩ := List.mem_map.mp hmem
    obtain ⟨upper, lower, rfl⟩ := List.append_of_mem hy
    have hsub : ∀ z ∈ y :: lower, z ∈ upper ++ y :: lower := fun z hz => List.mem_append_right _ hz
    refine ⟨a, y :: lower, ⟨hf.down.cut.2, hf.mem, fun z hz => hf.side z (hsub z hz)⟩, ⟨hpol.1, ?_⟩, ?_⟩
    · have := hpol.2
      rw [List.length_append] at this
      omega
    · exact fun z hz => .inr ⟨_, ht, a, _, hf, List.mem_map_of_mem (hsub z hz)⟩

/-- **Pruning keeps the invariant and establishes the retention limits.** -/
theorem pruned_good : ∃ tips store', pruneRetainedSideChains S.store S.tipHeight S.tipHash = .ok store' ∧
      Trimmed S.store store' (Kept S chain tips) ∧ Good X { S with store := store' } chain ∧
      Retained { S with store := store' } chain := by
  obtain ⟨tips, store', -, htips, hprune, hT⟩ := hG.pruneRetainedSideChains_spec
  have hgood := hG.trim hT (fun x hx => .inl (List.mem_map_of_mem hx))
    (fun h p header hK hsto hp => hG.kept_parent hK hsto hp)
  refine ⟨tips, store', hprune, hT, hgood, ?_⟩
  intro h header hsto hside
  obtain ⟨hold, hkept⟩ := (hT.blocks h header).mp hsto
  obtain ⟨a, l, hf, hpol, hl⟩ := hG.kept_fork htips hkept hside
  refine ⟨a, l, hf.down.of_lookup fun x hx => ?_, hf.mem, hf.side, hpol.2, hpol.1⟩
  exact (hT.blocks x.1 x.2).mpr ⟨hf.down.lookup_of_mem hx, hl x hx⟩

omit hG

end Good

end DomProtocol
