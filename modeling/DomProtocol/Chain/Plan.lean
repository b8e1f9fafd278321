import DomProtocol.Chain.Extend

/-!
# `Chain.Plan` — what a promotion decides before it changes anything

On a sound chain the plan of a promotion is determined by the fork point of the new tip: the canonical blocks above
it are disconnected and the branch is connected.  The budgets of the branch loops are never exhausted.
-/

namespace DomProtocol

open Lib
open Good (ForkAt WithinPolicy)

variable {X : Externals}
variable {S : ChainState} {chain : List (Hash256 × BlockHeader)}

/-! ## Blocks of stored headers -/

/-- The stored body of a header is a block. -/
structure BlockAt (X : Externals) (S : ChainState) (x : Hash256 × BlockHeader) (hb : Hash256 × Block) : Prop where
  hash : hb.1 = x.1
  header : hb.2.header = x.2
  body : S.store.blockBodies[x.1]? = some (.block hb.2)
  shape : BlockShape hb.2
  valid : validateBlockForNetwork X hb.2 ⟨x.2.height.toNat, S.chainId X⟩ S.networkMagic = .ok ()

/-- The blocks of a list of stored headers, in order. -/
abbrev BlocksOf (X : Externals) (S : ChainState) (l : List (Hash256 × BlockHeader))
    (blocks : List (Hash256 × Block)) : Prop := List.Forall₂ (BlockAt X S) l blocks

def asBody (hb : Hash256 × Block) : Hash256 × BlockBody := (hb.1, .block hb.2)

variable {blocks : List (Hash256 × Block)} {l : List (Hash256 × BlockHeader)}

theorem BlocksOf.bodiesOf_eq (h : BlocksOf X S l blocks) :
    bodiesOf S.store l = blocks.map asBody := by
  induction h with
  | nil => rfl
  | cons hx _ ih =>
    rw [List.map_cons, ← ih, bodiesOf, List.filterMap_cons, hx.body]
    simp [asBody, hx.hash, bodiesOf]

theorem BlocksOf.exists_at (h : BlocksOf X S l blocks) :
    ∀ hb ∈ blocks, ∃ x ∈ l, BlockAt X S x hb :=
  fun _ => exists_of_forall₂ (R := flip (BlockAt X S)) h.flip

theorem BlocksOf.shape (h : BlocksOf X S l blocks) : ∀ hb ∈ blocks, BlockShape hb.2 := by
  intro hb hmem
  obtain ⟨x, -, hx⟩ := h.exists_at hb hmem
  exact hx.shape

variable {x : Hash256 × BlockHeader}

theorem Good.exists_blockAt (hG : Good X S chain)
    (hsto : S.store.blocks[x.1]? = some x.2) (hht : x.2.height.toNat ≠ 0) :
    ∃ hb, BlockAt X S x hb := by
  obtain ⟨body, hbody, hof⟩ := hG.storeOk.body hsto
  cases body with
  | identityEnvelope => exact absurd hof.1 hht
  | block b => exact ⟨(x.1, b), rfl, hof.1, hbody, hof.2.1, hof.2.2 hht⟩

theorem Good.exists_blocksOf (hG : Good X S chain)
    (hl : ∀ x ∈ l, S.store.blocks[x.1]? = some x.2 ∧ x.2.height.toNat ≠ 0) :
    ∃ blocks, BlocksOf X S l blocks :=
  exists_forall₂ fun x hx => hG.exists_blockAt (hl x hx).1 (hl x hx).2

/-! ## The branch loops -/

variable {budget : Nat}

section Branch

variable {t a : Hash256} {na : BlockHeader}

theorem Good.path_ne (hG : Good X S chain) (hdown : Descends S.store t a l)
    (ha : S.store.blocks[a]? = some na) (hx : x ∈ l) : x.1 ≠ a := by
  rintro rfl
  have hlt := hdown.height_lt_of_mem hG.storeOk.ranked ha hx
  obtain rfl := Option.some.inj (ha.symm.trans (hdown.lookup_of_mem hx))
  exact Nat.lt_irrefl _ hlt

theorem Descends.height_ne_zero (hdown : Descends S.store t a l) (hx : x ∈ l) :
    x.2.height.toNat ≠ 0 := by
  induction hdown with
  | refl a => cases hx
  | step _ hpar _ ih =>
    rcases List.mem_cons.mp hx with rfl | hx
    · exact (parentOf_eq_some.mp hpar).1
    · exact ih hx

theorem Good.validateBranchHeaderSyntax_ok (hG : Good X S chain) (hdown : Descends S.store t a l)
    (ha : S.store.blocks[a]? = some na) (hbgt : l.length ≤ budget) :
    validateBranchHeaderSyntax S.store a S.networkMagic budget t = .ok () := by
  induction hdown generalizing budget with
  | refl a => cases budget <;> simp [validateBranchHeaderSyntax]
  | @step t p a n l hlk hpar htail ih =>
    obtain ⟨budget, rfl⟩ := Nat.exists_eq_add_one.mpr (Nat.zero_lt_of_lt hbgt)
    have hne := hG.path_ne (.step hlk hpar htail) ha List.mem_cons_self
    have hsto : S.store.blocks[t]? = some n := hlk
    have hwf := hG.storeOk.headerSyntax hsto
    obtain ⟨-, rfl⟩ := parentOf_eq_some.mp hpar
    have hlen : l.length ≤ budget := Nat.le_of_succ_le_succ hbgt
    rw [validateBranchHeaderSyntax, if_neg hne]
    simp only [hsto, okOr, ok_bind, hwf, Except.mapError]
    exact ih ha hlen

/-- **The blocks of a branch are collected in order, tip first.** -/
theorem Good.collectBranchBlocks_eq (hG : Good X S chain) (hdown : Descends S.store t a l)
    (ha : S.store.blocks[a]? = some na) {blocks : List (Hash256 × Block)} (hblks : BlocksOf X S l blocks) (hbgt : l.length ≤ budget) :
    collectBranchBlocks X S.store a budget t = .ok blocks := by
  induction hdown generalizing budget blocks with
  | refl a =>
    cases hblks
    cases budget <;> simp [collectBranchBlocks]
  | @step t p a n l hlk hpar htail ih =>
    obtain ⟨budget, rfl⟩ := Nat.exists_eq_add_one.mpr (Nat.zero_lt_of_lt hbgt)
    have hne := hG.path_ne (.step hlk hpar htail) ha List.mem_cons_self
    have hsto : S.store.blocks[t]? = some n := hlk
    have hlen : l.length ≤ budget := Nat.le_of_succ_le_succ hbgt
    cases hblks with
    | @cons _ hb _ rest hx hrest =>
      obtain ⟨hht, rfl⟩ := parentOf_eq_some.mp hpar
      have hhash := computeBlockIdentifier_above_genesis X (hG.storeOk.ident hsto) hht
      have hbody := hx.body
      have hhr := hx.header
      have hfst : hb.1 = t := hx.hash
      rw [collectBranchBlocks, if_neg hne]
      simp only [hbody, okOr, ok_bind, BlockBody.decodeBlock, Except.mapError, hhr, ih ha hrest hlen]
      rw [hhash, ← hfst]
      rfl

end Branch

/-! ## The two sides of a fork -/

/-- The canonical blocks up to and including a canonical block. -/
def upTo (chain : List (Hash256 × BlockHeader)) (a : Hash256 × BlockHeader) : List (Hash256 × BlockHeader) :=
  chain.take (a.2.height.toNat + 1)

/-- The canonical blocks above a canonical block. -/
def above (chain : List (Hash256 × BlockHeader)) (a : Hash256 × BlockHeader) : List (Hash256 × BlockHeader) :=
  chain.drop (a.2.height.toNat + 1)

theorem upTo_append_above (chain : List (Hash256 × BlockHeader)) (a : Hash256 × BlockHeader) :
    upTo chain a ++ above chain a = chain := List.take_append_drop _ _

namespace Good

variable {a : Hash256 × BlockHeader}

theorem cons_above (hG : Good X S chain) (ha : a ∈ chain) :
    a :: above chain a = chain.drop a.2.height.toNat := by
  have hget := hG.getElem_height ha
  obtain ⟨hlt, heq⟩ := List.getElem?_eq_some_iff.mp hget
  rw [List.drop_eq_getElem_cons hlt, heq]
  rfl

theorem length_above (hG : Good X S chain) (ha : a ∈ chain) :
    (above chain a).length = S.tipHeight - a.2.height.toNat := by
  have hle := hG.height_le_tip ha
  rw [above, List.length_drop, hG.length_chain]
  omega

theorem length_upTo (hG : Good X S chain) (ha : a ∈ chain) :
    (upTo chain a).length = a.2.height.toNat + 1 := by
  have hle := hG.height_le_tip ha
  rw [upTo, List.length_take, hG.length_chain]
  omega

theorem descends_tip (hG : Good X S chain) (ha : a ∈ chain) :
    Descends S.store S.tipHash a.1 (above chain a).reverse := by
  have hcons := hG.cons_above ha
  have hch : Ascending parentOf (a :: above chain a) := by
    rw [hcons]
    exact List.IsChain.drop hG.canonical.ascending _
  refine Down.of_ascending hch ?_ ?_
  · intro y hy
    exact hG.canonical.stored y (List.mem_of_mem_drop hy)
  · obtain ⟨x, hlast, htip, -⟩ := hG.canonical.tip
    have hlt := (List.getElem?_eq_some_iff.mp (hG.getElem_height ha)).1
    rw [hcons, List.getLast?_drop, if_neg (by omega), hlast]
    exact congrArg some htip

theorem exists_blocksOf_above (hG : Good X S chain) (ha : a ∈ chain) :
    ∃ blocks, BlocksOf X S (above chain a) blocks := by
  refine hG.exists_blocksOf fun x hx => ⟨hG.canonical.stored x (List.mem_of_mem_drop hx), ?_⟩
  exact (hG.descends_tip ha).height_ne_zero (List.mem_reverse.mpr hx)

theorem length_le_blocks {t b : Hash256} (hG : Good X S chain)
    (hdown : Descends S.store t b l) :
    l.length ≤ S.store.blocks.size ∧ l.length ≤ S.store.blockBodies.size := by
  have hnd := hdown.nodup hG.storeOk.ranked
  have hsto : ∀ h ∈ l.map Prod.fst, ∃ header, S.store.blocks[h]? = some header := by
    intro h hh
    obtain ⟨x, hx, rfl⟩ := List.mem_map.mp hh
    exact ⟨x.2, hdown.lookup_of_mem hx⟩
  rw [← List.length_map (f := Prod.fst)]
  constructor
  · refine length_le_size hnd fun h hh => ?_
    obtain ⟨header, hhr⟩ := hsto h hh
    simp [hhr]
  · refine length_le_size hnd fun h hh => ?_
    obtain ⟨header, hhr⟩ := hsto h hh
    obtain ⟨body, hbody, -⟩ := hG.storeOk.body hhr
    simp [hbody]

theorem ancestorHeightOf_eq (hG : Good X S chain) (ha : a ∈ chain) :
    S.ancestorHeightOf a.1 = .ok a.2.height.toNat := by
  unfold ChainState.ancestorHeightOf
  by_cases htip : a.1 = S.tipHash
  · obtain ⟨header, hget, -⟩ := hG.getElem_tip
    obtain rfl := hG.eq_of_hash_eq ha (List.mem_of_getElem? hget) htip
    rw [if_pos rfl, hG.height_getElem hget]
  · rw [if_neg htip]
    simp only [hG.canonical.stored a ha, okOr, ok_bind]
    rfl

end Good

/-! ## The plan -/

/-- A promotion of the stored block `t` that passes every check before the overlays: it forks at `a` and its
    branch `l` is connected in place of the canonical blocks above `a`. -/
structure Planned (X : Externals) (S : ChainState) (chain : List (Hash256 × BlockHeader)) (t : Hash256)
    (now : UInt64) (header : BlockHeader) (a : Hash256 × BlockHeader) (l : List (Hash256 × BlockHeader))
    (disc conn : List (Hash256 × Block)) : Prop where
  tipNonzero : S.tipHash ≠ Hash256.zero
  nonzero : t ≠ Hash256.zero
  stored : S.store.blocks[t]? = some header
  fork : ForkAt S chain t a l
  policy : WithinPolicy S a l
  better : isBetterForkChoiceTip header.totalDifficulty t S.tipDifficulty S.tipHash
  finality : ¬ (S.tipHeight ≥ maxReorgDepth ∧ S.tipHeight - a.2.height.toNat ≥ maxReorgDepth)
  disconnect : BlocksOf X S (above chain a) disc
  connect : BlocksOf X S l.reverse conn
  candidates : ∀ hb ∈ conn, S.validateReorgCandidate X now hb = .ok ()

/-- **What a plan is.** -/
theorem Good.planReorg_iff (hG : Good X S chain) {t : Hash256} {now : UInt64} {plan : ChainState.ReorgPlan} :
    S.planReorg X t now = .ok plan ↔ ∃ header a l disc conn, Planned X S chain t now header a l disc conn ∧
      plan = ⟨header, a.2.height.toNat, disc.reverse, conn⟩ := by
  simp only [ChainState.planReorg, checkRollingFinality, checkReorgDepth, inversion, forM_eq_ok, not_not, ne_eq,
    Option.filter_eq_some_iff, decide_eq_true_eq]
  constructor
  · rintro ⟨header, hsto, r, hfind, ancestor, ⟨rfl, hnz⟩, ancestorHeight, hht, -, hbet, -,
      hfinality, -, disconnect, hdisconnect, -, connect, hconnect, hcandidates, rfl⟩
    obtain ⟨htip, ht⟩ := ne_zero_of_ancestor hfind hnz
    obtain ⟨a, l, hf⟩ := hG.exists_fork hsto
    rw [hG.findCommonAncestor_eq htip hf hsto ht, Except.ok.injEq] at hfind
    by_cases hpol : WithinPolicy S a l
    · rw [if_pos hpol, Option.some.injEq] at hfind
      subst hfind
      rw [hG.ancestorHeightOf_eq hf.mem, Except.ok.injEq] at hht
      subst hht
      have hanc := hG.canonical.stored a hf.mem
      obtain ⟨disc, hdisc⟩ := hG.exists_blocksOf_above hf.mem
      obtain ⟨conn, hconn⟩ := hG.exists_blocksOf (l := l) fun x hx =>
        ⟨hf.down.lookup_of_mem hx, Descends.height_ne_zero hf.down hx⟩
      have hpath := hG.descends_tip hf.mem
      rw [hG.collectBranchBlocks_eq hpath hanc (List.rel_reverse hdisc) (hG.length_le_blocks hpath).2,
        Except.ok.injEq] at hdisconnect
      rw [hG.collectBranchBlocks_eq hf.down hanc hconn (hG.length_le_blocks hf.down).2,
        Except.ok.injEq] at hconnect
      subst hdisconnect hconnect
      exact ⟨header, a, l, disc, conn.reverse, ⟨htip, ht, hsto, hf, hpol, hbet, hfinality, hdisc,
        List.rel_reverse hconn, hcandidates⟩, rfl⟩
    · rw [if_neg hpol] at hfind
      cases hfind
  · rintro ⟨header, a, l, disc, conn, hP, rfl⟩
    have hanc := hG.canonical.stored a hP.fork.mem
    have hpath := hG.descends_tip hP.fork.mem
    have hlen := hG.length_above hP.fork.mem
    have hle := hG.height_le_tip hP.fork.mem
    refine ⟨header, hP.stored, _, hG.findCommonAncestor_eq hP.tipNonzero hP.fork hP.stored hP.nonzero, a.1,
      ⟨if_pos hP.policy, ?_⟩, _, hG.ancestorHeightOf_eq hP.fork.mem,
      hG.validateBranchHeaderSyntax_ok hP.fork.down hanc (hG.length_le_blocks hP.fork.down).1, hP.better, ?_,
      hP.finality, ?_, disc.reverse,
      hG.collectBranchBlocks_eq hpath hanc (List.rel_reverse hP.disconnect) (hG.length_le_blocks hpath).2, ?_,
      conn.reverse, ?_, ?_, ?_⟩
    · exact hG.hash_ne_zero_of_tip hP.tipNonzero hP.fork.mem
    · omega
    · have := hP.policy.1
      omega
    · rw [List.length_reverse, ← hP.disconnect.length_eq, hlen]
    · have hconn := List.rel_reverse hP.connect
      rw [List.reverse_reverse] at hconn
      exact hG.collectBranchBlocks_eq hP.fork.down hanc hconn (hG.length_le_blocks hP.fork.down).2
    · rw [List.reverse_reverse]
      exact hP.candidates
    · rw [List.reverse_reverse]

end DomProtocol
