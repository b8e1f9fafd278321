import DomProtocol.Chain.Invariant

/-!
# `Chain.Fork` — fork points, as the two ancestor walks find them

In a chain that satisfies the invariant every stored block has one fork point: its first canonical ancestor.
`findCommonAncestor` walks a bounded number of blocks on each side.  Its result is the fork point exactly when that
lies within the bound on both sides; the zero hash, which marks the end of a chain, can only interfere when it is
itself the hash of the tip.
-/

namespace DomProtocol

open Lib

variable {X : Externals}
variable {S : ChainState} {chain : List (Hash256 × BlockHeader)} {y : Hash256 × BlockHeader} {p : Hash256}

namespace Good

/-! ## Positions on the canonical chain -/

variable {k : Nat} {x : Hash256 × BlockHeader}

variable (hG : Good X S chain)
include hG

theorem height_getElem (hx : chain[k]? = some x) : x.2.height.toNat = k :=
  height_of_ascending X hG.storeOk hG.canonical.ascending hG.canonical.stored hG.canonical.genesis hx

theorem length_chain : chain.length = S.tipHeight + 1 := by
  obtain ⟨x, hlast, -, hht, -⟩ := hG.canonical.tip
  rw [List.getLast?_eq_getElem?] at hlast
  have hpos : chain.length - 1 < chain.length := (List.getElem?_eq_some_iff.mp hlast).1
  have := hG.height_getElem hlast
  omega

theorem getElem_tip :
    ∃ header, chain[S.tipHeight]? = some (S.tipHash, header) ∧ S.store.blocks[S.tipHash]? = some header ∧
      header.totalDifficulty = S.tipDifficulty := by
  obtain ⟨⟨hash, header⟩, hlast, rfl, -, hwork⟩ := hG.canonical.tip
  have hsto := hG.canonical.stored _ (List.mem_of_getLast? hlast)
  rw [List.getLast?_eq_getElem?, hG.length_chain, Nat.add_sub_cancel] at hlast
  exact ⟨header, hlast, hsto, hwork⟩

theorem canonicalChain_eq : S.canonicalChain = chain := by
  have hmap : chain.map some = (List.range chain.length).map fun k => chain[k]? := by
    refine List.ext_getElem (by simp) fun k h _ => ?_
    rw [List.length_map] at h
    simp [List.getElem?_eq_getElem h]
  have hread : S.canonicalChain = (List.range chain.length).filterMap fun k => chain[k]? := by
    rw [ChainState.canonicalChain, hG.length_chain]
    refine List.filterMap_congr fun k _ => ?_
    rw [hG.canonical.index]
    cases hk : chain[k]? with
    | none => rfl
    | some x => simp [hG.canonical.stored x (List.mem_of_getElem? hk)]
  calc S.canonicalChain = ((List.range chain.length).map fun k => chain[k]?).filterMap id := by
        rw [hread, List.filterMap_map]
        rfl
    _ = (chain.map some).filterMap id := by rw [hmap]
    _ = chain := by simp

theorem getElem_height (hx : x ∈ chain) : chain[x.2.height.toNat]? = some x := by
  obtain ⟨k, hk⟩ := List.mem_iff_getElem?.mp hx
  rwa [hG.height_getElem hk]

theorem height_le_tip (hx : x ∈ chain) : x.2.height.toNat ≤ S.tipHeight := by
  have := (List.getElem?_eq_some_iff.mp (hG.getElem_height hx)).1
  rw [hG.length_chain] at this
  omega

theorem parentOf_getElem (hx : chain[k]? = some x)
    (hy : chain[k + 1]? = some y) : parentOf y.2 = some x.1 := by
  obtain ⟨hlt, rfl⟩ := List.getElem?_eq_some_iff.mp hy
  obtain ⟨hlt', rfl⟩ := List.getElem?_eq_some_iff.mp hx
  exact List.isChain_iff_getElem.mp hG.canonical.ascending k hlt

theorem parent_mem (hx : x ∈ chain) (hp : parentOf x.2 = some p) : p ∈ chain.map Prod.fst := by
  have hget := hG.getElem_height hx
  have hne := (parentOf_eq_some.mp hp).1
  obtain ⟨k, hk⟩ := Nat.exists_eq_succ_of_ne_zero hne
  rw [hk] at hget
  have hlt : k < chain.length := by
    have := (List.getElem?_eq_some_iff.mp hget).1
    omega
  have hprev := hG.parentOf_getElem (List.getElem?_eq_getElem hlt) hget
  rw [hp, Option.some.injEq] at hprev
  rw [hprev]
  exact List.mem_map_of_mem (List.getElem_mem hlt)

variable {h : Hash256} {header : BlockHeader}

theorem parent_ne_zero (hsto : S.store.blocks[h]? = some header)
    (hp : parentOf header = some p) : p ≠ Hash256.zero := by
  obtain ⟨hne, rfl⟩ := parentOf_eq_some.mp hp
  exact (validateHeaderSyntax_links (hG.storeOk.headerSyntax hsto)).2 hne

theorem hash_ne_zero (hx : x ∈ chain) (hbel : x.2.height.toNat < S.tipHeight) : x.1 ≠ Hash256.zero := by
  have hlt : x.2.height.toNat + 1 < chain.length := by
    rw [hG.length_chain]
    omega
  have hchild : chain[x.2.height.toNat + 1]? = some chain[x.2.height.toNat + 1] :=
    List.getElem?_eq_getElem hlt
  exact hG.parent_ne_zero (hG.canonical.stored _ (List.getElem_mem hlt))
    (hG.parentOf_getElem (hG.getElem_height hx) hchild)

theorem hash_ne_zero_of_tip (htip : S.tipHash ≠ Hash256.zero) (hx : x ∈ chain) : x.1 ≠ Hash256.zero := by
  rcases Nat.lt_or_ge x.2.height.toNat S.tipHeight with hlt | hge
  · exact hG.hash_ne_zero hx hlt
  · have heq : x.2.height.toNat = S.tipHeight := Nat.le_antisymm (hG.height_le_tip hx) hge
    have hget := hG.getElem_height hx
    obtain ⟨header, htipGet, -⟩ := hG.getElem_tip
    rw [heq, htipGet, Option.some.injEq] at hget
    rwa [← hget]

/-! ## Fork points -/

/-- The fork point of a stored block: its first canonical ancestor, and the side blocks above it. -/
structure ForkAt (S : ChainState) (chain : List (Hash256 × BlockHeader)) (h : Hash256)
    (a : Hash256 × BlockHeader) (l : List (Hash256 × BlockHeader)) : Prop where
  down : Descends S.store h a.1 l
  mem : a ∈ chain
  side : ∀ x ∈ l, x.1 ∉ chain.map Prod.fst

theorem exists_fork (hsto : S.store.blocks[h]? = some header) : ∃ a l, ForkAt S chain h a l := by
  have hroot : ∀ t n, S.store.blocks[t]? = some n → parentOf n = none → t ∈ chain.map Prod.fst := by
    intro t n ht hn
    have hmem := hG.canonical.root ht (parentOf_eq_none.mp hn)
    exact List.mem_map.mpr ⟨(t, n), List.mem_of_head? hmem, rfl⟩
  obtain ⟨a, l, hdown, ha, hside⟩ :=
    Down.exists_first (C := (· ∈ chain.map Prod.fst)) hG.storeOk.ranked hroot hsto
  obtain ⟨x, hx, rfl⟩ := List.mem_map.mp ha
  exact ⟨x, l, hdown, hx, hside⟩

theorem eq_of_hash_eq (hx : x ∈ chain) (hy : y ∈ chain) (h : x.1 = y.1) : x = y := by
  have hsto := hG.canonical.stored x hx
  rw [h, hG.canonical.stored y hy, Option.some.injEq] at hsto
  exact Prod.ext h hsto.symm

variable {a : Hash256 × BlockHeader} {l : List (Hash256 × BlockHeader)}

theorem fork_unique {a' : Hash256 × BlockHeader} {l' : List (Hash256 × BlockHeader)}
    (hf : ForkAt S chain h a l) (hf' : ForkAt S chain h a' l') : a = a' ∧ l = l' := by
  obtain ⟨heq, hl⟩ := Down.unique_of_first (C := (· ∈ chain.map Prod.fst)) hf.down hf'.down
    (List.mem_map_of_mem hf.mem) (List.mem_map_of_mem hf'.mem) hf.side hf'.side
  exact ⟨hG.eq_of_hash_eq hf.mem hf'.mem heq, hl⟩

theorem fork_height (hf : ForkAt S chain h a l) (hsto : S.store.blocks[h]? = some header) :
    header.height.toNat = a.2.height.toNat + l.length :=
  hf.down.height_eq hG.storeOk.ranked hsto (hG.canonical.stored a hf.mem)

theorem side_ne_zero {a : Hash256} (hdown : Descends S.store h a l) (hne : h ≠ Hash256.zero) :
    ∀ x ∈ l, x.1 ≠ Hash256.zero :=
  Down.mem_of_closed (C := (· ≠ Hash256.zero)) (fun _ _ _ _ => hG.parent_ne_zero) hdown hne

theorem end_ne_zero {a : Hash256} (hdown : Descends S.store h a l) (hne : h ≠ Hash256.zero) : a ≠ Hash256.zero := by
  induction hdown with
  | refl a => exact hne
  | step hlk hpar _ ih => exact ih (hG.parent_ne_zero hlk hpar)

/-! ## The two walks -/

/-- Our walk collects the canonical hashes within its bound, and the zero hash if it gets to genesis. -/
theorem ourWalk_canonical (steps : Nat) (hx : chain[k]? = some x) (hzero : x.1 ≠ Hash256.zero) :
    ∃ ours, ourWalk S.store steps x.1 = .ok ours ∧ ∀ y, y ∈ ours ↔
      (∃ j z, chain[j]? = some z ∧ j ≤ k ∧ k - j < steps ∧ z.1 = y) ∨ (y = Hash256.zero ∧ k < steps) := by
  induction steps generalizing k x with
  | zero => exact ⟨[], rfl, by simp⟩
  | succ steps ih =>
    have hmem := List.mem_of_getElem? hx
    have hsto := hG.canonical.stored x hmem
    have hlinks := validateHeaderSyntax_links (hG.storeOk.headerSyntax hsto)
    have hht := hG.height_getElem hx
    cases k with
    | zero =>
      refine ⟨[x.1, Hash256.zero], ?_, ?_⟩
      · simp [ourWalk, hzero, hsto, hlinks.1 hht, okOr]
      · intro y
        simp only [List.mem_cons, List.not_mem_nil, or_false, Nat.le_zero]
        constructor
        · rintro (rfl | rfl)
          · exact .inl ⟨0, x, hx, rfl, by omega, rfl⟩
          · exact .inr ⟨rfl, by omega⟩
        · rintro (⟨j, z, hz, rfl, -, rfl⟩ | ⟨rfl, -⟩)
          · rw [hx, Option.some.injEq] at hz
            exact .inl (by rw [hz])
          · exact .inr rfl
    | succ k =>
      have hlt : k < chain.length := by
        have := (List.getElem?_eq_some_iff.mp hx).1
        omega
      have hprev := List.getElem?_eq_getElem hlt
      have hpar := hG.parentOf_getElem hprev hx
      obtain ⟨hne, hprevHash⟩ := parentOf_eq_some.mp hpar
      have hnz := hlinks.2 hne
      obtain ⟨ours, hwalk, hours⟩ := ih hprev (hprevHash ▸ hnz)
      refine ⟨x.1 :: ours, ?_, ?_⟩
      · rw [← hprevHash] at hwalk
        simp [ourWalk, hzero, hsto, hnz, okOr, hwalk]
      · intro y
        rw [List.mem_cons, hours]
        constructor
        · rintro (rfl | ⟨j, z, hz, hj, hbd, rfl⟩ | ⟨rfl, hbd⟩)
          · exact .inl ⟨k + 1, x, hx, Nat.le_refl _, by omega, rfl⟩
          · exact .inl ⟨j, z, hz, by omega, by omega, rfl⟩
          · exact .inr ⟨rfl, by omega⟩
        · rintro (⟨j, z, hz, hj, hbd, rfl⟩ | ⟨rfl, hbd⟩)
          · rcases Nat.lt_or_ge k j with hlt' | hge
            · obtain rfl : j = k + 1 := by omega
              rw [hx, Option.some.injEq] at hz
              exact .inl (by rw [hz])
            · exact .inr (.inl ⟨j, z, hz, hge, by omega, rfl⟩)
          · exact .inr (.inr ⟨rfl, by omega⟩)

omit hG

variable {s : DomStore} {ours : List Hash256} {t : Hash256} {steps : Nat}

theorem theirWalk_of_down {a : Hash256} (hdown : Descends s t a l) (ha : a ∈ ours)
    (hl : ∀ x ∈ l, x.1 ∉ ours ∧ x.1 ≠ Hash256.zero) (hsts : l.length < steps) :
    theirWalk s ours steps t = some a := by
  induction hdown generalizing steps with
  | refl a =>
    obtain ⟨steps, rfl⟩ := Nat.exists_eq_add_of_lt hsts
    simp [theirWalk, ha]
  | @step t p a n l hlk hpar _ ih =>
    obtain ⟨steps, rfl⟩ : ∃ k, steps = k + 1 := ⟨steps - 1, by omega⟩
    obtain ⟨hnot, hne⟩ := hl _ List.mem_cons_self
    obtain ⟨-, rfl⟩ := parentOf_eq_some.mp hpar
    have hlen : l.length < steps := by rw [List.length_cons] at hsts; omega
    have htail := ih ha (fun x hx => hl x (List.mem_cons_of_mem _ hx)) hlen
    simp only [theirWalk, if_neg hnot, if_neg hne]
    rw [show s.blocks[t]? = some n from hlk]
    exact htail

variable {c : Hash256}

theorem theirWalk_mem (h : theirWalk s ours steps t = some c) : c ∈ ours := by
  induction steps generalizing t with
  | zero => simp [theirWalk] at h
  | succ steps ih =>
    rw [theirWalk] at h
    by_cases hmem : t ∈ ours
    · rw [if_pos hmem, Option.some.injEq] at h
      exact h ▸ hmem
    · rw [if_neg hmem] at h
      by_cases hzero : t = Hash256.zero
      · rw [if_pos hzero] at h
        cases h
      · rw [if_neg hzero] at h
        cases hsto : s.blocks[t]? with
        | none => simp [hsto] at h
        | some header =>
          rw [hsto] at h
          exact ih h

/-- Where their walk stops it has followed a path off our side, or it ran past a root to the zero hash. -/
theorem theirWalk_sound {networkMagic : UInt32} {chainId : Hash256} (hS : StoreOk X networkMagic chainId s)
    (hsto : s.blocks[t]? = some header) (h : theirWalk s ours steps t = some c) :
    (∃ l, Descends s t c l ∧ (∀ x ∈ l, x.1 ∉ ours) ∧ l.length < steps) ∨
      (c = Hash256.zero ∧ ∃ r l root, Descends s t r l ∧ s.blocks[r]? = some root ∧
        root.height.toNat = 0 ∧ r ∉ ours) := by
  induction steps generalizing t header with
  | zero => simp [theirWalk] at h
  | succ steps ih =>
    rw [theirWalk] at h
    by_cases hmem : t ∈ ours
    · rw [if_pos hmem, Option.some.injEq] at h
      subst h
      exact .inl ⟨[], .refl t, by simp, Nat.succ_pos _⟩
    · rw [if_neg hmem] at h
      by_cases hzero : t = Hash256.zero
      · rw [if_pos hzero] at h
        cases h
      · rw [if_neg hzero, hsto] at h
        cases hparent : parentOf header with
        | none =>
          -- a root: the next hash is the zero hash, where the walk stops either way
          have hht := parentOf_eq_none.mp hparent
          have hprev := (validateHeaderSyntax_links (hS.headerSyntax hsto)).1 hht
          simp only [hprev] at h
          cases steps with
          | zero => simp [theirWalk] at h
          | succ steps =>
            by_cases hz : Hash256.zero ∈ ours
            · rw [theirWalk, if_pos hz, Option.some.injEq] at h
              subst h
              exact .inr ⟨rfl, t, [], header, .refl t, hsto, hht, hmem⟩
            · rw [theirWalk, if_neg hz, if_pos rfl] at h
              cases h
        | some p =>
          obtain ⟨-, rfl⟩ := parentOf_eq_some.mp hparent
          obtain ⟨parent, hpar, -⟩ := hS.parent hsto hparent
          rcases ih hpar h with ⟨l, hdown, hl, hlen⟩ | ⟨rfl, r, l, root, hdown, hroot⟩
          · exact .inl ⟨(t, header) :: l, .step hsto hparent hdown, List.forall_mem_cons.mpr ⟨hmem, hl⟩,
              Nat.succ_lt_succ hlen⟩
          · exact .inr ⟨rfl, r, (t, header) :: l, root, .step hsto hparent hdown, hroot⟩

/-! ## The common ancestor -/

theorem ourWalk_tip (hG : Good X S chain) (htip : S.tipHash ≠ Hash256.zero) (steps : Nat) :
    ∃ ours, ourWalk S.store steps S.tipHash = .ok ours ∧ ∀ y, y ∈ ours ↔
      (∃ z ∈ chain, S.tipHeight - z.2.height.toNat < steps ∧ z.1 = y) ∨ (y = Hash256.zero ∧ S.tipHeight < steps) := by
  obtain ⟨header, hget, -⟩ := hG.getElem_tip
  obtain ⟨ours, hwalk, hours⟩ := hG.ourWalk_canonical steps hget htip
  refine ⟨ours, hwalk, fun y => (hours y).trans (or_congr_left ?_)⟩
  constructor
  · rintro ⟨j, z, hz, -, hbd, rfl⟩
    exact ⟨z, List.mem_of_getElem? hz, by rwa [hG.height_getElem hz], rfl⟩
  · rintro ⟨z, hz, hbd, rfl⟩
    exact ⟨z.2.height.toNat, z, hG.getElem_height hz, hG.height_le_tip hz, hbd, rfl⟩

theorem ourWalk_zero (store : DomStore) (steps : Nat) :
    ourWalk store (steps + 1) Hash256.zero = .ok [Hash256.zero] := by
  simp [ourWalk]

theorem findCommonAncestor_ok (hG : Good X S chain) (t : Hash256) :
    ∃ r, findCommonAncestor S.store S.tipHash t = .ok r := by
  unfold findCommonAncestor
  by_cases heq : S.tipHash = t
  · exact ⟨_, if_pos heq⟩
  · rw [if_neg heq]
    by_cases htip : S.tipHash = Hash256.zero
    · rw [htip, ourWalk_zero]
      exact ⟨_, rfl⟩
    · obtain ⟨ours, hwalk, -⟩ := hG.ourWalk_tip htip (maxReorgDepthPolicy + 1)
      rw [hwalk]
      exact ⟨_, rfl⟩

/-- The depth policy on both sides of a fork. -/
def WithinPolicy (S : ChainState) (a : Hash256 × BlockHeader) (l : List (Hash256 × BlockHeader)) : Prop :=
  S.tipHeight - a.2.height.toNat ≤ maxReorgDepthPolicy ∧ l.length ≤ maxReorgDepthPolicy

instance (S : ChainState) (a : Hash256 × BlockHeader) (l : List (Hash256 × BlockHeader)) :
    Decidable (WithinPolicy S a l) := inferInstanceAs (Decidable (_ ∧ _))

theorem theirWalk_eq_fork (hG : Good X S chain) (htip : S.tipHash ≠ Hash256.zero)
    (hours : ∀ y, y ∈ ours ↔ (∃ z ∈ chain, S.tipHeight - z.2.height.toNat < steps ∧ z.1 = y) ∨
      (y = Hash256.zero ∧ S.tipHeight < steps)) (hf : ForkAt S chain t a l)
    (hsto : S.store.blocks[t]? = some header) (ht : t ≠ Hash256.zero) {steps' : Nat}
    (hwalk : theirWalk S.store ours steps' t = some c) : c = a.1 ∧ a.1 ∈ ours ∧ l.length < steps' := by
  -- a canonical block on the path at or above a met one is met itself
  have hhigher : ∀ z ∈ chain, z.1 ∈ ours → ∀ y ∈ chain, z.2.height.toNat ≤ y.2.height.toNat →
      y.1 ∈ ours := by
    intro z hz hzo y hy hle
    rw [hours] at hzo ⊢
    rcases hzo with ⟨z', hz', hbd, heq⟩ | ⟨-, hbd⟩
    · obtain rfl := hG.eq_of_hash_eq hz' hz heq
      exact .inl ⟨y, hy, by omega, rfl⟩
    · exact .inl ⟨y, hy, by omega, rfl⟩
  have hc := theirWalk_mem hwalk
  obtain ⟨l', hdown, hl', hlen⟩ | ⟨rfl, r, l', root, hdown, hroot, hht, hr⟩ :=
    theirWalk_sound hG.storeOk hsto hwalk
  · -- the met hash is canonical: the zero hash is neither `t` nor a stored parent
    have hcanon : c ∈ chain.map Prod.fst := by
      rcases (hours c).mp hc with ⟨z, hz, -, rfl⟩ | ⟨rfl, -⟩
      · exact List.mem_map_of_mem hz
      · exact absurd rfl (hG.end_ne_zero hdown ht)
    obtain ⟨b, l₁, l₂, hdown₁, hdown₂, hb, hl₁, rfl⟩ :=
      Down.split_at_first (C := (· ∈ chain.map Prod.fst)) hdown hcanon
    obtain ⟨y, hy, rfl⟩ := List.mem_map.mp hb
    obtain ⟨rfl, rfl⟩ := hG.fork_unique hf ⟨hdown₁, hy, hl₁⟩
    cases hdown₂ with
    | refl _ =>
      rw [List.append_nil] at hlen
      exact ⟨rfl, hc, hlen⟩
    | @step _ _ _ n l₂ hlk hpar htail =>
      obtain ⟨z, hz, rfl⟩ := List.mem_map.mp hcanon
      have hpath : (a.1, n) ∈ l ++ (a.1, n) :: l₂ := by simp
      obtain rfl : n = a.2 := Option.some.inj (hlk.symm.trans (hG.canonical.stored a hy))
      have hlt := hdown.height_lt_of_mem hG.storeOk.ranked (hG.canonical.stored z hz) hpath
      exact absurd (hhigher z hz hc a hy (Nat.le_of_lt hlt)) (hl' _ hpath)
  · -- past the root the whole canonical chain was on our side, the root included
    have hmem := List.mem_of_head? (hG.canonical.root hroot hht)
    refine absurd ?_ hr
    rcases (hours _).mp hc with ⟨z, hz, -, heq⟩ | ⟨-, hbd⟩
    · exact absurd heq (hG.hash_ne_zero_of_tip htip hz)
    · exact (hours r).mpr (.inl ⟨(r, root), hmem, by omega, rfl⟩)

/-- **The ancestor search finds the fork point exactly within the policy.** -/
theorem findCommonAncestor_eq (hG : Good X S chain) (htip : S.tipHash ≠ Hash256.zero) (hf : ForkAt S chain t a l)
    (hsto : S.store.blocks[t]? = some header) (ht : t ≠ Hash256.zero) : findCommonAncestor S.store S.tipHash t =
      .ok (if WithinPolicy S a l then some a.1 else none) := by
  unfold findCommonAncestor
  by_cases heq : S.tipHash = t
  · -- the tip is its own fork point
    obtain ⟨tipHeader, hget, -⟩ := hG.getElem_tip
    have hmem := List.mem_of_getElem? hget
    have htrivial : ForkAt S chain t (S.tipHash, tipHeader) [] := ⟨heq ▸ .refl _, hmem, by simp⟩
    obtain ⟨rfl, rfl⟩ := hG.fork_unique hf htrivial
    have hht := hG.height_getElem hget
    have hpol : WithinPolicy S (S.tipHash, tipHeader) [] := by
      refine ⟨?_, Nat.zero_le _⟩
      rw [hht, Nat.sub_self]
      exact Nat.zero_le _
    rw [if_pos heq, if_pos hpol]
  · obtain ⟨ours, hwalk, hours⟩ := hG.ourWalk_tip htip (maxReorgDepthPolicy + 1)
    rw [if_neg heq, hwalk, ok_bind]
    have hmem : a.1 ∈ ours ↔ S.tipHeight - a.2.height.toNat ≤ maxReorgDepthPolicy := by
      rw [hours]
      constructor
      · rintro (⟨z, hz, hbd, hza⟩ | ⟨hzero, -⟩)
        · obtain rfl := hG.eq_of_hash_eq hz hf.mem hza
          omega
        · exact absurd hzero (hG.hash_ne_zero_of_tip htip hf.mem)
      · intro hle
        exact .inl ⟨a, hf.mem, by omega, rfl⟩
    by_cases hpol : WithinPolicy S a l
    · have hside : ∀ x ∈ l, x.1 ∉ ours ∧ x.1 ≠ Hash256.zero := by
        intro x hx
        have hne := hG.side_ne_zero hf.down ht x hx
        refine ⟨fun hxo => ?_, hne⟩
        rcases (hours _).mp hxo with ⟨z, hz, -, hzx⟩ | ⟨hzero, -⟩
        · exact hf.side x hx (hzx ▸ List.mem_map_of_mem hz)
        · exact hne hzero
      rw [if_pos hpol, theirWalk_of_down hf.down (hmem.mpr hpol.1) hside (Nat.lt_succ_of_le hpol.2)]
      rfl
    · rw [if_neg hpol]
      cases hw : theirWalk S.store ours (maxReorgDepthPolicy + 1) t with
      | none => rfl
      | some c =>
        obtain ⟨rfl, ha, hlen⟩ := hG.theirWalk_eq_fork htip hours hf hsto ht hw
        exact absurd ⟨hmem.mp ha, Nat.le_of_lt_succ hlen⟩ hpol

theorem ne_zero_of_ancestor (h : findCommonAncestor S.store S.tipHash t = .ok (some c)) (hc : c ≠ Hash256.zero) :
    S.tipHash ≠ Hash256.zero ∧ t ≠ Hash256.zero := by
  unfold findCommonAncestor at h
  by_cases heq : S.tipHash = t
  · rw [if_pos heq, Except.ok.injEq, Option.some.injEq] at h
    exact ⟨h ▸ hc, heq ▸ h ▸ hc⟩
  · rw [if_neg heq] at h
    obtain ⟨ours, hwalk, hres⟩ := bind_eq_ok.mp h
    rw [pure_eq_ok] at hres
    constructor
    · rintro hzero
      rw [hzero, ourWalk_zero, Except.ok.injEq] at hwalk
      subst hwalk
      exact hc (List.mem_singleton.mp (theirWalk_mem hres))
    · rintro rfl
      rw [theirWalk] at hres
      by_cases hmem : Hash256.zero ∈ ours
      · rw [if_pos hmem, Option.some.injEq] at hres
        exact hc hres.symm
      · rw [if_neg hmem, if_pos rfl] at hres
        cases hres

end Good

end DomProtocol
