import DomProtocol.Lib.Ancestry
import DomProtocol.Lib.TableDelta
import DomProtocol.Chain.Open

/-!
# `Chain.Invariant` — what holds of the stored blocks and of the canonical chain

`StoreOk` is about stored blocks whatever their branch: links, work, identifiers and bodies.  `Canonical S chain`
says that the height index, the tip and the persisted tip all describe the list `chain`, genesis first.  A block is
a change set on the UTXO map and one on the kernel index; `Ledger` says the UTXO table is the replay of the chain.
-/

namespace DomProtocol

open Lib

/-- The parent link of a header; genesis has none. -/
def parentOf (header : BlockHeader) : Option Hash256 :=
  if header.height.toNat = 0 then none else some header.prevHash

variable {header : BlockHeader}

theorem parentOf_eq_some {p : Hash256} :
    parentOf header = some p ↔ header.height.toNat ≠ 0 ∧ header.prevHash = p := by
  unfold parentOf
  by_cases h : header.height.toNat = 0 <;> simp [h]

theorem parentOf_eq_none : parentOf header = none ↔ header.height.toNat = 0 := by
  unfold parentOf
  by_cases h : header.height.toNat = 0 <;> simp [h]

/-- Following stored parent links from one hash to another. -/
abbrev Descends (s : DomStore) : Hash256 → Hash256 → List (Hash256 × BlockHeader) → Prop :=
  Down (fun h : Hash256 => s.blocks[h]?) parentOf

variable (X : Externals)

/-! ## Stored blocks -/

/-- A stored body belongs to its header: the block with that header, well shaped and, above genesis, validated;
    or the envelope of the mainnet genesis. -/
def BodyOf (networkMagic : UInt32) (chainId : Hash256) (header : BlockHeader) : BlockBody → Prop
  | .block b => b.header = header ∧ BlockShape b ∧
      (header.height.toNat ≠ 0 →
        validateBlockForNetwork X b ⟨header.height.toNat, chainId⟩ networkMagic = .ok ())
  | .identityEnvelope => header.height.toNat = 0 ∧ networkMagic = networkMagicMainnet

structure StoreOk (networkMagic : UInt32) (chainId : Hash256) (s : DomStore) : Prop where
  ranked : Ranked (fun h : Hash256 => s.blocks[h]?) parentOf (·.height.toNat)
  work : ∀ ⦃h p : Hash256⦄ ⦃header parent : BlockHeader⦄, s.blocks[h]? = some header →
    parentOf header = some p → s.blocks[p]? = some parent → parent.totalDifficulty < header.totalDifficulty
  headerSyntax : ∀ ⦃h : Hash256⦄ ⦃header : BlockHeader⦄, s.blocks[h]? = some header →
    validateHeaderSyntax header networkMagic = .ok ()
  ident : ∀ ⦃h : Hash256⦄ ⦃header : BlockHeader⦄, s.blocks[h]? = some header →
    computeBlockIdentifier X networkMagic header = .ok h
  body : ∀ ⦃h : Hash256⦄ ⦃header : BlockHeader⦄, s.blocks[h]? = some header →
    ∃ body, s.blockBodies[h]? = some body ∧ BodyOf X networkMagic chainId header body
  header : ∀ ⦃h : Hash256⦄ ⦃body : BlockBody⦄, s.blockBodies[h]? = some body →
    ∃ header, s.blocks[h]? = some header

variable {networkMagic : UInt32} {s : DomStore} {chainId h : Hash256}

variable {X} in
theorem StoreOk.parent (hS : StoreOk X networkMagic chainId s) {p : Hash256}
    (hsto : s.blocks[h]? = some header) (hp : parentOf header = some p) :
    ∃ parent, s.blocks[p]? = some parent ∧ header.height.toNat = parent.height.toNat + 1 :=
  hS.ranked hsto hp

theorem validateHeaderSyntax_links (h : validateHeaderSyntax header networkMagic = .ok ()) :
    (header.height.toNat = 0 → header.prevHash = Hash256.zero) ∧
      (header.height.toNat ≠ 0 → header.prevHash ≠ Hash256.zero) := by
  simp only [validateHeaderSyntax, inversion, not_and, not_not] at h
  obtain ⟨-, hroot, hlink, -⟩ := h
  exact ⟨hroot, hlink⟩

/-! ## The canonical chain -/

/-- The blocks the height index names, genesis first. -/
def ChainState.canonicalChain (S : ChainState) : List (Hash256 × BlockHeader) :=
  (List.range (S.tipHeight + 1)).filterMap fun k =>
    S.store.heightIndex[k]?.bind fun hash => S.store.blocks[hash]?.map fun header => (hash, header)

/-- The height index, the tip and the persisted tip describe the list `chain`, genesis first. -/
structure Canonical (S : ChainState) (chain : List (Hash256 × BlockHeader)) : Prop where
  index : ∀ k : Nat, S.store.heightIndex[k]? = chain[k]?.map Prod.fst
  stored : ∀ x ∈ chain, S.store.blocks[x.1]? = some x.2
  ascending : Ascending parentOf chain
  genesis : ∀ x, chain.head? = some x → x.2.height.toNat = 0
  tip : ∃ x, chain.getLast? = some x ∧ x.1 = S.tipHash ∧ x.2.height.toNat = S.tipHeight ∧
    x.2.totalDifficulty = S.tipDifficulty
  diskTip : S.store.chainTip = some S.tipHash
  /-- There is no second genesis, not even among side blocks. -/
  root : ∀ ⦃h : Hash256⦄ ⦃header : BlockHeader⦄, S.store.blocks[h]? = some header →
    header.height.toNat = 0 → (h, header) ∈ chain.head?

namespace Canonical

variable {S : ChainState} {chain : List (Hash256 × BlockHeader)}

theorem ne_nil (hC : Canonical S chain) : chain ≠ [] := by
  obtain ⟨x, hx, -⟩ := hC.tip
  intro h
  rw [h] at hx
  cases hx

end Canonical

theorem height_of_ascending (hS : StoreOk X networkMagic chainId s)
    {chain : List (Hash256 × BlockHeader)} (hch : Ascending parentOf chain)
    (hsto : ∀ x ∈ chain, s.blocks[x.1]? = some x.2) (hgen : ∀ x, chain.head? = some x → x.2.height.toNat = 0)
    {k : Nat} {x : Hash256 × BlockHeader} (hx : chain[k]? = some x) : x.2.height.toNat = k := by
  induction k generalizing x with
  | zero =>
    rw [← List.head?_eq_getElem?] at hx
    exact hgen x hx
  | succ k ih =>
    have hlt : k < chain.length := by
      have := (List.getElem?_eq_some_iff.mp hx).1
      omega
    have hprev : chain[k]? = some chain[k] := List.getElem?_eq_getElem hlt
    have hlink : parentOf x.2 = some chain[k].1 := by
      have hlt' : k + 1 < chain.length := (List.getElem?_eq_some_iff.mp hx).1
      have hget := (List.getElem?_eq_some_iff.mp hx).2
      have := List.isChain_iff_getElem.mp hch k hlt'
      rwa [hget] at this
    have hpar := hsto _ (List.getElem_mem hlt)
    obtain ⟨m, hm, hht⟩ := hS.parent (hsto _ (List.mem_of_getElem? hx)) hlink
    obtain rfl := Option.some.inj (hm.symm.trans hpar)
    rw [hht, ih hprev]

/-! ## The ledger -/

/-- The change of the UTXO map a stored body stands for. -/
def utxoDelta : BlockBody → Delta Commitment UtxoEntry
  | .block b => ⟨b.inputs, b.utxoEntries⟩
  | .identityEnvelope => ⟨[], []⟩

/-- The change of the kernel index a stored body stands for. -/
def kernelDelta (hash : Hash256) : BlockBody → Delta Commitment Hash256
  | .block b => ⟨[], b.extractKernelExcesses hash⟩
  | .identityEnvelope => ⟨[], []⟩

/-- The bodies of a list of stored blocks. -/
def bodiesOf (s : DomStore) (chain : List (Hash256 × BlockHeader)) : List (Hash256 × BlockBody) :=
  chain.filterMap fun x => s.blockBodies[x.1]?.map fun body => (x.1, body)

theorem bodiesOf_congr {s' : DomStore} {chain : List (Hash256 × BlockHeader)}
    (h : ∀ x ∈ chain, s'.blockBodies[x.1]? = s.blockBodies[x.1]?) : bodiesOf s' chain = bodiesOf s chain := by
  unfold bodiesOf
  refine List.filterMap_congr fun x hx => ?_
  rw [h x hx]

theorem bodiesOf_append (s : DomStore) (chain chain' : List (Hash256 × BlockHeader)) :
    bodiesOf s (chain ++ chain') = bodiesOf s chain ++ bodiesOf s chain' := List.filterMap_append

variable {l : List (Hash256 × BlockHeader)}

theorem mem_bodiesOf {body : BlockBody} :
    (h, body) ∈ bodiesOf s l ↔ h ∈ l.map Prod.fst ∧ s.blockBodies[h]? = some body := by
  simp only [bodiesOf, List.mem_filterMap, Option.map_eq_some_iff, Prod.mk.injEq, List.mem_map]
  constructor
  · rintro ⟨x, hx, b, hb, rfl, rfl⟩
    exact ⟨⟨x, hx, rfl⟩, hb⟩
  · rintro ⟨⟨x, hx, rfl⟩, hb⟩
    exact ⟨x, hx, body, hb, rfl, rfl⟩

theorem map_fst_bodiesOf (h : ∀ x ∈ l, ∃ body, s.blockBodies[x.1]? = some body) :
    (bodiesOf s l).map Prod.fst = l.map Prod.fst := by
  induction l with
  | nil => rfl
  | cons x l ih =>
    obtain ⟨body, hbody⟩ := h x List.mem_cons_self
    have hrest := ih fun y hy => h y (List.mem_cons_of_mem _ hy)
    rw [bodiesOf] at hrest
    simp [bodiesOf, hbody, hrest]

def utxoDeltas (bodies : List (Hash256 × BlockBody)) : List (Delta Commitment UtxoEntry) :=
  bodies.map fun x => utxoDelta x.2

/-- The kernel changes of a list of bodies. -/
def kernelDeltas (bodies : List (Hash256 × BlockBody)) : List (Delta Commitment Hash256) :=
  bodies.map fun x => kernelDelta x.1 x.2

abbrev noEntries {K V : Type} : K → Option V := fun _ => none

/-- The kernel index is the replay of the canonical chain. -/
structure KernelsOk (S : ChainState) (chain : List (Hash256 × BlockHeader)) : Prop where
  replayable : Delta.Replayable noEntries (kernelDeltas (bodiesOf S.store chain))
  kernels : ∀ excess : Commitment, S.store.kernels[excess]? =
    Delta.replay noEntries (kernelDeltas (bodiesOf S.store chain)) excess

/-- The UTXO table is the replay of the canonical chain. -/
structure Ledger (S : ChainState) (chain : List (Hash256 × BlockHeader)) : Prop where
  replayable : Delta.Replayable noEntries (utxoDeltas (bodiesOf S.store chain))
  utxos : ∀ c : Commitment, S.store.utxos[c]? = Delta.replay noEntries (utxoDeltas (bodiesOf S.store chain)) c

/-! ## States -/

structure Blank (S : ChainState) : Prop where
  store : S.store = DomStore.empty
  tipHash : S.tipHash = Hash256.zero
  tipHeight : S.tipHeight = 0
  tipDifficulty : S.tipDifficulty = 0

/-- The invariant of a chain with at least a genesis, on every run. -/
structure Good (S : ChainState) (chain : List (Hash256 × BlockHeader)) : Prop where
  storeOk : StoreOk X S.networkMagic (S.chainId X) S.store
  canonical : Canonical S chain
  kernelsOk : KernelsOk S chain

/-- Every side block has a branch to the canonical chain within the retention limits. -/
def Retained (S : ChainState) (chain : List (Hash256 × BlockHeader)) : Prop :=
  ∀ ⦃h : Hash256⦄ ⦃header : BlockHeader⦄, S.store.blocks[h]? = some header → h ∉ chain.map Prod.fst →
    ∃ a l, Descends S.store h a.1 l ∧ a ∈ chain ∧ (∀ x ∈ l, x.1 ∉ chain.map Prod.fst) ∧
      l.length ≤ maxRetainedSideBranchLength ∧
      S.tipHeight - a.2.height.toNat ≤ maxRetainedSideBranchReorgDepth

end DomProtocol
