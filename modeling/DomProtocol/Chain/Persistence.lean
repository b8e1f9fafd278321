import DomProtocol.Chain.Failure
import DomProtocol.Chain.Replay

/-!
# `Chain.Persistence` — the UTXO table as the replay of the canonical chain

Direct extensions, disconnects and connects keep the UTXO table equal to the replay of the canonical chain, with one
exception.  A reorganization takes the record of a spent output from the disconnected blocks when one of them created
the same commitment again, and then the old height and coinbase flag are lost.  `Call.Clean` excludes exactly the
calls that disconnect such blocks.
-/

namespace DomProtocol

open Lib ChainState
open Good (ForkAt WithinPolicy Kept)

variable {X : Externals}
variable {S : ChainState} {chain : List (Hash256 × BlockHeader)}

/-! ## The calls that meet the defect -/

/-- The bodies of the canonical chain above a height, lowest first. -/
def canonicalAbove (S : ChainState) (height : Nat) : List (Hash256 × BlockBody) :=
  bodiesOf S.store (S.canonicalChain.drop (height + 1))

/-- The height at which the branch of a block leaves the canonical chain. -/
def forkHeight (S : ChainState) (hash : Hash256) : Option Nat :=
  match findCommonAncestor S.store S.tipHash hash with
  | .ok (some ancestor) => S.store.blocks[ancestor]?.map (·.height.toNat)
  | _ => none

/-- Above a height the canonical chain spends an older output and creates its commitment again. -/
def RecreatedAbove (S : ChainState) (height : Nat) : Prop :=
  ∃ c ∈ (utxoDeltas (canonicalAbove S height)).flatMap (·.removed),
    Delta.Shadowed c (utxoDeltas (canonicalAbove S height))

instance (S : ChainState) (height : Nat) : Decidable (RecreatedAbove S height) :=
  List.decidableBEx _ _

/-- The state in which a side block is promoted: stored, after pruning. -/
def ChainState.quarantined (S : ChainState) (block : Block) (hash : Hash256) : ChainState :=
  ({ S with store := S.store.withBlock hash block.header (.block block) }.pruned ()).2

/-- The call gets as far as disconnecting canonical blocks. -/
def Call.Disconnects (X : Externals) (S : ChainState) : Call → Prop
  | .promote newTipHash now => (S.planReorg X newTipHash now).isOk
  | .connect block now => ∃ hash, Incoming X S block hash now ∧ block.header.prevHash ≠ S.tipHash ∧
      isBetterForkChoiceTip block.header.totalDifficulty hash S.tipDifficulty S.tipHash ∧
      ((S.quarantined block hash).planReorg X hash now).isOk

/-- The stored block on top of the branch a call is about. -/
def Call.branch : Call → Hash256
  | .promote newTipHash _ => newTipHash
  | .connect block _ => block.header.prevHash

/-- A call does not disconnect blocks in which an older output is spent and its commitment created again. -/
def Call.Clean (X : Externals) (S : ChainState) (c : Call) : Prop :=
  c.Disconnects X S → ∀ height, forkHeight S c.branch = some height → ¬ RecreatedAbove S height

/-! ## Fork heights -/

variable {store : DomStore} {c : Call}

namespace Good

variable {a : Hash256 × BlockHeader}

theorem canonicalAbove_eq (hG : Good X S chain) :
    canonicalAbove S a.2.height.toNat = bodiesOf S.store (above chain a) := by
  rw [canonicalAbove, hG.canonicalChain_eq]
  rfl

theorem forkHeight_of_ancestor (hG : Good X S chain) (ha : a ∈ chain) {h : Hash256}
    (hancestor : findCommonAncestor S.store S.tipHash h = .ok (some a.1)) :
    forkHeight S h = some a.2.height.toNat := by
  simp only [forkHeight, hancestor, hG.canonical.stored a ha]
  rfl

variable {t : Hash256} {l : List (Hash256 × BlockHeader)} {header : BlockHeader}

/-! ## Reorganizing a ledger -/

variable {now : UInt64} {disc conn : List (Hash256 × Block)}

/-- **Disconnecting restores the ledger of the fork point**, unless a spent output was created again. -/
theorem undoneUtxos_eq (hL : Ledger S chain) (hP : Planned X S chain t now header a l disc conn)
    (hcln : ∀ c, ¬ Delta.Shadowed c (utxoChanges disc)) : undoneUtxos S (upTo chain a) disc =
      Delta.replay noEntries (utxoDeltas (bodiesOf S.store (upTo chain a))) := by
  have hrepl := hL.replayable
  rw [hP.bodiesOf_chain, utxoDeltas, List.map_append, Delta.replayable_append] at hrepl
  have hrds : reads S.store.utxos = Delta.replay
      (Delta.replay noEntries (utxoDeltas (bodiesOf S.store (upTo chain a)))) (utxoChanges disc) := by
    funext c
    rw [reads, hL.utxos, hP.bodiesOf_chain, utxoDeltas, List.map_append, Delta.replay_append]
    rfl
  rw [undoneUtxos, hrds]
  refine Delta.undo_replay hrepl.2 fun c hfst => ?_
  -- not created again, the output comes back as its last creation at or below the fork point made it
  have hnone : Delta.firstAdded c (utxoChanges disc) = none := by
    by_contra hsome
    exact hcln c ⟨hfst, Option.isSome_iff_ne_none.mpr hsome⟩
  obtain ⟨entry, hentry⟩ := Option.ne_none_iff_exists'.mp (hfst.present hrepl.2)
  rw [restored, hnone, Option.none_or]
  exact (Delta.lastAdded_of_replay hentry).trans hentry.symm

variable (hG : Good X S chain)
include hG

/-- **A clean promotion keeps the ledger.** -/
theorem ledger_reorg (hL : Ledger S chain) (hP : Planned X S chain t now header a l disc conn)
    (hcln : ∀ c, ¬ Delta.Shadowed c (utxoChanges disc))
    (h : S.reorgStore t ⟨header, a.2.height.toNat, disc.reverse, conn⟩ = .ok store) :
    Ledger (S.tipMoved store t header) (reorged chain a l) := by
  obtain ⟨hconn, hutx, -, -, -, -, hbods⟩ := hG.reorgStore_tables hP h
  rw [undoneUtxos_eq hL hP hcln] at hconn hutx
  have hbodo := hP.bodiesOf_reorged hbods
  have hbase := hL.replayable
  rw [hP.bodiesOf_chain, utxoDeltas, List.map_append, Delta.replayable_append] at hbase
  refine ⟨?_, fun c => ?_⟩
  · simp only [tipMoved, hbodo, utxoDeltas, List.map_append]
    exact Delta.replayable_append.mpr ⟨hbase.1, hconn.replayable.1⟩
  · simp only [tipMoved, hbodo, utxoDeltas, List.map_append, Delta.replay_append]
    exact congrFun hutx c

variable {block : Block} {hash : Hash256}

theorem ledger_withBlock (hL : Ledger S chain) (hI : Incoming X S block hash now) :
    Ledger { S with store := S.store.withBlock hash block.header (.block block) } chain := by
  have hbods : bodiesOf (S.store.withBlock hash block.header (.block block)) chain = bodiesOf S.store chain :=
    bodiesOf_withBlock hI.unknown hG.canonical.stored
  exact ⟨by rw [hbods]; exact hL.replayable, fun c => by rw [hbods]; exact hL.utxos c⟩

/-! ## Clean calls -/

theorem canonicalAbove_of_planned (hP : Planned X S chain t now header a l disc conn) :
    canonicalAbove S a.2.height.toNat = disc.map asBody := by
  rw [hG.canonicalAbove_eq, hP.disconnect.bodiesOf_eq]

theorem recreated_of_shadowed (hP : Planned X S chain t now header a l disc conn)
    {c : Commitment} (hshadowed : Delta.Shadowed c (utxoChanges disc)) : RecreatedAbove S a.2.height.toNat := by
  have hchanges : utxoDeltas (canonicalAbove S a.2.height.toNat) = utxoChanges disc := by
    rw [hG.canonicalAbove_of_planned hP]
    rfl
  refine ⟨c, ?_, ?_⟩
  · rw [hchanges]
    exact hshadowed.1.mem_removed
  · rw [hchanges]
    exact hshadowed

theorem ledger_promote (hL : Ledger S chain)
    (hcln : ∀ {header a l disc conn}, Planned X S chain t now header a l disc conn →
      ¬ RecreatedAbove S a.2.height.toNat) : ∃ chain', Good X (S.promoteHeavierKnownTip X t now).2 chain' ∧
      Ledger (S.promoteHeavierKnownTip X t now).2 chain' := by
  have hstep := hG.promoteStep t now
  generalize S.promoteHeavierKnownTip X t now = r at hstep
  obtain ⟨r, S'⟩ := r
  cases hstep with
  | refused e => exact ⟨chain, hG, hL⟩
  | promoted hP hwrt hpruned =>
    have hled := hG.ledger_reorg hL hP (fun c hc => hcln hP (hG.recreated_of_shadowed hP hc)) hwrt
    exact ⟨_, hpruned.good, hpruned.ledger (hG.reorg hP hwrt) hled⟩

variable {S' : ChainState}

variable (hI : Incoming X S block hash now)
include hI

variable (hpruned : PrunedFrom X { S with store := S.store.withBlock hash block.header (.block block) } chain S')
include hpruned

theorem fork_of_quarantined (hf : ForkAt S' chain hash a l) :
    ∃ m, l = (hash, block.header) :: m ∧ ForkAt S chain block.header.prevHash a m := by
  obtain ⟨tips, hT⟩ := hpruned.trimmed
  have hnd := hf.down.nodup hpruned.good.storeOk.ranked
  obtain ⟨hdown, hmem, hside⟩ := hf
  cases hdown with
  | refl _ =>
    have hsto := hG.canonical.stored a hmem
    rw [hI.unknown] at hsto
    cases hsto
  | @step _ _ p n m hlk hpar htail =>
    obtain ⟨-, rfl⟩ | ⟨hne, -⟩ := blocks_withBlock_cases ((hT.blocks _ _).mp hlk).1
    · obtain ⟨-, rfl⟩ := parentOf_eq_some.mp hpar
      refine ⟨m, rfl, htail.of_lookup fun x hx => ?_, hmem, fun x hx => hside x (List.mem_cons_of_mem _ hx)⟩
      -- the path continues below the new block, hence inside the old store
      have hread := ((hT.blocks _ _).mp (htail.lookup_of_mem hx)).1
      obtain ⟨heq, -⟩ | ⟨-, hold⟩ := blocks_withBlock_cases hread
      · rw [List.map_cons, List.nodup_cons, heq] at hnd
        exact absurd (List.mem_map_of_mem hx) hnd.1
      · exact hold
    · exact absurd rfl hne

theorem canonicalAbove_quarantined
    (a : Hash256 × BlockHeader) : canonicalAbove S' a.2.height.toNat = canonicalAbove S a.2.height.toNat := by
  have hmem : ∀ x ∈ above chain a, x ∈ chain := fun _ hx => List.mem_of_mem_drop hx
  rw [hpruned.good.canonicalAbove_eq, hG.canonicalAbove_eq, hpruned.bodiesOf_eq (hG.withBlock hI) hmem]
  exact bodiesOf_withBlock hI.unknown fun x hx => hG.canonical.stored x (hmem x hx)

/-- The fork point of a planned promotion is the common ancestor of the tip and the parent, before the block came. -/
theorem ancestor_of_quarantined (hP : Planned X S' chain hash now header a l disc conn) :
    findCommonAncestor S.store S.tipHash block.header.prevHash = .ok (some a.1) := by
  obtain ⟨m, rfl, hf⟩ := hG.fork_of_quarantined hI hpruned hP.fork
  obtain ⟨htip, hht⟩ : S'.tipHash = S.tipHash ∧ S'.tipHeight = S.tipHeight := by
    rw [hpruned.memory]
    exact ⟨rfl, rfl⟩
  have hpol : WithinPolicy S a m := by
    obtain ⟨hours, htheirs⟩ := hP.policy
    rw [hht] at hours
    exact ⟨hours, by rw [List.length_cons] at htheirs; omega⟩
  obtain ⟨parent, hpar, -⟩ := hI.parent (hI.height_ne_zero hG)
  have hnz : block.header.prevHash ≠ Hash256.zero :=
    (hG.withBlock hI).parent_ne_zero (by rw [blocks_withBlock, if_pos rfl])
      (parentOf_eq_some.mpr ⟨hI.height_ne_zero hG, rfl⟩)
  rw [hG.findCommonAncestor_eq (htip ▸ hP.tipNonzero) hf hpar hnz, if_pos hpol]

omit hpruned

theorem not_recreated_of_quarantined (hprev : block.header.prevHash ≠ S.tipHash)
    (hbet : isBetterForkChoiceTip block.header.totalDifficulty hash S.tipDifficulty S.tipHash)
    (hpruned : PrunedFrom X { S with store := S.store.withBlock hash block.header (.block block) } chain S')
    (hcln : (Call.connect block now).Clean X S) (hP : Planned X S' chain hash now header a l disc conn) :
    ¬ RecreatedAbove S' a.2.height.toNat := by
  have hdisconnects : (Call.connect block now).Disconnects X S := by
    refine ⟨hash, hI, hprev, hbet, ?_⟩
    rw [quarantined, hpruned.pruned_eq, hpruned.good.planReorg_iff.mpr ⟨_, _, _, _, _, hP, rfl⟩]
    rfl
  have hfork := hG.forkHeight_of_ancestor hP.fork.mem (hG.ancestor_of_quarantined hI hpruned hP)
  rw [RecreatedAbove, hG.canonicalAbove_quarantined hI hpruned]
  exact hcln hdisconnects _ hfork

omit hI

/-- **Every clean call keeps a chain with its ledger.** -/
theorem ledger_next (hL : Ledger S chain) (hcln : c.Clean X S) :
    ∃ chain', Good X (c.next X S) chain' ∧ Ledger (c.next X S) chain' := by
  cases c with
  | promote t now =>
    refine hG.ledger_promote hL fun {header a l disc conn} hP => ?_
    refine hcln ?_ _ (hG.forkHeight_of_ancestor hP.fork.mem ?_)
    · rw [Call.Disconnects, hG.planReorg_iff.mpr ⟨header, a, l, disc, conn, hP, rfl⟩]
      rfl
    · rw [Call.branch, hG.findCommonAncestor_eq hP.tipNonzero hP.fork hP.stored hP.nonzero, if_pos hP.policy]
  | connect block now =>
    have hstep := hG.connectStep block now
    rw [Call.next]
    generalize S.connectBlock X block now = r at hstep
    obtain ⟨r, S'⟩ := r
    cases hstep with
    | rejected | known => exact ⟨chain, hG, hL⟩
    | extended hI hprev hwrt hpruned =>
      have hcmt := hI.committed hwrt
      have hgood := hG.commit hcmt hI.fits (hG.parentOf_incoming hI hprev)
      exact ⟨_, hpruned.good, hpruned.ledger hgood (hL.commit hcmt hG.canonical.stored)⟩
    | quarantined hI _ hpruned | notPromoted hI _ hpruned =>
      exact ⟨chain, hpruned.good, hpruned.ledger (hG.withBlock hI) (hG.ledger_withBlock hL hI)⟩
    | @reorganized hash S₁ _ _ hI hprev hpruned hbet hprom =>
      have hL₁ := hpruned.ledger (hG.withBlock hI) (hG.ledger_withBlock hL hI)
      have haft := hpruned.good.ledger_promote hL₁ fun hP =>
        hG.not_recreated_of_quarantined hI hprev hbet hpruned hcln hP
      rwa [hprom] at haft

omit hG

end Good

/-- **The invariant of clean runs.** -/
structure Settled (X : Externals) (S : ChainState) : Prop where
  anchored : ∃ anchor, genesisAnchor S.networkMagic = .ok anchor
  ledger : Blank S ∨ ∃ chain, Good X S chain ∧ Ledger S chain

theorem anchored_of_openStore {genesisHash : Hash256} {networkMagic : UInt32}
    (h : openStore X store genesisHash networkMagic = .ok S) :
    ∃ anchor, genesisAnchor networkMagic = .ok anchor := by
  simp only [openStore, openInner, inversion] at h
  obtain ⟨anchor, hanc, -⟩ := h
  exact ⟨anchor, hanc⟩

theorem settled_of_fresh (h : ChainState.Fresh X S) : Settled X S := by
  cases h with
  | opened h =>
    obtain ⟨hB, rfl⟩ := blank_of_openStore h
    exact ⟨anchored_of_openStore h, .inl hB⟩
  | created h hgen =>
    obtain ⟨hB, rfl⟩ := blank_of_openStore h
    obtain ⟨x, hgood, -, hled⟩ := hB.createGenesisBlock hgen
    refine ⟨?_, .inr ⟨[x], hgood, hled⟩⟩
    simp only [createGenesisBlock, inversion] at hgen
    obtain ⟨_, -, _, -, -, _, -, rfl⟩ := hgen
    exact anchored_of_openStore h

theorem Settled.next (h : Settled X S) (hcln : c.Clean X S) : Settled X (c.next X S) := by
  refine ⟨?_, ?_⟩
  · have hmag : (c.next X S).networkMagic = S.networkMagic := congrArg (·.2.2.1) (c.config_next (X := X) S)
    rw [hmag]
    exact h.anchored
  · rcases h.ledger with hB | ⟨chain, hG, hL⟩
    · rcases hB.next (X := X) c with ⟨-, heq⟩ | ⟨x, hgood, -, hled⟩
      · exact .inl (heq.symm ▸ hB)
      · exact .inr ⟨[x], hgood, hled⟩
    · exact .inr (hG.ledger_next hL hcln)

def CleanlyReachable (X : Externals) : ChainState → Prop :=
  Reach (ChainState.Fresh X) (fun S c => c.Clean X S) (Call.next X)

theorem CleanlyReachable.reachable (h : CleanlyReachable X S) : Reachable X S := Reach.mono (fun _ _ _ => trivial) h

theorem CleanlyReachable.settled (h : CleanlyReachable X S) : Settled X S := by
  refine Reach.invariant (P := Settled X) ?_ ?_ h
  · intro s hs
    exact settled_of_fresh hs
  · intro s c hs hcln
    exact hs.next hcln

/-- **On a clean run the persisted UTXO set is the replay of the canonical chain** after every successful call, and
the store opens again. -/
theorem utxos_eq_reconstruct {c : Call} (hreach : CleanlyReachable X S) (hclean : c.Clean X S)
    (hok : c.Succeeds X S) :
    reconstructCanonicalUtxoSet X (c.next X S).store (c.next X S).tipHeight (c.next X S).networkMagic =
        .ok (c.next X S).store.utxos ∧
      ∀ genesisHash, validatePersistedGenesisIdentity (c.next X S).store genesisHash = .ok () →
        ∃ S', ChainState.openStore X (c.next X S).store genesisHash (c.next X S).networkMagic = .ok S' := by
  have hsettled := hreach.settled
  obtain ⟨anchor, hanchor⟩ := (hsettled.next hclean).anchored
  have hchain : ∃ chain, Good X (c.next X S) chain ∧ Ledger (c.next X S) chain := by
    rcases hsettled.ledger with hB | ⟨chain, hG, hL⟩
    · rcases hB.next (X := X) c with ⟨hfails, -⟩ | ⟨x, hgood, -, hledger⟩
      · exact absurd hok hfails
      · exact ⟨[x], hgood, hledger⟩
    · exact hG.ledger_next hL hclean
  obtain ⟨chain, hG, hL⟩ := hchain
  exact ⟨hG.reconstruct_eq hL, fun _ hgenesis => hG.openStore_ok hL hanchor hgenesis⟩

theorem Call.clean_of_fork
    (h : (forkHeight S c.branch).all (fun height => ! decide (RecreatedAbove S height)) = true) : c.Clean X S := by
  intro _ height hht
  simpa [hht] using h

/-- Offer blocks one after the other, looking above the fork of each. -/
def ChainState.offersCleanly (X : Externals) (S : ChainState) (now : UInt64) : List Block → Bool
  | [] => true
  | block :: blocks =>
    (forkHeight S block.header.prevHash).all (fun height => ! decide (RecreatedAbove S height)) &&
      ChainState.offersCleanly X (S.connectBlock X block now).2 now blocks

theorem CleanlyReachable.connectAll {now : UInt64} {blocks : List Block} (h : CleanlyReachable X S)
    (hcln : S.offersCleanly X now blocks = true) : CleanlyReachable X (S.connectAll X now blocks) := by
  induction blocks generalizing S with
  | nil => exact h
  | cons block blocks ih =>
    rw [offersCleanly, Bool.and_eq_true] at hcln
    exact ih (h.step (.connect block now) (Call.clean_of_fork hcln.1)) hcln.2

namespace Miniature

/-- A block on the side of `forked` that outranks its tip. -/
def overtaking : Block :=
  mine 100 (mine 100 genesis 21 (genesisTimestampRegtest + 1) 18 []) 2 (genesisTimestampRegtest + 2) 19 []

theorem opened_cleanly : CleanlyReachable libraries opened := .start (.opened openStore_empty)

theorem forked_cleanly : CleanlyReachable libraries forked := opened_cleanly.connectAll (by decide +kernel)

end Miniature

open Miniature

/-- The overtaking block reorganizes the chain; the UTXO set is the replay and the store opens again. -/
theorem overtaking_utxos_eq_reconstruct :
    let S := (Call.connect Miniature.overtaking Miniature.now).next Miniature.libraries Miniature.forked
    S.tipHash = 3 ∧
      reconstructCanonicalUtxoSet Miniature.libraries S.store S.tipHeight S.networkMagic = .ok S.store.utxos ∧
      ∃ S', ChainState.openStore Miniature.libraries S.store Hash256.zero S.networkMagic = .ok S' := by
  obtain ⟨hreplay, hopens⟩ := utxos_eq_reconstruct (c := .connect overtaking now)
    forked_cleanly (Call.clean_of_fork (by decide +kernel)) (by decide +kernel)
  exact ⟨by decide +kernel, hreplay, hopens Hash256.zero (by decide +kernel)⟩

namespace Miniature

/-- A chain that spends the genesis output and creates its commitment again, beside a short branch. -/
def recreated : ChainState :=
  let spending := mine 100 genesis 11 (genesisTimestampRegtest + 1) 8
    [transfer [(3300000000, 7)] [(3300000000, 1000)]]
  let recreating := mine 100 spending 12 (genesisTimestampRegtest + 2) 9
    [transfer [(3300000000, 1000)] [(3300000000, 7)]]
  let side := mine 100 genesis 21 (genesisTimestampRegtest + 1) 18 []
  opened.connectAll libraries now [genesis, spending, recreating, side]

end Miniature

/-- Reorganizing to the short branch restores the genesis output with the record of its second creation: the UTXO set
is no replay of the chain, and the store does not open again. -/
theorem recreated_utxos_diverge :
    let S := (Call.connect Miniature.overtaking Miniature.now).next Miniature.libraries Miniature.recreated
    Reachable Miniature.libraries Miniature.recreated ∧
      (Call.connect Miniature.overtaking Miniature.now).Succeeds Miniature.libraries Miniature.recreated ∧
      reconstructCanonicalUtxoSet Miniature.libraries S.store S.tipHeight S.networkMagic ≠ .ok S.store.utxos ∧
      (ChainState.openStore Miniature.libraries S.store Hash256.zero S.networkMagic).isOk = false := by
  refine ⟨reachable_opened.connectAll _ _, ?_, ?_, ?_⟩ <;> decide +kernel

/-! ## The kernel index -/

/-- **The persisted kernel index is that of the canonical chain** after every call: no kernel occurs twice, the index
has each one with the hash of its block, and a rebuild on reopening changes nothing. -/
theorem kernelIndex_exact (hreach : Reachable X S) :
    (bodiesOf S.store S.canonicalChain).map Prod.fst = S.canonicalChain.map Prod.fst ∧
      ((bodiesOf S.store S.canonicalChain).flatMap fun x => x.2.excesses).Nodup ∧
      (∀ (excess : Commitment) (hash : Hash256), S.store.kernels[excess]? = some hash ↔
        ∃ body, (hash, body) ∈ bodiesOf S.store S.canonicalChain ∧ excess ∈ body.excesses) ∧
      ∀ tip, S.store.chainTip = some tip →
        rebuildKernelIndexFromCanonicalChain X S.store S.tipHeight S.networkMagic = .ok S.store := by
  rcases hreach.sound with hB | ⟨chain, hG, -⟩
  · have hempty : S.canonicalChain = [] := by
      rw [canonicalChain, hB.store, hB.tipHeight]
      rfl
    rw [hempty, hB.store]
    refine ⟨rfl, List.nodup_nil, fun excess hash => ?_, fun tip htip => ?_⟩
    · simp [DomStore.empty, bodiesOf]
    · cases htip
  · rw [hG.canonicalChain_eq]
    refine ⟨map_fst_bodiesOf fun x hx => ?_, hG.nodup_excesses, fun _ _ => hG.kernels_iff,
      fun _ _ => hG.rebuildKernelIndex_eq⟩
    obtain ⟨body, hbody, -⟩ := hG.storeOk.body (hG.canonical.stored x hx)
    exact ⟨body, hbody⟩

/-- After the overtaking block its own kernel is indexed, and that of the abandoned block is not. -/
theorem overtaking_kernelIndex :
    let S := (Call.connect Miniature.overtaking Miniature.now).next Miniature.libraries Miniature.forked
    (∃ body, ((3 : Hash256), body) ∈ bodiesOf S.store S.canonicalChain ∧
        Miniature.encodePoint (0, 19) ∈ body.excesses) ∧
      ¬ ∃ hash body, (hash, body) ∈ bodiesOf S.store S.canonicalChain ∧ Miniature.encodePoint (0, 8) ∈ body.excesses := by
  have hreach : Reachable libraries
      ((Call.connect overtaking now).next libraries forked) :=
    forked_cleanly.reachable.step _ trivial
  obtain ⟨-, -, hindex, -⟩ := kernelIndex_exact hreach
  refine ⟨(hindex _ _).mp (by decide +kernel), ?_⟩
  rintro ⟨hash, body, hmem, hexcess⟩
  have hread := (hindex _ _).mpr ⟨body, hmem, hexcess⟩
  have hnone : ((Call.connect overtaking now).next libraries
      forked).store.kernels[encodePoint (0, 8)]? = none := by decide +kernel
  rw [hnone] at hread
  cases hread

end DomProtocol
