import DomProtocol.Chain.Reorg

/-!
# `Chain.Prune` — bounded retention of side chains

After every change of the stored blocks the node keeps the canonical chain and the branches of at most eight side
tips, ranked by total difficulty, and deletes every other block.
-/

namespace DomProtocol

open Lib

def maxRetainedSideBranchTips : Nat := 8
def maxRetainedSideBranchReorgDepth : Nat := maxReorgDepthPolicy
def maxRetainedSideBranchLength : Nat := maxReorgDepthPolicy

structure RetainedSideTip where
  hash : Hash256
  height : Nat
  totalDifficulty : U256
  deriving DecidableEq

/-- Retention order: more work first, then the lower hash, then the greater height. -/
def RetainedSideTip.before (left right : RetainedSideTip) : Prop :=
  left.totalDifficulty > right.totalDifficulty
    ∨ (left.totalDifficulty = right.totalDifficulty
      ∧ (left.hash < right.hash ∨ (left.hash = right.hash ∧ left.height ≥ right.height)))

instance (left right : RetainedSideTip) : Decidable (left.before right) :=
  inferInstanceAs (Decidable (_ ∨ _))

/-- The hashes the height index names up to the tip. -/
def canonicalHashes (store : DomStore) (canonicalTipHeight : Nat) : List Hash256 :=
  (List.range (canonicalTipHeight + 1)).filterMap fun height => store.heightIndex[height]?

/-- Stored headers off the canonical chain, in hash order. -/
def noncanonicalHeaders (store : DomStore) (canonical : List Hash256) :
    List (Hash256 × BlockHeader) :=
  store.blocks.toList.filter fun (hash, _) => hash ∉ canonical

/-- The side tip of a leaf block, if its branch is within the retention limits. -/
def candidateTip (store : DomStore) (canonicalTipHeight : Nat) (canonicalTipHash : Hash256)
    (childParents : List Hash256) (entry : Hash256 × BlockHeader) :
    Except DomError (Option RetainedSideTip) := do
  let (hash, header) := entry
  if hash ∈ childParents then return none
  else
    match ← findCommonAncestor store canonicalTipHash hash with
    | none => return none
    | some commonAncestor =>
      if commonAncestor = hash then return none
      else
        let ancestorHeight :=
          if commonAncestor = Hash256.zero then some 0
          else store.blocks[commonAncestor]?.map (·.height.toNat)
        match ancestorHeight with
        | none => return none
        | some ancestorHeight =>
          let disconnectDepth := canonicalTipHeight - ancestorHeight
          let branchLength := header.height.toNat - ancestorHeight
          if disconnectDepth > maxRetainedSideBranchReorgDepth
              ∨ branchLength > maxRetainedSideBranchLength then return none
          else
            return some { hash, height := header.height.toNat
                          totalDifficulty := header.totalDifficulty }

/-- Keep the branch below a tip until it meets a kept block, within the branch length. -/
def keepBranch (store : DomStore) : Nat → Hash256 → List Hash256 → List Hash256
  | 0, _, keep => keep
  | steps + 1, cursor, keep =>
    if cursor ∈ keep then keep
    else
      match store.blocks[cursor]? with
      | none => cursor :: keep
      | some header =>
        if header.prevHash = Hash256.zero then cursor :: keep
        else keepBranch store steps header.prevHash (cursor :: keep)

def retainedTips (store : DomStore) (canonicalTipHeight : Nat) (canonicalTipHash : Hash256)
    (noncanonical : List (Hash256 × BlockHeader)) : Except DomError (List RetainedSideTip) := do
  let childParents := noncanonical.map (·.2.prevHash)
  let candidates ← noncanonical.mapM
    (candidateTip store canonicalTipHeight canonicalTipHash childParents)
  return ((candidates.filterMap id).insertionSort RetainedSideTip.before).take maxRetainedSideBranchTips

/-- Delete every stored block that is neither canonical nor on the branch of a retained tip. -/
def pruneRetainedSideChains (store : DomStore) (canonicalTipHeight : Nat) (canonicalTipHash : Hash256) :
    Except DomError DomStore := do
  let canonical := canonicalHashes store canonicalTipHeight
  let noncanonical := noncanonicalHeaders store canonical
  let tips ← retainedTips store canonicalTipHeight canonicalTipHash noncanonical
  let keep := tips.foldl
    (fun keep tip => keepBranch store (maxRetainedSideBranchLength + 1) tip.hash keep) canonical
  return store.pruneKnownBlocks ((noncanonical.map Prod.fst).filter fun hash => hash ∉ keep)

end DomProtocol
