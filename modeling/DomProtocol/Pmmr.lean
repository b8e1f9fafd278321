import Std.Data.ExtTreeMap.Lemmas
import DomProtocol.Crypto.Primitives

/-!
# `Pmmr` — the Merkle mountain range behind the header roots

Positions are one-based in postorder and shared by leaves and internal nodes.  Loops of the source that run
over the bits of a `u64` carry a fuel of 64 steps, which is as often as they can iterate.
-/

namespace DomProtocol

open Lib

/-! ## Position arithmetic -/

/-- `n` is `2^k - 1` for a positive `k` that fits a `u64`. -/
def isAllOnes (n : Nat) : Bool := n ≠ 0 ∧ n + 1 < u64Bound ∧ (n + 1).isPowerOfTwo

/-- One-based position of the most significant bit. -/
def mostSignificantPos (n : Nat) : Nat := if n = 0 then 0 else n.log2 + 1

/-- The leftmost sibling at the same height. -/
def jumpLeft (pos : Nat) : Nat := pos - (2 ^ (mostSignificantPos pos - 1) - 1)

/-- Keep jumping left until the position is the root of a perfect subtree. -/
def jumpLeftUntilAllOnes : Nat → Nat → Nat
  | 0, h => h
  | fuel + 1, h => if isAllOnes h then h else jumpLeftUntilAllOnes fuel (jumpLeft h)

/-- Postorder height of the node at a position; leaves have height zero. -/
def nodeHeight (pos : Nat) : Nat :=
  if pos = 0 then 0 else mostSignificantPos (jumpLeftUntilAllOnes 64 pos) - 1

/-- Peak positions contributed by the bits below `bit`, left to right. -/
def peakPositionsFrom : Nat → Nat → Nat → List Nat
  | 0, _, _ => []
  | bit + 1, remaining, posOffset =>
    if 2 ^ bit ≤ remaining then
      let peakPos := posOffset + (2 ^ bit - 1 + 2 ^ bit)
      peakPos :: peakPositionsFrom bit (remaining - 2 ^ bit) peakPos
    else peakPositionsFrom bit remaining posOffset

/-- The peaks of a range with `leafCount` leaves. -/
def peakPositions (leafCount : Nat) : List Nat := peakPositionsFrom 64 leafCount 0

/-! ## Hashing -/

variable (X : Externals)

def leafHash (position : Nat) (payload : List UInt8) : Hash256 :=
  blake2b256Tagged X "DOM:pmmr-leaf:v1" (leBytes 8 position ++ payload)

def nodeHash (position : Nat) (left right : Hash256) : Hash256 :=
  blake2b256Tagged X "DOM:pmmr-node:v1" (leBytes 8 position ++ hashBytes left ++ hashBytes right)

def bagPeaks : List Hash256 → Hash256
  | [] => blake2b256Tagged X "DOM:pmmr-empty:v1" []
  | [peak] => peak
  | peak :: rest =>
    blake2b256Tagged X "DOM:pmmr-bag:v1" (hashBytes peak ++ hashBytes (bagPeaks rest))

/-! ## The accumulator -/

/-- All node hashes by position, with the number of leaves appended. -/
structure Pmmr where
  nodes : Std.ExtTreeMap Nat Hash256
  leafCount : Nat

namespace Pmmr

def new : Pmmr := ⟨∅, 0⟩

/-- Nodes of a range with `n` leaves: `2n` minus the number of set bits. -/
def nodesBefore (n : Nat) : Nat := 2 * n - ((List.range 64).filter fun i => n.testBit i).length

/-- Place a node; overwriting one is refused. -/
def setNode (m : Pmmr) (pos : Nat) (hash : Hash256) : Except DomError Pmmr := do
  rejectIf (m.nodes.contains pos)
    (.internal s!"PMMR invariant violated: attempt to overwrite node at position {pos}")
  return { m with nodes := m.nodes.insert pos hash }

/-- Merge equal-height neighbours bottom-up, starting at `pos`. -/
def mergePeaks : Nat → Pmmr → Nat → Except DomError Pmmr
  | 0, m, _ => .ok m
  | fuel + 1, m, pos =>
    let h := nodeHeight pos
    let subtreeSize := 2 ^ (h + 1) - 1
    if pos ≤ subtreeSize then .ok m
    else
      let leftPos := pos - subtreeSize
      if nodeHeight leftPos ≠ h then .ok m
      else do
        let parentPos := pos + 1
        let left ← okOr (m.nodes[leftPos]?) (.internal s!"missing node at {leftPos}")
        let right ← okOr (m.nodes[pos]?) (.internal s!"missing node at {pos}")
        let m ← m.setNode parentPos (nodeHash X parentPos left right)
        mergePeaks fuel m parentPos

def push (m : Pmmr) (payload : List UInt8) : Except DomError Pmmr := do
  let newLeafCount ← okOr (checkedAdd64 m.leafCount 1) (.internal "PMMR leaf count overflow")
  let leafPos := nodesBefore m.leafCount + 1
  let m ← m.setNode leafPos (leafHash X leafPos payload)
  let m ← mergePeaks X 64 m leafPos
  return { m with leafCount := newLeafCount }

def pushAll (m : Pmmr) (payloads : List (List UInt8)) : Except DomError Pmmr :=
  payloads.foldlM (push X) m

/-- Bag all peaks; a missing peak is refused. -/
def root (m : Pmmr) : Except DomError Hash256 := do
  let peaks ← (peakPositions m.leafCount).mapM fun p =>
    okOr (m.nodes[p]?) (DomError.internal
      s!"PMMR invariant violated: missing peak at position {p} (leaf_count={m.leafCount}); refusing to compute root over an incomplete peak set")
  return bagPeaks X peaks

end Pmmr

end DomProtocol
