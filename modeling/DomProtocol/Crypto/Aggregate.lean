import DomProtocol.Crypto.Signing

/-!
# `Crypto.Aggregate` — two-party Schnorr signatures

Public keys and nonces add up as points, partial signatures as scalars.
-/

namespace DomProtocol

open Lib

variable (X : Externals)

def schnorrAddPublicKeys (publicKeys : List (BitVec 264)) : Except DomError (BitVec 264) := do
  rejectIf (publicKeys = []) (.malformed "cannot aggregate an empty public key set")
  let sum ← publicKeys.foldlM (fun acc pk => do return acc + (← compressedToProjective X pk)) (0 : X.Point)
  rejectIf (sum = 0) (.invalid "aggregated public key is the point at infinity")
  publicKeyFromCompressedBytes X (X.compressPoint sum)

def partialSigFromBytes (s : BitVec 256) : Except DomError (BitVec 256) := do
  rejectIf (isScalarValid s = false) (.invalid "partial signature scalar is zero or >= n")
  return s

/-- One party's share `k + c * x` under the aggregate nonce and key. -/
def schnorrPartialSign (sk nonce : BitVec 256) (aggR aggP : BitVec 264) (chainId : Hash256) (message : List UInt8) :
    Except DomError (BitVec 256) := do
  let s ← scalarAddMul nonce (schnorrChallenge X aggR aggP chainId message) sk
  partialSigFromBytes s

/-- The sum of the shares with the aggregate nonce. -/
def schnorrAggregateSigs (partials : List (BitVec 256)) (aggR : BitVec 264) : Except DomError SchnorrSignature := do
  rejectIf (partials = []) (.malformed "cannot aggregate an empty partial signature set")
  let sum ← partials.foldlM (fun acc p => do
    let s ← okOr (scalarFromBytes p) (.invalid "partial signature scalar invalid")
    return (acc + s) % secp256k1N) 0
  let s := BitVec.ofNat 256 sum
  rejectIf (isScalarValid s = false) (.invalid "aggregated signature scalar is zero or >= n")
  return ⟨aggR, s⟩

end DomProtocol
