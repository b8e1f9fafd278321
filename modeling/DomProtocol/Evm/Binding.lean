import Mathlib.Data.ZMod.Basic
import DomProtocol.Lib.Session
import DomProtocol.Crypto.Primitives
import DomProtocol.Settlement.State

/-!
# `Evm.Binding` — terms, lock ids and the address of a scalar

The binding of a lock hashes one 32-byte word per field.  The address of `t * G` comes from the recovery precompile, fed
so that it recovers from the generator itself; the precompile and the hash are parameters, and `Recovers` says what is
relied on.
-/

namespace DomProtocol.Evm

open Lib

abbrev Address := BitVec 160
abbrev U256 := BitVec 256

/-- Canonical settlement terms of one EVM leg. -/
structure LockTerms where
  domChainId : Digest32
  direction : UInt8
  sessionId : Digest32
  termsHash : Digest32
  participantsHash : Digest32
  asset : Address
  amount : U256
  beneficiary : Address
  adaptorAddress : Address
  deadline : UInt64
  deriving DecidableEq, Repr

/-- What the contracts call and do not contain. -/
structure Machine where
  keccak256 : List UInt8 → Digest32
  /-- The recovery precompile: hash, v, r, s. -/
  ecrecover : Digest32 → UInt8 → U256 → U256 → Address

def abiWord (value : Nat) : List UInt8 := beBytes 32 value

namespace LockBinding

def bindingVersion : Nat := 2

def secp256k1N : Nat := 0xFFFFFFFFFFFFFFFFFFFFFFFFFFFFFFFEBAAEDCE6AF48A03BBFD25E8CD0364141

abbrev Exponent := ZMod secp256k1N

/-- X coordinate of the secp256k1 generator G. -/
def secp256k1Gx : Nat := 0x79BE667EF9DCBBAC55A06295CE870B07029BFCDB2DCE28D959F2815B16F81798

def vForG : UInt8 := 27

section

variable (M : Machine)

def bindingDomain : Digest32 := M.keccak256 (strBytes "DOM-Interop/ConditionLockV2/binding")

def lockidDomain : Digest32 := M.keccak256 (strBytes "DOM-Interop/ConditionLockV2/lockId")

/-- Canonical binding hash of `terms` for a given chain and lock contract. -/
def deriveBinding (terms : LockTerms) (chainId : U256) (lockContract : Address) : Digest32 :=
  M.keccak256 <|
    (abiWord (bindingDomain M).toNat ++ abiWord bindingVersion ++ abiWord chainId.toNat ++ abiWord lockContract.toNat) ++
    (abiWord terms.domChainId.toNat ++ abiWord terms.direction.toNat ++ abiWord terms.sessionId.toNat ++
      abiWord terms.termsHash.toNat) ++
    (abiWord terms.participantsHash.toNat ++ abiWord terms.asset.toNat ++ abiWord terms.amount.toNat ++
      abiWord terms.beneficiary.toNat ++ abiWord terms.adaptorAddress.toNat ++ abiWord terms.deadline.toNat)

/-- Canonical lock id for a binding funded by `funder`. -/
def deriveLockId (binding : Digest32) (funder : Address) : Digest32 :=
  M.keccak256 (abiWord (lockidDomain M).toNat ++ abiWord bindingVersion ++ abiWord binding.toNat ++ abiWord funder.toNat)

/-- `address(t * G)`; nothing for a scalar out of range. -/
def addressOfScalarTimesG (t : U256) : Option Address :=
  if t = 0 ∨ secp256k1N ≤ t.toNat then none
  else some (M.ecrecover 0 vForG (BitVec.ofNat 256 secp256k1Gx) (BitVec.ofNat 256 (t.toNat * secp256k1Gx % secp256k1N)))

end

/-- **The recovery precompile.**  `lifts v r k` says that the curve point with x coordinate `r` and the parity of `v` is
`k * G`, and `addressOf k` is the address of the point `k * G`. -/
structure Recovers (M : Machine) (lifts : UInt8 → U256 → Exponent → Prop) (addressOf : Exponent → Address) :
    Prop where
  generator : lifts vForG (BitVec.ofNat 256 secp256k1Gx) 1
  recover : ∀ (h : Digest32) (v : UInt8) (r s : U256) (k : Exponent), lifts v r k → 0 < r.toNat →
    r.toNat < secp256k1N → 0 < s.toNat → s.toNat < secp256k1N →
      M.ecrecover h v r s = addressOf ((r.toNat : Exponent)⁻¹ * ((s.toNat : Exponent) * k - h.toNat))

theorem gx_coprime_n : Nat.Coprime secp256k1Gx secp256k1N := by decide +kernel

theorem n_lt : secp256k1N < 2 ^ 256 := by decide +kernel

variable {M : Machine} {lifts : UInt8 → U256 → Exponent → Prop} {addressOf : Exponent → Address}

theorem mulmod_pos {t : Nat} (hpos : 0 < t) (hlt : t < secp256k1N) : 0 < t * secp256k1Gx % secp256k1N := by
  refine Nat.pos_of_ne_zero fun hzero => ?_
  have hdvd : secp256k1N ∣ t := (Nat.Coprime.symm gx_coprime_n).dvd_of_dvd_mul_right (Nat.dvd_of_mod_eq_zero hzero)
  exact absurd (Nat.le_of_dvd hpos hdvd) (Nat.not_le.mpr hlt)

/-- **The address of a scalar** is that of its multiple of the generator. -/
theorem addressOfScalarTimesG_eq_some (hM : Recovers M lifts addressOf) {t : U256} {a : Address} :
    addressOfScalarTimesG M t = some a ↔ 0 < t.toNat ∧ t.toNat < secp256k1N ∧ a = addressOf (t.toNat : Exponent) := by
  unfold addressOfScalarTimesG
  by_cases hbad : t = 0 ∨ secp256k1N ≤ t.toNat
  · rw [if_pos hbad]
    refine ⟨nofun, ?_⟩
    rintro ⟨hpos, hlt, -⟩
    rcases hbad with rfl | hle
    · exact absurd hpos (by decide)
    · omega
  · rw [if_neg hbad]
    obtain ⟨hne, hlt⟩ := not_or.mp hbad
    have hpos : 0 < t.toNat := Nat.pos_of_ne_zero fun hzero => hne (BitVec.eq_of_toNat_eq hzero)
    have hrange : t.toNat < secp256k1N := Nat.not_le.mp hlt
    have hs : (BitVec.ofNat 256 (t.toNat * secp256k1Gx % secp256k1N)).toNat = t.toNat * secp256k1Gx % secp256k1N := by
      rw [BitVec.toNat_ofNat, Nat.mod_eq_of_lt ((Nat.mod_lt _ (by decide +kernel)).trans n_lt)]
    have hr : (BitVec.ofNat 256 secp256k1Gx).toNat = secp256k1Gx := by decide +kernel
    have hrcv := hM.recover 0 vForG _ (BitVec.ofNat 256 (t.toNat * secp256k1Gx % secp256k1N)) 1 hM.generator
      (by rw [hr]; decide +kernel) (by rw [hr]; decide +kernel) (by rw [hs]; exact mulmod_pos hpos hrange)
      (by rw [hs]; exact Nat.mod_lt _ (by decide +kernel))
    -- the coordinate cancels against its inverse
    have hscalar : ((secp256k1Gx : Exponent))⁻¹ *
        (((t.toNat * secp256k1Gx % secp256k1N : Nat) : Exponent) * 1 - ((0 : Digest32).toNat : Exponent)) =
        (t.toNat : Exponent) := by
      have hzero : (0 : Digest32).toNat = 0 := rfl
      rw [ZMod.natCast_mod, Nat.cast_mul, hzero, Nat.cast_zero, sub_zero, mul_one, mul_comm, mul_assoc,
        ZMod.coe_mul_inv_eq_one _ gx_coprime_n, mul_one]
    rw [hrcv, hr, hs, hscalar, Option.some.injEq]
    exact ⟨fun h => ⟨hpos, hrange, h.symm⟩, fun h => h.2.2.symm⟩

end LockBinding

end DomProtocol.Evm
