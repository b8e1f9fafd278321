import DomProtocol.Evm.Binding
import DomProtocol.Lib.PrefixCode

/-!
# `Evm.Adapter` — the adapter derives the contract's lock ids

The adapter pads each field to a word by its own type and hashes the words in a row, the contract encodes them in three
groups.  Both hash the same bytes, and these bytes tell all fields apart.
-/

namespace DomProtocol.Evm

open Lib

/-- Two encodings with one hash. -/
def Collision (M : Machine) (l l' : List Nat) : Prop :=
  l.flatMap abiWord ≠ l'.flatMap abiWord ∧ M.keccak256 (l.flatMap abiWord) = M.keccak256 (l'.flatMap abiWord)

theorem prefixCode_abiWord : PrefixCode fun n bs => n < 2 ^ 256 ∧ bs = abiWord n := by
  refine PrefixCode.of_length (n := 32) (fun _ _ h => by simp [h.2, abiWord]) ?_
  rintro a a' _ ⟨ha, rfl⟩ ⟨ha', heq⟩
  rw [← ofBeBytes_beBytes (n := 32) (v := a) (by omega), ← ofBeBytes_beBytes (n := 32) (v := a') (by omega)]
  exact congrArg ofBeBytes heq

/-- Words hashed in a row tell their values apart. -/
theorem keccak_words_inj {M : Machine} {l l' : List Nat} (hlen : l.length = l'.length) (hl : ∀ n ∈ l ++ l', n < 2 ^ 256)
    (h : M.keccak256 (l.flatMap abiWord) = M.keccak256 (l'.flatMap abiWord)) : l = l' ∨ Collision M l l' := by
  have hwords : ∀ {k : List Nat}, (∀ n ∈ k, n < 2 ^ 256) →
      List.Forall₂ (fun n bs => n < 2 ^ 256 ∧ bs = abiWord n) k (k.map abiWord) := fun hk =>
    List.forall₂_map_right_iff.mpr (List.forall₂_same.mpr fun n hn => ⟨hk n hn, rfl⟩)
  by_cases heq : l.flatMap abiWord = l'.flatMap abiWord
  · obtain ⟨hleft, hright⟩ := List.forall_mem_append.mp hl
    exact .inl (prefixCode_abiWord.items hlen (hwords hleft) (hwords hright) (congrArg (· ++ []) heq)).1
  · exact .inr ⟨heq, h⟩

namespace Adapter

inductive AdapterError where
  | boundsExceeded
  deriving DecidableEq, Repr

def maxAbiWords : Nat := 64

/-- A zero word with `bytes` copied over its end. -/
def rightAligned (bytes : List UInt8) : List UInt8 := List.replicate (32 - bytes.length) 0 ++ bytes

def wordBytes32 (v : Digest32) : List UInt8 := hashBytes v

def wordAddress (v : Address) : List UInt8 := rightAligned (writeArray (n := 20) v)

def wordU8 (v : UInt8) : List UInt8 := rightAligned [v]

def wordU16 (v : UInt16) : List UInt8 := rightAligned (beBytes 2 v.toNat)

def wordU64 (v : UInt64) : List UInt8 := rightAligned (beBytes 8 v.toNat)

def wordU256 (v : U256) : List UInt8 := writeArray (n := 32) v

def concatWords (words : List (List UInt8)) : Except AdapterError (List UInt8) :=
  if maxAbiWords < words.length then .error .boundsExceeded else .ok words.flatten

def bindingVersion : UInt16 := 2

def abiWords (t : LockTerms) : List (List UInt8) :=
  [wordBytes32 t.domChainId, wordU8 t.direction, wordBytes32 t.sessionId, wordBytes32 t.termsHash,
    wordBytes32 t.participantsHash, wordAddress t.asset, wordU256 t.amount, wordAddress t.beneficiary,
    wordAddress t.adaptorAddress, wordU64 t.deadline]

variable (M : Machine)

def bindingDomain : Digest32 := M.keccak256 (strBytes "DOM-Interop/ConditionLockV2/binding")

def lockidDomain : Digest32 := M.keccak256 (strBytes "DOM-Interop/ConditionLockV2/lockId")

def deriveBinding (chainId : UInt64) (contract : Address) (terms : LockTerms) : Except AdapterError Digest32 := do
  return M.keccak256 (← concatWords <|
    [wordBytes32 (bindingDomain M), wordU16 bindingVersion, wordU64 chainId, wordAddress contract] ++ abiWords terms)

def deriveLockId (binding : Digest32) (funder : Address) : Except AdapterError Digest32 := do
  return M.keccak256 (← concatWords
    [wordBytes32 (lockidDomain M), wordU16 bindingVersion, wordBytes32 binding, wordAddress funder])

/-- The fields a binding hashes. -/
def bindingFields (t : LockTerms) (chainId : U256) (contract : Address) : List Nat :=
  [(bindingDomain M).toNat, 2, chainId.toNat, contract.toNat, t.domChainId.toNat, t.direction.toNat, t.sessionId.toNat,
    t.termsHash.toNat, t.participantsHash.toNat, t.asset.toNat, t.amount.toNat, t.beneficiary.toNat,
    t.adaptorAddress.toNat, t.deadline.toNat]

/-- The fields a lock id hashes. -/
def lockIdFields (binding : Digest32) (funder : Address) : List Nat :=
  [(lockidDomain M).toNat, 2, binding.toNat, funder.toNat]

variable {M}

theorem leBytes_zero (k : Nat) : leBytes k 0 = List.replicate k 0 := by
  induction k with
  | zero => rfl
  | succ k ih => simp [leBytes, ih, List.replicate_succ]

theorem leBytes_add {n v : Nat} (h : v < 256 ^ n) (k : Nat) : leBytes (n + k) v = leBytes n v ++ List.replicate k 0 := by
  induction n generalizing v with
  | zero => simpa [Nat.lt_one_iff.mp h, leBytes] using leBytes_zero k
  | succ n ih =>
    have hdiv : v / 256 < 256 ^ n := Nat.div_lt_of_lt_mul (by rwa [Nat.pow_succ, Nat.mul_comm] at h)
    rw [Nat.add_right_comm, leBytes, ih hdiv, leBytes, List.cons_append]

theorem rightAligned_beBytes {n v : Nat} (hn : n ≤ 32) (h : v < 256 ^ n) : rightAligned (beBytes n v) = abiWord v := by
  have hpad := leBytes_add h (32 - n)
  rw [Nat.add_sub_cancel' hn] at hpad
  rw [rightAligned, length_beBytes, abiWord, beBytes, beBytes, hpad, List.reverse_append, List.reverse_replicate]

theorem wordAddress_eq (v : Address) : wordAddress v = abiWord v.toNat :=
  rightAligned_beBytes (by decide) v.isLt

theorem wordU8_eq (v : UInt8) : wordU8 v = abiWord v.toNat := by
  have hv : beBytes 1 v.toNat = [v] := by simp [beBytes, leBytes]
  rw [wordU8, ← hv]
  exact rightAligned_beBytes (by decide) v.toNat_lt

theorem wordU64_eq (v : UInt64) : wordU64 v = abiWord v.toNat :=
  rightAligned_beBytes (by decide) v.toNat_lt

theorem wordU16_bindingVersion : wordU16 bindingVersion = abiWord 2 := rightAligned_beBytes (by decide) (by decide)

theorem binding_eq (t : LockTerms) (c : U256) (a : Address) :
    LockBinding.deriveBinding M t c a = M.keccak256 ((bindingFields M t c a).flatMap abiWord) := by
  simp [LockBinding.deriveBinding, bindingFields, LockBinding.bindingDomain, bindingDomain, LockBinding.bindingVersion]

theorem lockId_eq (b : Digest32) (f : Address) :
    LockBinding.deriveLockId M b f = M.keccak256 ((lockIdFields M b f).flatMap abiWord) := by
  simp [LockBinding.deriveLockId, lockIdFields, LockBinding.lockidDomain, lockidDomain, LockBinding.bindingVersion]

/-- Equal bindings are of equal terms, chains and contracts, or collide. -/
theorem binding_inj {t t' : LockTerms} {c c' : U256} {a a' : Address}
    (h : LockBinding.deriveBinding M t c a = LockBinding.deriveBinding M t' c' a') :
    (t = t' ∧ c = c' ∧ a = a') ∨ Collision M (bindingFields M t c a) (bindingFields M t' c' a') := by
  rw [binding_eq, binding_eq] at h
  refine (keccak_words_inj (by rfl) ?_ h).imp_left fun hfields => ?_
  · have := t.direction.toNat_lt
    have := t.deadline.toNat_lt
    have := t'.direction.toNat_lt
    have := t'.deadline.toNat_lt
    simp only [bindingFields, List.cons_append, List.nil_append, List.forall_mem_cons, List.not_mem_nil, false_imp_iff,
      implies_true, and_true]
    omega
  · cases t
    cases t'
    simp_all [bindingFields, ← BitVec.toNat_inj, ← UInt8.toNat_inj, ← UInt64.toNat_inj]

theorem lockId_inj {b b' : Digest32} {f f' : Address}
    (h : LockBinding.deriveLockId M b f = LockBinding.deriveLockId M b' f') :
    (b = b' ∧ f = f') ∨ Collision M (lockIdFields M b f) (lockIdFields M b' f') := by
  rw [lockId_eq, lockId_eq] at h
  refine (keccak_words_inj (by rfl) ?_ h).imp_left fun hfields => ?_
  · simp only [lockIdFields, List.cons_append, List.nil_append, List.forall_mem_cons, List.not_mem_nil, false_imp_iff,
      implies_true, and_true]
    omega
  · simpa [lockIdFields, BitVec.toNat_inj] using hfields

/-- **The adapter and the contract agree** on bindings and lock ids, and one lock id has one tuple of terms, chain,
contract and funder unless the encodings collide. -/
theorem adapter_derives_lock_id (M : Machine) :
    (∀ t (c : UInt64) a, deriveBinding M c a t = .ok (LockBinding.deriveBinding M t (BitVec.ofNat 256 c.toNat) a)) ∧
    (∀ b f, deriveLockId M b f = .ok (LockBinding.deriveLockId M b f)) ∧
    ∀ t c a f t' c' a' f', LockBinding.deriveLockId M (LockBinding.deriveBinding M t c a) f =
        LockBinding.deriveLockId M (LockBinding.deriveBinding M t' c' a') f' →
      (t = t' ∧ c = c' ∧ a = a' ∧ f = f') ∨ Collision M (bindingFields M t c a) (bindingFields M t' c' a') ∨
        Collision M (lockIdFields M (LockBinding.deriveBinding M t c a) f)
          (lockIdFields M (LockBinding.deriveBinding M t' c' a') f') := by
  refine ⟨fun t c a => ?_, fun b f => ?_, fun t c a f t' c' a' f' h => ?_⟩
  · have hc : (BitVec.ofNat 256 c.toNat).toNat = c.toNat := by
      have hlt := c.toNat_lt
      rw [BitVec.toNat_ofNat]
      omega
    rw [binding_eq, bindingFields, hc]
    simp only [deriveBinding, abiWords, wordU16_bindingVersion, wordAddress_eq, wordU8_eq, wordU64_eq]
    rfl
  · rw [lockId_eq]
    simp only [deriveLockId, wordU16_bindingVersion, wordAddress_eq]
    rfl
  · rcases lockId_inj h with ⟨hb, rfl⟩ | hcol
    · rcases binding_inj hb with ⟨rfl, rfl, rfl⟩ | hcol
      · exact .inl ⟨rfl, rfl, rfl, rfl⟩
      · exact .inr (.inl hcol)
    · exact .inr (.inr hcol)

end Adapter

end DomProtocol.Evm
