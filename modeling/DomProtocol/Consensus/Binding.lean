import DomProtocol.Lib.PrefixCode
import DomProtocol.Consensus.Wire

/-!
# `Consensus.Binding` — the header roots determine the body

Above genesis the third header root hashes the range-proof root together with a hash of the complete body.  The
encoding of a body is injective, without any limit on its lists: each part is a prefix code.  Where the two hashes do
not collide, equal roots come from equal bodies.
-/

namespace DomProtocol

open Lib

/-! ## The body encoding as a prefix code -/

theorem prefixCode_le {n : Nat} : PrefixCode fun (v : Nat) bs => v < 256 ^ n ∧ bs = leBytes n v := by
  refine .of_length (n := n) ?_ ?_
  · rintro v bs ⟨-, rfl⟩
    exact length_leBytes n v
  · rintro v v' bs ⟨hv, rfl⟩ ⟨hv', heq⟩
    rw [← ofLeBytes_leBytes hv, heq, ofLeBytes_leBytes hv']

theorem prefixCode_count : PrefixCode fun (n : Nat) bs => n < u32Bound ∧ bs = leBytes 4 n := prefixCode_le (n := 4)

theorem prefixCode_array {n : Nat} : PrefixCode fun (v : BitVec (8 * n)) bs => bs = writeArray v := by
  refine .of_length (n := n) ?_ ?_
  · rintro v bs rfl
    exact length_beBytes n v.toNat
  · rintro v v' bs rfl heq
    have hlt : ∀ u : BitVec (8 * n), u.toNat < 256 ^ n := fun u => by
      have := u.isLt
      rwa [Nat.pow_mul] at this
    have hnat := congrArg ofBeBytes heq
    rw [writeArray, writeArray, ofBeBytes_beBytes (hlt v), ofBeBytes_beBytes (hlt v')] at hnat
    exact BitVec.eq_of_toNat_eq hnat

theorem prefixCode_writeList {α : Type} {w : α → Except DomError (List UInt8)}
    (hw : PrefixCode fun a bs => w a = .ok bs) : PrefixCode fun items bs => writeList w items = .ok bs := by
  intro l l' bs bs' rest rest' h h' heq
  obtain ⟨hlen, encs, hencs, rfl⟩ := writeList_eq_ok.mp h
  obtain ⟨hlen', encs', hencs', rfl⟩ := writeList_eq_ok.mp h'
  exact prefixCode_count.counted hw ⟨_, encs, ⟨hlen, rfl⟩, hencs, rfl⟩ ⟨_, encs', ⟨hlen', rfl⟩, hencs', rfl⟩ heq

theorem prefixCode_u64 : PrefixCode fun (v : UInt64) bs => bs = writeU64 v := by
  rintro v v' bs bs' rest rest' rfl rfl heq
  obtain ⟨hnat, hrest⟩ := prefixCode_le (n := 8) ⟨by simpa using v.toNat_lt, rfl⟩ ⟨by simpa using v'.toNat_lt, rfl⟩ heq
  exact ⟨UInt64.toNat_inj.mp hnat, hrest⟩

theorem prefixCode_amount : PrefixCode fun (a : Amount) bs => bs = leBytes 8 a.noms := by
  have hlt (a : Amount) : a.noms < 256 ^ 8 := by
    have := a.noms_le.trans_lt maxSupplyNoms_lt
    simpa [u64Bound] using this
  rintro ⟨noms, hle⟩ ⟨noms', hle'⟩ bs bs' rest rest' rfl rfl heq
  obtain ⟨rfl, hrest⟩ := prefixCode_le (n := 8) ⟨hlt ⟨noms, hle⟩, rfl⟩ ⟨hlt ⟨noms', hle'⟩, rfl⟩ heq
  exact ⟨rfl, hrest⟩

theorem prefixCode_byte : PrefixCode fun (v : UInt8) bs => bs = [v] := by
  refine .of_length (n := 1) ?_ ?_
  · rintro v bs rfl
    rfl
  · rintro v v' bs rfl heq
    exact (List.cons.inj heq).1

theorem prefixCode_output : PrefixCode fun (o : TransactionOutput) bs => o.serialize = .ok bs := by
  rintro ⟨c, proof⟩ ⟨c', proof'⟩ bs bs' rest rest' h h' heq
  obtain ⟨hlen, rfl⟩ := TransactionOutput.serialize_eq_ok.mp h
  obtain ⟨hlen', rfl⟩ := TransactionOutput.serialize_eq_ok.mp h'
  simp only [List.append_assoc] at heq
  obtain ⟨rfl, h₁⟩ := prefixCode_array (n := 33) rfl rfl heq
  obtain ⟨hcnt, h₂⟩ := prefixCode_count ⟨hlen, rfl⟩ ⟨hlen', rfl⟩ h₁
  obtain ⟨rfl, hrest⟩ := List.append_inj h₂ hcnt
  exact ⟨rfl, hrest⟩

theorem prefixCode_kernel : PrefixCode fun (k : TransactionKernel) bs => bs = k.serialize := by
  rintro ⟨features, fee, lock, excess, sig⟩ ⟨features', fee', lock', excess', sig'⟩ bs bs' rest rest' rfl rfl heq
  simp only [TransactionKernel.serialize, List.append_assoc] at heq
  obtain ⟨rfl, h₁⟩ := prefixCode_byte rfl rfl heq
  obtain ⟨rfl, h₂⟩ := prefixCode_amount rfl rfl h₁
  obtain ⟨rfl, h₃⟩ := prefixCode_u64 rfl rfl h₂
  obtain ⟨rfl, h₄⟩ := prefixCode_array (n := 33) rfl rfl h₃
  obtain ⟨rfl, h₅⟩ := prefixCode_array (n := 65) rfl rfl h₄
  exact ⟨rfl, h₅⟩

theorem prefixCode_coinbaseKernel : PrefixCode fun (k : CoinbaseKernel) bs => bs = k.serialize := by
  rintro ⟨features, value, excess, sig⟩ ⟨features', value', excess', sig'⟩ bs bs' rest rest' rfl rfl heq
  simp only [CoinbaseKernel.serialize, List.append_assoc] at heq
  obtain ⟨rfl, h₁⟩ := prefixCode_byte rfl rfl heq
  obtain ⟨rfl, h₂⟩ := prefixCode_u64 rfl rfl h₁
  obtain ⟨rfl, h₃⟩ := prefixCode_array (n := 33) rfl rfl h₂
  obtain ⟨rfl, h₄⟩ := prefixCode_array (n := 65) rfl rfl h₃
  exact ⟨rfl, h₄⟩

theorem prefixCode_transaction : PrefixCode fun (tx : Transaction) bs => tx.serialize = .ok bs := by
  rintro ⟨inputs, outputs, kernels, offset⟩ ⟨inputs', outputs', kernels', offset'⟩ bs bs' rest rest' h h' heq
  obtain ⟨ibs, obs, kbs, hi, ho, hk, rfl⟩ := Transaction.serialize_eq_ok.mp h
  obtain ⟨ibs', obs', kbs', hi', ho', hk', rfl⟩ := Transaction.serialize_eq_ok.mp h'
  simp only [List.append_assoc] at heq
  have hinput : PrefixCode fun (c : Commitment) bs =>
      (pure (commitmentBytes c) : Except DomError (List UInt8)) = .ok bs := by
    rintro c c' bs bs' rest rest' ⟨rfl⟩ ⟨rfl⟩ heq
    exact prefixCode_array (n := 33) rfl rfl heq
  have hker : PrefixCode fun (k : TransactionKernel) bs =>
      (pure k.serialize : Except DomError (List UInt8)) = .ok bs := by
    rintro k k' bs bs' rest rest' ⟨rfl⟩ ⟨rfl⟩ heq
    exact prefixCode_kernel rfl rfl heq
  obtain ⟨rfl, h₁⟩ := prefixCode_writeList hinput hi hi' heq
  obtain ⟨rfl, h₂⟩ := prefixCode_writeList prefixCode_output ho ho' h₁
  obtain ⟨rfl, h₃⟩ := prefixCode_writeList hker hk hk' h₂
  obtain ⟨rfl, h₄⟩ := prefixCode_array (n := 32) rfl rfl h₃
  exact ⟨rfl, h₄⟩

theorem prefixCode_coinbase : PrefixCode fun (cb : CoinbaseTransaction) bs => cb.serialize = .ok bs := by
  rintro ⟨output, kernel, offset⟩ ⟨output', kernel', offset'⟩ bs bs' rest rest' h h' heq
  obtain ⟨obs, ho, rfl⟩ := CoinbaseTransaction.serialize_eq_ok.mp h
  obtain ⟨obs', ho', rfl⟩ := CoinbaseTransaction.serialize_eq_ok.mp h'
  simp only [List.append_assoc] at heq
  obtain ⟨rfl, h₁⟩ := prefixCode_output ho ho' heq
  obtain ⟨rfl, h₂⟩ := prefixCode_coinbaseKernel rfl rfl h₁
  obtain ⟨rfl, h₃⟩ := prefixCode_array (n := 32) rfl rfl h₂
  exact ⟨rfl, h₃⟩

/-- **The encoding of a body determines it.** -/
theorem canonicalBlockBodyBytes_injective {coinbase coinbase' : CoinbaseTransaction}
    {transactions transactions' : List Transaction} {bs : List UInt8}
    (h : canonicalBlockBodyBytes coinbase transactions = .ok bs)
    (h' : canonicalBlockBodyBytes coinbase' transactions' = .ok bs) :
    coinbase = coinbase' ∧ transactions = transactions' := by
  simp only [canonicalBlockBodyBytes, inversion] at h h'
  obtain ⟨cbs, hc, tbs, ht, rfl⟩ := h
  obtain ⟨cbs', hc', tbs', ht', heq⟩ := h'
  obtain ⟨rfl, hrest⟩ := prefixCode_coinbase hc hc' heq.symm
  subst hrest
  exact ⟨rfl, (prefixCode_writeList prefixCode_transaction).unique ht ht'⟩

/-! ## Equal roots, equal bodies -/

variable (X : Externals)

/-- What the body commitment and the bound root of a body hash, with their tags. -/
def bindingInputs (coinbase : CoinbaseTransaction) (transactions : List Transaction) : Set (String × List UInt8) :=
  { p | ∃ bytes roots, canonicalBlockBodyBytes coinbase transactions = .ok bytes ∧
      computeUnboundBlockPmmrRoots X coinbase transactions = .ok roots ∧
      (p = ("DOM:block-body-commitment:v1", bytes) ∨
        p = ("DOM:bound-rangeproof-root:v1",
          hashBytes roots.2.2 ++ hashBytes (blake2b256Tagged X "DOM:block-body-commitment:v1" bytes))) }

/-- **Body binding.**  Two bodies at heights above genesis with the same header roots are the same body, unless two of
    the tagged inputs that bind them collide. -/
theorem body_of_roots {height height' : Nat} {coinbase coinbase' : CoinbaseTransaction}
    {transactions transactions' : List Transaction} {roots : Hash256 × Hash256 × Hash256}
    (hheight : height ≠ 0) (hheight' : height' ≠ 0)
    (hcollision : Set.InjOn (fun p : String × List UInt8 => blake2b256Tagged X p.1 p.2)
      (bindingInputs X coinbase transactions ∪ bindingInputs X coinbase' transactions'))
    (hroots : computeBlockPmmrRoots X height coinbase transactions = .ok roots)
    (hroots' : computeBlockPmmrRoots X height' coinbase' transactions' = .ok roots) :
    coinbase = coinbase' ∧ transactions = transactions' := by
  simp only [computeBlockPmmrRoots, if_neg hheight, if_neg hheight', computeBlockBodyCommitment,
    inversion] at hroots hroots'
  obtain ⟨unbound, hunbound, _, ⟨bytes, hbytes, rfl⟩, rfl⟩ := hroots
  obtain ⟨unbound', hunbound', _, ⟨bytes', hbytes', rfl⟩, heq⟩ := hroots'
  -- the third root first: its input determines the body commitment
  have hthird : ("DOM:bound-rangeproof-root:v1", hashBytes unbound'.2.2 ++
      hashBytes (blake2b256Tagged X "DOM:block-body-commitment:v1" bytes')) =
      ("DOM:bound-rangeproof-root:v1", hashBytes unbound.2.2 ++
        hashBytes (blake2b256Tagged X "DOM:block-body-commitment:v1" bytes)) :=
    hcollision (.inr ⟨bytes', unbound', hbytes', hunbound', .inr rfl⟩)
      (.inl ⟨bytes, unbound, hbytes, hunbound, .inr rfl⟩) (congrArg (·.2.2) heq)
  obtain ⟨-, hcommitment⟩ := List.append_inj (congrArg Prod.snd hthird) (by simp [hashBytes, writeArray])
  have hbody : ("DOM:block-body-commitment:v1", bytes') = ("DOM:block-body-commitment:v1", bytes) :=
    hcollision (.inr ⟨bytes', unbound', hbytes', hunbound', .inl rfl⟩)
      (.inl ⟨bytes, unbound, hbytes, hunbound, .inl rfl⟩) ((prefixCode_array (n := 32)).unique rfl hcommitment)
  obtain rfl : bytes' = bytes := congrArg Prod.snd hbody
  exact canonicalBlockBodyBytes_injective hbytes hbytes'

namespace Miniature

/-- The libraries of the miniature with a hash that shows the tag of its input. -/
def tagging : Externals :=
  { libraries with blake2b256 := fun bytes => BitVec.ofNat 256 (ofLeBytes (bytes.take 30)) }

theorem tagging_hash (tag : String) (htag : (strBytes tag).length = 28) (data : List UInt8) :
    blake2b256Tagged tagging tag data = BitVec.ofNat 256 (ofLeBytes (writeU16 28 ++ strBytes tag)) := by
  have htake : (writeU16 28 ++ strBytes tag ++ data).take 30 = writeU16 28 ++ strBytes tag := by
    rw [List.take_left' (by simp [writeU16, htag])]
  simp only [blake2b256Tagged, htag, tagging, htake]

theorem tagging_injOn (coinbase : CoinbaseTransaction) (transactions : List Transaction) :
    Set.InjOn (fun p : String × List UInt8 => blake2b256Tagged tagging p.1 p.2)
      (bindingInputs tagging coinbase transactions) := by
  have hdst : BitVec.ofNat 256 (ofLeBytes (writeU16 28 ++ strBytes "DOM:block-body-commitment:v1")) ≠
      BitVec.ofNat 256 (ofLeBytes (writeU16 28 ++ strBytes "DOM:bound-rangeproof-root:v1")) := by decide +kernel
  have hcomm := tagging_hash "DOM:block-body-commitment:v1" (by decide +kernel)
  have hbd := tagging_hash "DOM:bound-rangeproof-root:v1" (by decide +kernel)
  rintro p ⟨bytes, roots, hbyt, hrts, hp⟩ q ⟨bytes', roots', hbyt', hrts', hq⟩ heq
  obtain rfl := Except.ok.inj (hbyt.symm.trans hbyt')
  obtain rfl := Except.ok.inj (hrts.symm.trans hrts')
  rcases hp with rfl | rfl
  · rcases hq with rfl | rfl
    · rfl
    · exact absurd ((hcomm _).symm.trans (heq.trans (hbd _))) hdst
  · rcases hq with rfl | rfl
    · exact absurd ((hcomm _).symm.trans (heq.symm.trans (hbd _))) hdst
    · rfl

end Miniature

open Miniature

/-- The roots of one body, computed at two heights, bind it. -/
theorem spendingGenesis_bound :
    let cb := Miniature.coinbase 1 0 8
    let txs := [Miniature.transfer [(3300000000, 7)] [(3300000000, 1000)]]
    (computeBlockPmmrRoots Miniature.tagging 1 Miniature.spendingGenesis.coinbase
        Miniature.spendingGenesis.transactions).isOk ∧
      computeBlockPmmrRoots Miniature.tagging 1 Miniature.spendingGenesis.coinbase
        Miniature.spendingGenesis.transactions = computeBlockPmmrRoots Miniature.tagging 2 cb txs ∧
      Miniature.spendingGenesis.coinbase = cb ∧ Miniature.spendingGenesis.transactions = txs := by
  have hok : (computeBlockPmmrRoots tagging 1 spendingGenesis.coinbase
      spendingGenesis.transactions).isOk := by decide +kernel
  obtain ⟨roots, hroots⟩ := exists_ok hok
  have hinj := tagging_injOn spendingGenesis.coinbase spendingGenesis.transactions
  rw [← Set.union_self (bindingInputs tagging _ _)] at hinj
  exact ⟨hok, rfl, body_of_roots tagging (by decide : 1 ≠ 0) (by decide : 2 ≠ 0) hinj hroots hroots⟩

end DomProtocol
