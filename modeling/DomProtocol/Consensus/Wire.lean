import DomProtocol.Miniature

/-!
# `Consensus.Wire` — decoding blocks from the wire

The decoders of transactions, coinbases and blocks, with their limits.  Each encoding is related to its decoder twice:
the decoder reads the encoding back wherever it stands, and whatever it accepts is the encoding of the result.  The
block theorems put the two together.
-/

namespace DomProtocol

open Lib

variable (X : Externals)

/-! ## Decoders -/

def TransactionInput.minSerializedSize : Nat := 33
def TransactionOutput.minSerializedSize : Nat := 33 + 4
def TransactionKernel.minSerializedSize : Nat := 1 + 8 + 8 + 33 + 65
def CoinbaseKernel.minSerializedSize : Nat := 1 + 8 + 33 + 65
def Transaction.minSerializedSize : Nat := 4 + 4 + 4 + 32

def TransactionInput.deserialize : ReadM Commitment := do
  let bytes ← Reader.readArray 33
  Reader.parse (commitmentFromCompressedBytes X bytes)

def TransactionOutput.deserialize : ReadM TransactionOutput := do
  let commitmentBytes ← Reader.readArray 33
  let proof ← Reader.readVec maxOutputProofEnvelopeSize
  let commitment ← Reader.parse (commitmentFromCompressedBytes X commitmentBytes)
  return { commitment, proof }

def Amount.deserialize : ReadM Amount := do
  let noms ← Reader.readU64
  Reader.parse (Amount.fromNoms noms.toNat)

def TransactionKernel.deserialize : ReadM TransactionKernel := do
  let features ← Reader.readU8
  let fee ← Amount.deserialize
  let lockHeight ← Reader.readU64
  let excessBytes ← Reader.readArray 33
  let excess ← Reader.parse (commitmentFromCompressedBytes X excessBytes)
  let excessSignature ← Reader.readArray 65
  return { features, fee, lockHeight, excess, excessSignature }

def CoinbaseKernel.deserialize : ReadM CoinbaseKernel := do
  let features ← Reader.readU8
  let hex := hexByte features
  Reader.parse (rejectIf (features ≠ kernelFeatCoinbase)
    (.malformed s!"expected coinbase features 0x01, got 0x{hex}"))
  let explicitValue ← Reader.readU64
  let excessBytes ← Reader.readArray 33
  let excess ← Reader.parse (commitmentFromCompressedBytes X excessBytes)
  let excessSignature ← Reader.readArray 65
  return { features, explicitValue, excess, excessSignature }

def Transaction.deserialize : ReadM Transaction := do
  let inputs ← Reader.readList (TransactionInput.deserialize X) TransactionInput.minSerializedSize maxInputsPerTx
  let outputs ← Reader.readList (TransactionOutput.deserialize X) TransactionOutput.minSerializedSize maxOutputsPerTx
  let kernels ← Reader.readList (TransactionKernel.deserialize X) TransactionKernel.minSerializedSize maxKernelsPerTx
  let offset ← Reader.readArray 32
  return { inputs, outputs, kernels, offset }

def CoinbaseTransaction.deserialize : ReadM CoinbaseTransaction := do
  let output ← TransactionOutput.deserialize X
  let kernel ← CoinbaseKernel.deserialize X
  let offset ← Reader.readArray 32
  return { output, kernel, offset }

namespace Block

def serialize (b : Block) : Except DomError (List UInt8) := do
  return b.header.toBytes ++ (← b.coinbase.serialize) ++ (← writeList Transaction.serialize b.transactions)

def deserialize : ReadM Block := do
  let header ← BlockHeader.deserialize
  let coinbase ← CoinbaseTransaction.deserialize X
  let transactions ← Reader.readList (Transaction.deserialize X) Transaction.minSerializedSize maxBlockTxs
  return { header, coinbase, transactions }

def fromBytes (data : List UInt8) : Except DomError Block := Reader.fromBytes (deserialize X) data

end Block

/-! ## Values within the wire limits -/

/-- A commitment is one of those the parser produces. -/
def Parsed (c : Commitment) : Prop := commitmentFromCompressedBytes X c = .ok c

variable {c : Commitment}

theorem parsed_of_ok {c' : Commitment} (h : commitmentFromCompressedBytes X c = .ok c') : c' = c ∧ Parsed X c := by
  have hsame : c' = c := by
    simp only [commitmentFromCompressedBytes, inversion] at h
    exact h.2.2.symm
  subst hsame
  exact ⟨rfl, h⟩

structure TransactionOutput.OnWire (o : TransactionOutput) : Prop where
  commitment : Parsed X o.commitment
  proof : o.proof.length ≤ maxOutputProofEnvelopeSize

structure Transaction.OnWire (tx : Transaction) : Prop where
  inputs_le : tx.inputs.length ≤ maxInputsPerTx
  outputs_le : tx.outputs.length ≤ maxOutputsPerTx
  kernels_le : tx.kernels.length ≤ maxKernelsPerTx
  inputs : ∀ c ∈ tx.inputs, Parsed X c
  outputs : ∀ o ∈ tx.outputs, o.OnWire X
  kernels : ∀ k ∈ tx.kernels, Parsed X k.excess

structure CoinbaseTransaction.OnWire (cb : CoinbaseTransaction) : Prop where
  output : cb.output.OnWire X
  features : cb.kernel.features = kernelFeatCoinbase
  excess : Parsed X cb.kernel.excess

/-- Lists and proofs are within the wire limits, commitments are curve points, and the coinbase kernel says so. -/
structure Block.OnWire (b : Block) : Prop where
  coinbase : b.coinbase.OnWire X
  transactions_le : b.transactions.length ≤ maxBlockTxs
  transactions : ∀ tx ∈ b.transactions, tx.OnWire X

/-! ## Encodings, written out -/

variable {bs : List UInt8} {o : TransactionOutput}

theorem TransactionOutput.serialize_eq_ok :
    o.serialize = .ok bs ↔ o.proof.length < u32Bound ∧
      bs = commitmentBytes o.commitment ++ (leBytes 4 o.proof.length ++ o.proof) := by
  simp only [TransactionOutput.serialize, inversion, writeVec_eq_ok]
  constructor
  · rintro ⟨_, ⟨hlen, rfl⟩, rfl⟩
    exact ⟨hlen, rfl⟩
  · rintro ⟨hlen, rfl⟩
    exact ⟨_, ⟨hlen, rfl⟩, rfl⟩

variable {tx : Transaction}

theorem Transaction.serialize_eq_ok :
    tx.serialize = .ok bs ↔ ∃ inputs outputs kernels,
      writeList (fun c => pure (commitmentBytes c)) tx.inputs = .ok inputs ∧
      writeList TransactionOutput.serialize tx.outputs = .ok outputs ∧
      writeList (fun k => pure (TransactionKernel.serialize k)) tx.kernels = .ok kernels ∧
      bs = inputs ++ (outputs ++ (kernels ++ hashBytes tx.offset)) := by
  simp only [Transaction.serialize, inversion, List.append_assoc]
  constructor
  · rintro ⟨inputs, hi, outputs, ho, kernels, hk, rfl⟩
    exact ⟨inputs, outputs, kernels, hi, ho, hk, rfl⟩
  · rintro ⟨inputs, outputs, kernels, hi, ho, hk, rfl⟩
    exact ⟨inputs, hi, outputs, ho, kernels, hk, rfl⟩

variable {cb : CoinbaseTransaction}

theorem CoinbaseTransaction.serialize_eq_ok :
    cb.serialize = .ok bs ↔ ∃ output, cb.output.serialize = .ok output ∧
      bs = output ++ (cb.kernel.serialize ++ hashBytes cb.offset) := by
  simp only [CoinbaseTransaction.serialize, inversion, List.append_assoc]
  exact exists_congr fun output => and_congr_right fun _ => eq_comm

variable {b : Block}

theorem Block.serialize_eq_ok :
    b.serialize = .ok bs ↔ ∃ coinbase transactions, b.coinbase.serialize = .ok coinbase ∧
      writeList Transaction.serialize b.transactions = .ok transactions ∧
      bs = b.header.toBytes ++ (coinbase ++ transactions) := by
  simp only [Block.serialize, inversion, List.append_assoc]
  constructor
  · rintro ⟨coinbase, hc, transactions, ht, rfl⟩
    exact ⟨coinbase, transactions, hc, ht, rfl⟩
  · rintro ⟨coinbase, transactions, hc, ht, rfl⟩
    exact ⟨coinbase, hc, transactions, ht, rfl⟩

/-! ## Decoders read encodings back -/

variable {k : TransactionKernel} {maxCount minSize : Nat} {α : Type}

section Forward

variable {X}

theorem readsAs_hash (v : BitVec 256) : ReadsAs (Reader.readArray 32) (hashBytes v) v := ReadsAs.readArray (n := 32) v

theorem TransactionInput.deserialize_readsAs (h : Parsed X c) :
    ReadsAs (TransactionInput.deserialize X) (commitmentBytes c) c :=
  (ReadsAs.readArray (n := 33) c).last (ReadsAs.parse h)

variable {bs : List UInt8}

theorem TransactionOutput.deserialize_readsAs (h : o.OnWire X) (hbs : o.serialize = .ok bs) :
    ReadsAs (TransactionOutput.deserialize X) bs o := by
  obtain ⟨-, rfl⟩ := serialize_eq_ok.mp hbs
  exact (ReadsAs.readArray (n := 33) o.commitment).bind <| (ReadsAs.readVec h.proof (by decide)).last <|
    ReadsAs.parse_bind h.commitment <| ReadsAs.pure o

theorem Amount.deserialize_readsAs (a : Amount) : ReadsAs Amount.deserialize (leBytes 8 a.noms) a := by
  have hlt : a.noms < u64Bound := a.noms_le.trans_lt maxSupplyNoms_lt
  have hnat : (UInt64.ofNat a.noms).toNat = a.noms := UInt64.toNat_ofNat_of_lt' (by simpa [u64Bound] using hlt)
  have hfrom : Amount.fromNoms (UInt64.ofNat a.noms).toNat = .ok a := by
    rw [hnat, Amount.fromNoms, dif_pos a.noms_le]
  have hread : ReadsAs Amount.deserialize (writeU64 (UInt64.ofNat a.noms)) a :=
    (ReadsAs.readU64 (UInt64.ofNat a.noms)).last (ReadsAs.parse hfrom)
  rwa [writeU64, hnat] at hread

theorem TransactionKernel.deserialize_readsAs (h : Parsed X k.excess) :
    ReadsAs (TransactionKernel.deserialize X) k.serialize k := by
  simp only [TransactionKernel.serialize, List.append_assoc]
  exact (ReadsAs.readU8 k.features).bind <| (Amount.deserialize_readsAs k.fee).bind <|
    (ReadsAs.readU64 k.lockHeight).bind <| (ReadsAs.readArray (n := 33) k.excess).bind <|
    ReadsAs.parse_bind h <| (ReadsAs.readArray (n := 65) k.excessSignature).last <| ReadsAs.pure k

theorem CoinbaseKernel.deserialize_readsAs {k : CoinbaseKernel} (hfeatures : k.features = kernelFeatCoinbase)
    (h : Parsed X k.excess) : ReadsAs (CoinbaseKernel.deserialize X) k.serialize k := by
  simp only [CoinbaseKernel.serialize, List.append_assoc]
  exact (ReadsAs.readU8 k.features).bind <| ReadsAs.parse_bind (a := ()) (rejectIf_eq_ok.mpr (not_not.mpr hfeatures)) <|
    (ReadsAs.readU64 k.explicitValue).bind <| (ReadsAs.readArray (n := 33) k.excess).bind <|
    ReadsAs.parse_bind h <| (ReadsAs.readArray (n := 65) k.excessSignature).last <| ReadsAs.pure k

variable {w : α → Except DomError (List UInt8)} {items : List α}

theorem readsAs_list {p : ReadM α} (hbs : writeList w items = .ok bs) (hmin : 0 < minSize)
    (hread : ∀ a ∈ items, ∀ enc, w a = .ok enc → ReadsAs p enc a) (hsize : ∀ a enc, w a = .ok enc → minSize ≤ enc.length)
    (hcnt : items.length ≤ maxCount) (hmax : maxCount < u32Bound) : ReadsAs (Reader.readList p minSize maxCount) bs items := by
  obtain ⟨-, encs, hencs, rfl⟩ := writeList_eq_ok.mp hbs
  refine ReadsAs.readList hmin ?_ (hencs.imp fun a enc h => hsize a enc h) hcnt hmax
  exact ((List.forall₂_and_left items encs).mpr ⟨fun _ ha => ha, hencs⟩).imp fun a enc h => hread a h.1 enc h.2

/-! Every item has at least the size its decoder counts with. -/

theorem TransactionInput.size_le (c : Commitment) (enc : List UInt8)
    (h : (pure (commitmentBytes c) : Except DomError (List UInt8)) = .ok enc) :
    TransactionInput.minSerializedSize ≤ enc.length := by
  cases h
  simp [TransactionInput.minSerializedSize, commitmentBytes, writeArray]

theorem TransactionOutput.size_le (o : TransactionOutput) (enc : List UInt8) (h : o.serialize = .ok enc) :
    TransactionOutput.minSerializedSize ≤ enc.length := by
  obtain ⟨-, rfl⟩ := serialize_eq_ok.mp h
  simp [TransactionOutput.minSerializedSize, commitmentBytes, writeArray]
  omega

theorem TransactionKernel.length_serialize (k : TransactionKernel) : k.serialize.length = 115 := by
  simp [TransactionKernel.serialize, commitmentBytes, writeArray, writeU64]

theorem TransactionKernel.size_le (k : TransactionKernel) (enc : List UInt8)
    (h : (pure k.serialize : Except DomError (List UInt8)) = .ok enc) :
    TransactionKernel.minSerializedSize ≤ enc.length := by
  cases h
  rw [k.length_serialize]
  rfl

theorem length_writeList (h : writeList w items = .ok bs) : 4 ≤ bs.length := by
  obtain ⟨-, encs, -, rfl⟩ := writeList_eq_ok.mp h
  simp

theorem Transaction.size_le (tx : Transaction) (enc : List UInt8) (h : tx.serialize = .ok enc) :
    Transaction.minSerializedSize ≤ enc.length := by
  obtain ⟨inputs, outputs, kernels, hi, ho, hk, rfl⟩ := serialize_eq_ok.mp h
  have hi' := length_writeList hi
  have ho' := length_writeList ho
  have hk' := length_writeList hk
  simp only [Transaction.minSerializedSize, List.length_append, hashBytes, writeArray, length_beBytes]
  omega

theorem Transaction.deserialize_readsAs (h : tx.OnWire X) (hbs : tx.serialize = .ok bs) :
    ReadsAs (Transaction.deserialize X) bs tx := by
  obtain ⟨inputs, outputs, kernels, hi, ho, hk, rfl⟩ := serialize_eq_ok.mp hbs
  have hins := readsAs_list (p := TransactionInput.deserialize X) hi (by decide) (fun c hc enc henc => by
    cases henc
    exact TransactionInput.deserialize_readsAs (h.inputs c hc)) TransactionInput.size_le h.inputs_le (by decide)
  have houts := readsAs_list (p := TransactionOutput.deserialize X) ho (by decide) (fun o ho enc henc =>
    TransactionOutput.deserialize_readsAs (h.outputs o ho) henc) TransactionOutput.size_le h.outputs_le (by decide)
  have hkers := readsAs_list (p := TransactionKernel.deserialize X) hk (by decide) (fun k hk enc henc => by
    cases henc
    exact TransactionKernel.deserialize_readsAs (h.kernels k hk)) TransactionKernel.size_le h.kernels_le (by decide)
  exact hins.bind <| houts.bind <| hkers.bind <| (readsAs_hash tx.offset).last <| ReadsAs.pure tx

theorem CoinbaseTransaction.deserialize_readsAs (h : cb.OnWire X)
    (hbs : cb.serialize = .ok bs) : ReadsAs (CoinbaseTransaction.deserialize X) bs cb := by
  obtain ⟨output, ho, rfl⟩ := serialize_eq_ok.mp hbs
  exact (TransactionOutput.deserialize_readsAs h.output ho).bind <|
    (CoinbaseKernel.deserialize_readsAs h.features h.excess).bind <| (readsAs_hash cb.offset).last <| ReadsAs.pure cb

theorem Block.deserialize_readsAs (h : b.OnWire X) (hbs : b.serialize = .ok bs) :
    ReadsAs (Block.deserialize X) bs b := by
  obtain ⟨coinbase, transactions, hc, ht, rfl⟩ := serialize_eq_ok.mp hbs
  have htransactions := readsAs_list (p := Transaction.deserialize X) ht (by decide)
    (fun tx htx enc henc => Transaction.deserialize_readsAs (h.transactions tx htx) henc) Transaction.size_le
    h.transactions_le (by decide)
  exact b.header.deserialize_readsAs.bind <| (CoinbaseTransaction.deserialize_readsAs h.coinbase hc).bind <|
    htransactions.last <| ReadsAs.pure b

end Forward

/-! ## Decoders accept encodings only -/

section Backward

variable {X} {r r' : Reader}

theorem took_hash {v : BitVec 256} (h : Reader.readArray 32 r = .ok (v, r')) : Took r (hashBytes v) r' :=
  Took.of_readArray (n := 32) h

theorem took_commitment (h : Reader.readArray 33 r = .ok (c, r')) : Took r (commitmentBytes c) r' :=
  Took.of_readArray (n := 33) h

theorem TransactionInput.deserialize_took (h : TransactionInput.deserialize X r = .ok (c, r')) :
    Parsed X c ∧ Took r (commitmentBytes c) r' := by
  obtain ⟨bytes, r₁, hbyt, hprs⟩ := readM_bind_eq_ok.mp h
  obtain ⟨hok, rfl⟩ := Took.of_parse hprs
  obtain ⟨rfl, hprsd⟩ := parsed_of_ok X hok
  exact ⟨hprsd, took_commitment hbyt⟩

theorem TransactionOutput.deserialize_took
    (h : TransactionOutput.deserialize X r = .ok (o, r')) :
    ∃ bs, (o.serialize = .ok bs ∧ o.OnWire X) ∧ Took r bs r' := by
  simp only [TransactionOutput.deserialize, readM_bind_eq_ok, readM_pure_eq_ok] at h
  obtain ⟨bytes, r₁, hbyt, proof, r₂, hprf, c, r₃, hprs, rfl, rfl⟩ := h
  obtain ⟨hok, rfl⟩ := Took.of_parse hprs
  obtain ⟨rfl, hprsd⟩ := parsed_of_ok X hok
  obtain ⟨hle, hlt, htook⟩ := Took.of_readVec hprf
  exact ⟨_, ⟨serialize_eq_ok.mpr ⟨hlt, rfl⟩, hprsd, hle⟩, (took_commitment hbyt).trans htook⟩

theorem Amount.deserialize_took {a : Amount} (h : Amount.deserialize r = .ok (a, r')) :
    Took r (leBytes 8 a.noms) r' := by
  obtain ⟨noms, r₁, hnoms, hprs⟩ := readM_bind_eq_ok.mp h
  obtain ⟨hok, rfl⟩ := Took.of_parse hprs
  have hsame : a.noms = noms.toNat := by
    unfold Amount.fromNoms at hok
    split at hok
    · cases hok
      rfl
    · cases hok
  rw [hsame]
  exact Took.of_readU64 hnoms

theorem TransactionKernel.deserialize_took
    (h : TransactionKernel.deserialize X r = .ok (k, r')) : Parsed X k.excess ∧ Took r k.serialize r' := by
  simp only [TransactionKernel.deserialize, readM_bind_eq_ok, readM_pure_eq_ok] at h
  obtain ⟨features, r₁, h₁, fee, r₂, h₂, lock, r₃, h₃, bytes, r₄, h₄, c, r₅, h₅, sig, r₆, h₆, rfl, rfl⟩ := h
  obtain ⟨hok, rfl⟩ := Took.of_parse h₅
  obtain ⟨rfl, hprsd⟩ := parsed_of_ok X hok
  refine ⟨hprsd, ?_⟩
  exact ((((Took.of_readU8 h₁).trans (Amount.deserialize_took h₂)).trans (Took.of_readU64 h₃)).trans
    (took_commitment h₄)).trans (Took.of_readArray (n := 65) h₆)

theorem CoinbaseKernel.deserialize_took {k : CoinbaseKernel} (h : CoinbaseKernel.deserialize X r = .ok (k, r')) :
    k.features = kernelFeatCoinbase ∧ Parsed X k.excess ∧ Took r k.serialize r' := by
  simp only [CoinbaseKernel.deserialize, readM_bind_eq_ok, readM_pure_eq_ok] at h
  obtain ⟨features, r₁, h₁, u, r₂, h₂, value, r₃, h₃, bytes, r₄, h₄, c, r₅, h₅, sig, r₆, h₆, rfl, rfl⟩ := h
  obtain ⟨hchk, rfl⟩ := Took.of_parse h₂
  obtain ⟨hok, rfl⟩ := Took.of_parse h₅
  obtain ⟨rfl, hprsd⟩ := parsed_of_ok X hok
  refine ⟨not_not.mp (rejectIf_eq_ok.mp hchk), hprsd, ?_⟩
  exact (((Took.of_readU8 h₁).trans (Took.of_readU64 h₃)).trans (took_commitment h₄)).trans
    (Took.of_readArray (n := 65) h₆)

variable {w : α → Except DomError (List UInt8)} {items : List α}

theorem took_list {p : ReadM α} {P : α → Prop} (hp : ∀ r a r', p r = .ok (a, r') → ∃ bs, (w a = .ok bs ∧ P a) ∧ Took r bs r')
    (h : Reader.readList p minSize maxCount r = .ok (items, r')) :
    items.length ≤ maxCount ∧ (∀ a ∈ items, P a) ∧ ∃ bs, writeList w items = .ok bs ∧ Took r bs r' := by
  obtain ⟨hle, hlt, encs, hencs, htook⟩ := Took.of_readList hp h
  have hgood : ∀ a ∈ items, P a := by
    intro a ha
    obtain ⟨_, -, hone⟩ := exists_of_forall₂ hencs ha
    exact hone.2
  exact ⟨hle, hgood, _, writeList_eq_ok.mpr ⟨hlt, encs, hencs.imp fun _ _ hone => hone.1, rfl⟩, htook⟩

theorem Transaction.deserialize_took (h : Transaction.deserialize X r = .ok (tx, r')) :
    ∃ bs, (tx.serialize = .ok bs ∧ tx.OnWire X) ∧ Took r bs r' := by
  simp only [Transaction.deserialize, readM_bind_eq_ok, readM_pure_eq_ok] at h
  obtain ⟨inputs, r₁, h₁, outputs, r₂, h₂, kernels, r₃, h₃, offset, r₄, h₄, rfl, rfl⟩ := h
  obtain ⟨hile, hi, ibs, hiw, hitook⟩ := took_list (w := fun c => pure (commitmentBytes c)) (P := Parsed X)
    (fun _ _ _ hone => ⟨_, ⟨rfl, (TransactionInput.deserialize_took hone).1⟩,
      (TransactionInput.deserialize_took hone).2⟩) h₁
  obtain ⟨hole, ho, obs, how, hotook⟩ := took_list (P := TransactionOutput.OnWire X)
    (fun _ _ _ hone => TransactionOutput.deserialize_took hone) h₂
  obtain ⟨hkle, hk, kbs, hkw, hktook⟩ := took_list (w := fun k => pure (TransactionKernel.serialize k))
    (P := fun k => Parsed X k.excess) (fun _ _ _ hone => ⟨_, ⟨rfl, (TransactionKernel.deserialize_took hone).1⟩,
      (TransactionKernel.deserialize_took hone).2⟩) h₃
  refine ⟨_, ⟨serialize_eq_ok.mpr ⟨ibs, obs, kbs, hiw, how, hkw, rfl⟩, hile, hole, hkle, hi, ho, hk⟩, ?_⟩
  exact hitook.trans (hotook.trans (hktook.trans (took_hash h₄)))

theorem CoinbaseTransaction.deserialize_took
    (h : CoinbaseTransaction.deserialize X r = .ok (cb, r')) :
    ∃ bs, (cb.serialize = .ok bs ∧ cb.OnWire X) ∧ Took r bs r' := by
  simp only [CoinbaseTransaction.deserialize, readM_bind_eq_ok, readM_pure_eq_ok] at h
  obtain ⟨output, r₁, h₁, kernel, r₂, h₂, offset, r₃, h₃, rfl, rfl⟩ := h
  obtain ⟨obs, ⟨how, ho⟩, hotook⟩ := TransactionOutput.deserialize_took h₁
  obtain ⟨hfeatures, hexc, hktook⟩ := CoinbaseKernel.deserialize_took h₂
  exact ⟨_, ⟨serialize_eq_ok.mpr ⟨obs, how, rfl⟩, ho, hfeatures, hexc⟩,
    hotook.trans (hktook.trans (took_hash h₃))⟩

theorem Block.deserialize_took (h : Block.deserialize X r = .ok (b, r')) :
    ∃ bs, (b.serialize = .ok bs ∧ b.OnWire X) ∧ Took r bs r' := by
  simp only [Block.deserialize, readM_bind_eq_ok, readM_pure_eq_ok] at h
  obtain ⟨header, r₁, h₁, coinbase, r₂, h₂, transactions, r₃, h₃, rfl, rfl⟩ := h
  obtain ⟨cbs, ⟨hcw, hc⟩, hctook⟩ := CoinbaseTransaction.deserialize_took h₂
  obtain ⟨htle, ht, tbs, htw, httook⟩ := took_list (P := Transaction.OnWire X)
    (fun _ _ _ hone => Transaction.deserialize_took hone) h₃
  exact ⟨_, ⟨serialize_eq_ok.mpr ⟨cbs, tbs, hcw, htw, rfl⟩, hc, htle, ht⟩,
    (BlockHeader.deserialize_took h₁).trans (hctook.trans httook)⟩

end Backward

/-! ## Every block within the limits has an encoding -/

section Encodable

variable {X}

variable {w : α → Except DomError (List UInt8)} {items : List α}

/-- A list within its limit has an encoding, as long as its items have, and its length is bounded by theirs. -/
theorem writeList_ok {maxSize : Nat} (hitems : ∀ a ∈ items, ∃ enc, w a = .ok enc ∧ enc.length ≤ maxSize)
    (hcnt : items.length ≤ maxCount) (hmax : maxCount < u32Bound) :
    ∃ bs, writeList w items = .ok bs ∧ bs.length ≤ 4 + maxCount * maxSize := by
  have hencs : ∃ encs, List.Forall₂ (fun a enc => w a = .ok enc) items encs ∧
      encs.flatten.length ≤ items.length * maxSize := by
    clear hcnt
    induction items with
    | nil => exact ⟨[], .nil, by simp⟩
    | cons a items ih =>
      obtain ⟨enc, henc, hlen⟩ := hitems a List.mem_cons_self
      obtain ⟨encs, hencs, hflat⟩ := ih fun b hb => hitems b (List.mem_cons_of_mem _ hb)
      refine ⟨enc :: encs, .cons henc hencs, ?_⟩
      rw [List.flatten_cons, List.length_append, List.length_cons, Nat.succ_mul]
      omega
  obtain ⟨encs, hencs, hflat⟩ := hencs
  refine ⟨_, writeList_eq_ok.mpr ⟨by omega, encs, hencs, rfl⟩, ?_⟩
  have hle : items.length * maxSize ≤ maxCount * maxSize := Nat.mul_le_mul_right _ hcnt
  rw [List.length_append, length_leBytes]
  omega

theorem TransactionOutput.OnWire.serialize_ok (h : o.OnWire X) :
    ∃ bs, o.serialize = .ok bs ∧ bs.length ≤ 37 + maxOutputProofEnvelopeSize := by
  have hprf := h.proof
  have hlt : maxOutputProofEnvelopeSize < u32Bound := by decide
  refine ⟨_, serialize_eq_ok.mpr ⟨by omega, rfl⟩, ?_⟩
  simp only [List.length_append, commitmentBytes, writeArray, length_beBytes, length_leBytes]
  omega

/-- An upper bound on the encoding of a transaction. -/
def Transaction.maxSerializedSize : Nat :=
  (4 + maxInputsPerTx * 33) + (4 + maxOutputsPerTx * (37 + maxOutputProofEnvelopeSize)) + (4 + maxKernelsPerTx * 115) + 32

theorem Transaction.OnWire.serialize_ok (h : tx.OnWire X) :
    ∃ bs, tx.serialize = .ok bs ∧ bs.length ≤ Transaction.maxSerializedSize := by
  obtain ⟨inputs, hi, hilen⟩ := writeList_ok (w := fun c => pure (commitmentBytes c))
    (fun c _ => ⟨_, rfl, (by simp [commitmentBytes, writeArray] : (commitmentBytes c).length ≤ 33)⟩) h.inputs_le
    (by decide)
  obtain ⟨outputs, ho, holen⟩ := writeList_ok (fun o ho => (h.outputs o ho).serialize_ok) h.outputs_le (by decide)
  obtain ⟨kernels, hk, hklen⟩ := writeList_ok (w := fun k => pure (TransactionKernel.serialize k))
    (fun k _ => ⟨_, rfl, k.length_serialize.le⟩) h.kernels_le (by decide)
  refine ⟨_, serialize_eq_ok.mpr ⟨inputs, outputs, kernels, hi, ho, hk, rfl⟩, ?_⟩
  simp only [List.length_append, hashBytes, writeArray, length_beBytes, Transaction.maxSerializedSize]
  omega

theorem CoinbaseTransaction.OnWire.serialize_ok (h : cb.OnWire X) :
    ∃ bs, cb.serialize = .ok bs ∧ bs.length ≤ 37 + maxOutputProofEnvelopeSize + 107 + 32 := by
  obtain ⟨output, ho, holen⟩ := h.output.serialize_ok
  refine ⟨_, serialize_eq_ok.mpr ⟨output, ho, rfl⟩, ?_⟩
  have hker : cb.kernel.serialize.length = 107 := by
    simp [CoinbaseKernel.serialize, commitmentBytes, writeArray, writeU64]
  simp only [List.length_append, hker, hashBytes, writeArray, length_beBytes]
  omega

theorem Block.OnWire.serialize_ok (h : b.OnWire X) :
    ∃ bs, b.serialize = .ok bs ∧ bs.length < u64Bound := by
  obtain ⟨coinbase, hc, hclen⟩ := h.coinbase.serialize_ok
  obtain ⟨transactions, ht, htlen⟩ := writeList_ok (fun tx htx => (h.transactions tx htx).serialize_ok)
    h.transactions_le (by decide)
  refine ⟨_, serialize_eq_ok.mpr ⟨coinbase, transactions, hc, ht, rfl⟩, ?_⟩
  have hbd : 256 + (37 + maxOutputProofEnvelopeSize + 107 + 32) +
      (4 + maxBlockTxs * Transaction.maxSerializedSize) < u64Bound := by decide
  simp only [List.length_append, BlockHeader.length_toBytes]
  omega

end Encodable

/-! ## Blocks -/

/-- The budget check of `read_list` accepts the encoding of every list, whatever follows it. -/
def BudgetAccepts {α : Type} (w : α → Except DomError (List UInt8)) (minSize : Nat) : Prop :=
  ∀ (items : List α) (bs rest : List UInt8), writeList w items = .ok bs → (bs ++ rest).length < u64Bound →
    ∃ required, Reader.classifyListBudget items.length minSize ((bs ++ rest).length - 4) = .Valid required

variable {w : α → Except DomError (List UInt8)}

theorem budgetAccepts_of_size (hmin : 0 < minSize) (hsize : ∀ a enc, w a = .ok enc → minSize ≤ enc.length) :
    BudgetAccepts w minSize := by
  intro items bs rest hbs hbd
  obtain ⟨-, encs, hencs, rfl⟩ := writeList_eq_ok.mp hbs
  refine ⟨_, ReadsAs.classifyListBudget_valid hmin (hencs.imp fun a enc h => hsize a enc h) ?_ ?_⟩
  · simp only [List.length_append, length_leBytes]
    omega
  · omega

/-- **The canonical wire form of blocks.**  A block within the wire limits has an encoding and is decoded from it;
    whatever is accepted as a block is the encoding of that block; and the budget check never refuses a list that was
    encoded, for any of the four item types. -/
theorem block_wire_canonical :
    (∀ b : Block, b.OnWire X → ∃ data, b.serialize = .ok data ∧ Block.fromBytes X data = .ok b) ∧
      (∀ (data : List UInt8) (b : Block), Block.fromBytes X data = .ok b → b.serialize = .ok data) ∧
      BudgetAccepts (fun c => pure (commitmentBytes c)) TransactionInput.minSerializedSize ∧
      BudgetAccepts TransactionOutput.serialize TransactionOutput.minSerializedSize ∧
      BudgetAccepts (fun k => pure (TransactionKernel.serialize k)) TransactionKernel.minSerializedSize ∧
      BudgetAccepts Transaction.serialize Transaction.minSerializedSize := by
  refine ⟨fun b hb => ?_, fun data b hread => ?_, budgetAccepts_of_size (by decide) TransactionInput.size_le,
    budgetAccepts_of_size (by decide) TransactionOutput.size_le,
    budgetAccepts_of_size (by decide) TransactionKernel.size_le,
    budgetAccepts_of_size (by decide) Transaction.size_le⟩
  · obtain ⟨data, hdata, hlen⟩ := hb.serialize_ok
    exact ⟨data, hdata, (Block.deserialize_readsAs hb hdata).fromBytes hlen⟩
  · exact (Took.of_fromBytes (fun _ _ _ hone => Block.deserialize_took hone) hread).1

namespace Miniature

/-- A block that spends the genesis output. -/
def spendingGenesis : Block :=
  mine 100 genesis 11 (genesisTimestampRegtest + 1) 8 [transfer [(3300000000, 7)] [(3300000000, 1000)]]

theorem parsed (c : Commitment) : Parsed libraries c := rfl

end Miniature

open Miniature

/-- The block that spends the genesis output goes over the wire and comes back. -/
theorem spendingGenesis_wire : ∃ data, Miniature.spendingGenesis.serialize = .ok data ∧
      Block.fromBytes Miniature.libraries data = .ok Miniature.spendingGenesis := by
  refine (block_wire_canonical libraries).1 _
    ⟨⟨⟨parsed _, by decide +kernel⟩, rfl, parsed _⟩, by decide, ?_⟩
  intro tx htx
  obtain rfl : tx = transfer [(3300000000, 7)] [(3300000000, 1000)] := List.mem_singleton.mp htx
  refine ⟨by decide, by decide, by decide, fun c _ => parsed c, fun o ho => ?_, fun k _ => parsed _⟩
  obtain rfl : o = output (3300000000, 1000) := List.mem_singleton.mp ho
  exact ⟨parsed _, by decide +kernel⟩

end DomProtocol
