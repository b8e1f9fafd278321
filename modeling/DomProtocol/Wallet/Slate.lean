import DomProtocol.Consensus.Binding
import DomProtocol.Crypto.Aggregate

/-!
# `Wallet.Slate` — the interactive slate and its three steps

The sender builds a slate from selected inputs, the recipient answers it with an output and a partial signature, and the
sender finalizes the answer into a transaction.  Random draws are arguments.  An output of a slate is a commitment with its
range proof, as an output of a transaction is.
-/

namespace DomProtocol.Wallet

open Lib

def currentSlateVersion : UInt16 := 3

/-- The extension that carries recovery capsules. -/
def recoverySlateVersion : UInt16 := 4

abbrev OutputCommitmentAndProof := TransactionOutput

/-- A nonzero scalar, as the random generators return it. -/
abbrev BlindingFactor := { bytes : BitVec 256 // isScalarValid bytes = true }

structure Slate where
  version : UInt16
  chainId : Hash256
  amount : UInt64
  fee : UInt64
  lockHeight : UInt64
  senderInputs : List Commitment
  senderChangeOutput : Option OutputCommitmentAndProof
  senderPublicExcess : BitVec 264
  senderPublicNonce : BitVec 264
  senderOffsetContribution : BitVec 256
  recipientOutput : Option OutputCommitmentAndProof
  recipientPublicExcess : Option (BitVec 264)
  recipientPublicNonce : Option (BitVec 264)
  senderPartialSig : Option (BitVec 256)
  recipientPartialSig : Option (BitVec 256)
  senderChangeRecoveryCapsule : List UInt8
  recipientRecoveryCapsule : List UInt8
  deriving DecidableEq

/-! ## Encoding -/

def writeOption {α : Type} (w : α → Except DomError (List UInt8)) : Option α → Except DomError (List UInt8)
  | some a => do return 1 :: (← w a)
  | none => return [0]

def writeCommitmentList (commitments : List Commitment) : Except DomError (List UInt8) := do
  rejectIf (¬ commitments.length < u32Bound) (.malformed "sender input count exceeds u32")
  return leBytes 4 commitments.length ++ (commitments.map commitmentBytes).flatten

namespace Slate

/-- The capsules, which only the recovery version carries. -/
def serializeCapsules (s : Slate) : Except DomError (List UInt8) :=
  if s.version = recoverySlateVersion then do
    return (← writeVec s.senderChangeRecoveryCapsule) ++ (← writeVec s.recipientRecoveryCapsule)
  else do
    rejectIf (s.senderChangeRecoveryCapsule ≠ [] ∨ s.recipientRecoveryCapsule ≠ [])
      (.invalid "Slate version 3 cannot carry recovery capsules")
    return []

def serialize (s : Slate) : Except DomError (List UInt8) := do
  let inputs ← writeCommitmentList s.senderInputs
  let change ← writeOption TransactionOutput.serialize s.senderChangeOutput
  let recipient ← writeOption TransactionOutput.serialize s.recipientOutput
  let publicExcess ← writeOption (fun pk => pure (commitmentBytes pk)) s.recipientPublicExcess
  let publicNonce ← writeOption (fun pk => pure (commitmentBytes pk)) s.recipientPublicNonce
  let senderSig ← writeOption (fun sig => pure (hashBytes sig)) s.senderPartialSig
  let recipientSig ← writeOption (fun sig => pure (hashBytes sig)) s.recipientPartialSig
  let capsules ← s.serializeCapsules
  return writeU16 s.version.toNat ++ hashBytes s.chainId ++ writeU64 s.amount ++ writeU64 s.fee ++ writeU64 s.lockHeight
    ++ inputs ++ change ++ commitmentBytes s.senderPublicExcess ++ commitmentBytes s.senderPublicNonce
    ++ hashBytes s.senderOffsetContribution ++ recipient ++ publicExcess ++ publicNonce ++ senderSig ++ recipientSig
    ++ capsules

/-- An output and its capsule come together. -/
def validateCapsule (output : Option OutputCommitmentAndProof) (capsule : List UInt8) (message : String) :
    Except DomError Unit := do
  rejectIf (output.isSome = capsule.isEmpty) (.invalid message)
  if capsule ≠ [] then
    let _ ← TransactionOutput.parseRecoveryCapsule capsule

def validateRecoveryCapsules (s : Slate) : Except DomError Unit := do
  validateCapsule s.senderChangeOutput s.senderChangeRecoveryCapsule
    "Slate recovery extension change output/capsule mismatch"
  validateCapsule s.recipientOutput s.recipientRecoveryCapsule
    "Slate recovery extension recipient output/capsule mismatch"

def validate (s : Slate) : Except DomError Unit := do
  rejectIf (s.version ≠ currentSlateVersion ∧ s.version ≠ recoverySlateVersion)
    (.invalid s!"unsupported slate version {s.version}")
  if s.version = recoverySlateVersion then
    s.validateRecoveryCapsules
  let _ ← Amount.fromNoms s.amount.toNat
  let _ ← Amount.fromNoms s.fee.toNat

end Slate

/-- The sender's view of a slate, without the recipient's answer. -/
def senderPhaseSlate (s : Slate) : Slate :=
  { s with
    recipientOutput := none
    recipientPublicExcess := none
    recipientPublicNonce := none
    senderPartialSig := none
    recipientPartialSig := none
    recipientRecoveryCapsule := [] }

/-! ## The three steps -/

inductive SlateError where
  | UnsupportedVersion (version expected : UInt16)
  | ChainIdMismatch
  | RecipientFieldsPresent
  | MissingRecipientField (field : String)
  | SignatureVerificationFailed
  | Crypto (message : String)
  deriving DecidableEq, Repr

/-- A failure of a library step, with the text of its context. -/
def crypto {α : Type} (context : String) (x : Except DomError α) : Except SlateError α :=
  x.mapError fun e => .Crypto s!"{context}: {e}"

structure SlateInput where
  commitment : Commitment
  blinding : BitVec 256

structure ChangeMaterial where
  commitment : Commitment
  value : Nat
  blinding : BitVec 256

structure SenderSlate where
  slate : Slate
  excessBlinding : BitVec 256
  nonce : BitVec 256
  change : Option ChangeMaterial

structure SendDraws where
  changeBlinding : BlindingFactor
  offset : BlindingFactor
  nonce : BlindingFactor

structure ReceiveDraws where
  blinding : BlindingFactor
  nonce : BlindingFactor

def validateSlateVersion (s : Slate) : Except SlateError Unit := do
  rejectIf (s.version ≠ currentSlateVersion ∧ s.version ≠ recoverySlateVersion)
    (.UnsupportedVersion s.version recoverySlateVersion)
  if s.version = recoverySlateVersion then
    s.validate.mapError fun e => .Crypto (toString e)

def rangeProofFromBytes (bytes : List UInt8) : Except DomError (List UInt8) := do
  rejectIf (bytes.length ≠ rangeProofSize)
    (.invalid s!"range proof length {bytes.length} != {rangeProofSize}")
  return bytes

/-- `x_S = change - sum(inputs) - offset` in the scalar field. -/
def senderExcessBlinding (inputBlindings : List (BitVec 256)) (changeBlinding : Option (BitVec 256))
    (senderOffset : BitVec 256) : Except SlateError (BitVec 256) := do
  let scalar (bytes : BitVec 256) : Except SlateError Nat := okOr (scalarFromBytes bytes) (.Crypto "invalid scalar bytes")
  let change ← match changeBlinding with
    | some b => scalar b
    | none => pure 0
  let acc ← inputBlindings.foldlM (fun acc b => do return (acc + (secp256k1N - (← scalar b))) % secp256k1N) change
  let acc := (acc + (secp256k1N - (← scalar senderOffset))) % secp256k1N
  rejectIf (acc = 0) (.Crypto "sender excess blinding unexpectedly became zero")
  return BitVec.ofNat 256 acc

/-- The feature byte a lock height implies. -/
def slateKernelFeatures (lockHeight : UInt64) : UInt8 :=
  if lockHeight = 0 then kernelFeatPlain else kernelFeatHeightLocked

section Steps

variable (X : Externals)

def slateKernelMessage (fee lockHeight : UInt64) : Except SlateError Hash256 := do
  let _ ← crypto "invalid kernel fee" (Amount.fromNoms fee.toNat)
  return blake2b256Tagged X "DOM:kernel-msg:v1"
    ([slateKernelFeatures lockHeight] ++ writeU64 fee ++ writeU64 lockHeight)

/-- An output of the sender or the recipient with a fresh proof. -/
def provenOutput (role : String) (value : Nat) (blinding : BitVec 256) :
    Except SlateError OutputCommitmentAndProof := do
  let (proofBytes, commitmentBytes) ← crypto s!"{role} range proof failed" (bpProve X value blinding)
  let proof ← crypto s!"{role} range proof invalid" (rangeProofFromBytes proofBytes)
  let commitment ← crypto s!"{role} commitment invalid" (commitmentFromCompressedBytes X commitmentBytes)
  return ⟨commitment, proof⟩

/-- The change output, unless the inputs are spent exactly. -/
def buildChange (changeValue : Nat) (blinding : BitVec 256) : Except SlateError (Option OutputCommitmentAndProof) :=
  if changeValue > 0 then do return some (← provenOutput X "change" changeValue blinding)
  else return none

def buildSendWithLockHeight (inputs : List SlateInput) (changeValue : Nat) (amount fee : UInt64) (chainId : Hash256)
    (lockHeight : UInt64) (draws : SendDraws) : Except SlateError SenderSlate := do
  let change ← buildChange X changeValue draws.changeBlinding.val
  let excessBlinding ← senderExcessBlinding (inputs.map (·.blinding)) (change.map fun _ => draws.changeBlinding.val)
    draws.offset.val
  let senderExcessKey ← crypto "sender excess key invalid" (secretKeyFromBytes excessBlinding)
  let senderInputs ← crypto "sender input commitment invalid"
    (inputs.mapM fun i => commitmentFromCompressedBytes X i.commitment)
  return { slate := { version := currentSlateVersion
                      chainId := chainId
                      amount := amount
                      fee := fee
                      lockHeight := lockHeight
                      senderInputs := senderInputs
                      senderChangeOutput := change
                      senderPublicExcess := publicKeyOf X senderExcessKey
                      senderPublicNonce := publicKeyOf X draws.nonce.val
                      senderOffsetContribution := draws.offset.val
                      recipientOutput := none
                      recipientPublicExcess := none
                      recipientPublicNonce := none
                      senderPartialSig := none
                      recipientPartialSig := none
                      senderChangeRecoveryCapsule := []
                      recipientRecoveryCapsule := [] }
           excessBlinding := excessBlinding
           nonce := draws.nonce.val
           change := change.map fun output => ⟨output.commitment, changeValue, draws.changeBlinding.val⟩ }

def buildSend (inputs : List SlateInput) (changeValue : Nat) (amount fee : UInt64) (chainId : Hash256)
    (draws : SendDraws) : Except SlateError SenderSlate :=
  buildSendWithLockHeight X inputs changeValue amount fee chainId 0 draws

/-- The recipient's answer, with the blinding of the new output. -/
def respondReceive (slate : Slate) (expectedChainId : Hash256) (draws : ReceiveDraws) :
    Except SlateError (Slate × BitVec 256) := do
  validateSlateVersion slate
  rejectIf (slate.version ≠ currentSlateVersion) (.UnsupportedVersion slate.version currentSlateVersion)
  rejectIf (slate.chainId ≠ expectedChainId) .ChainIdMismatch
  rejectIf (slate.recipientOutput.isSome ∨ slate.recipientPublicExcess.isSome ∨ slate.recipientPublicNonce.isSome ∨
    slate.recipientPartialSig.isSome) .RecipientFieldsPresent
  let _ ← crypto "invalid slate amount" (Amount.fromNoms slate.amount.toNat)
  let _ ← crypto "invalid slate fee" (Amount.fromNoms slate.fee.toNat)
  let recipientOutput ← provenOutput X "recipient" slate.amount.toNat draws.blinding.val
  let recipientExcessKey ← crypto "recipient excess key invalid" (secretKeyFromBytes draws.blinding.val)
  let recipientPublicExcess := publicKeyOf X recipientExcessKey
  let recipientPublicNonce := publicKeyOf X draws.nonce.val
  let aggR ← crypto "aggregate nonce failed" (schnorrAddPublicKeys X [slate.senderPublicNonce, recipientPublicNonce])
  let aggP ← crypto "aggregate public excess failed"
    (schnorrAddPublicKeys X [slate.senderPublicExcess, recipientPublicExcess])
  let kernelMessage ← slateKernelMessage X slate.fee slate.lockHeight
  let recipientPartialSig ← crypto "recipient partial signature failed"
    (schnorrPartialSign X recipientExcessKey draws.nonce.val aggR aggP expectedChainId (hashBytes kernelMessage))
  return ({ slate with
            recipientOutput := some recipientOutput
            recipientPublicExcess := some recipientPublicExcess
            recipientPublicNonce := some recipientPublicNonce
            recipientPartialSig := some recipientPartialSig }, draws.blinding.val)

/-- An output with the capsule bound into its proof. -/
def withRecoveryCapsule (output : OutputCommitmentAndProof) (capsuleBytes : List UInt8) :
    Except DomError TransactionOutput := do
  let capsule ← TransactionOutput.parseRecoveryCapsule capsuleBytes
  rejectIf (output.proof.length ≠ rangeProofSize)
    (.invalid s!"range proof length {output.proof.length} != {rangeProofSize}")
  return ⟨output.commitment, output.proof ++ capsule⟩

/-- The optional change output, then the recipient's. -/
def slateOutputs (s : Slate) (recipientOutput : OutputCommitmentAndProof) : List TransactionOutput :=
  s.senderChangeOutput.toList ++ [recipientOutput]

def slateOutputsForFinalize (s : Slate) (recipientOutput : OutputCommitmentAndProof) :
    Except SlateError (List TransactionOutput) :=
  if s.version = currentSlateVersion then return slateOutputs s recipientOutput
  else do
    rejectIf (s.version ≠ recoverySlateVersion) (.UnsupportedVersion s.version recoverySlateVersion)
    let change ← s.senderChangeOutput.toList.mapM fun change =>
      (withRecoveryCapsule change s.senderChangeRecoveryCapsule).mapError fun e => .Crypto (toString e)
    let recipient ← (withRecoveryCapsule recipientOutput s.recipientRecoveryCapsule).mapError fun e => .Crypto (toString e)
    return change ++ [recipient]

/-- The sender's last step: sign, assemble, and check the whole transaction. -/
def finalizeSlate (s : Slate) (excessBlinding senderNonce : BitVec 256) (chainId : Hash256) :
    Except SlateError Transaction := do
  validateSlateVersion s
  rejectIf (s.chainId ≠ chainId) .ChainIdMismatch
  let recipientOutput ← okOr s.recipientOutput (.MissingRecipientField "output")
  let recipientPublicExcess ← okOr s.recipientPublicExcess (.MissingRecipientField "public excess")
  let recipientPublicNonce ← okOr s.recipientPublicNonce (.MissingRecipientField "public nonce")
  let recipientPartialSig ← okOr s.recipientPartialSig (.MissingRecipientField "partial signature")
  let aggR ← crypto "aggregate nonce failed" (schnorrAddPublicKeys X [s.senderPublicNonce, recipientPublicNonce])
  let aggP ← crypto "aggregate excess failed" (schnorrAddPublicKeys X [s.senderPublicExcess, recipientPublicExcess])
  let kernelMessage ← slateKernelMessage X s.fee s.lockHeight
  let senderExcessKey ← crypto "sender excess key invalid" (secretKeyFromBytes excessBlinding)
  let senderNonceKey ← crypto "sender nonce invalid" (secretKeyFromBytes senderNonce)
  let senderPartialSig ← crypto "sender partial signature failed"
    (schnorrPartialSign X senderExcessKey senderNonceKey aggR aggP chainId (hashBytes kernelMessage))
  let aggregateSig ← crypto "aggregate signature failed"
    (schnorrAggregateSigs [senderPartialSig, recipientPartialSig] aggR)
  let outputs ← slateOutputsForFinalize s recipientOutput
  let fee ← crypto "invalid kernel fee" (Amount.fromNoms s.fee.toNat)
  let excess ← crypto "kernel excess invalid" (commitmentFromCompressedBytes X aggP)
  let tx : Transaction :=
    { inputs := s.senderInputs
      outputs := outputs
      kernels := [{ features := slateKernelFeatures s.lockHeight
                    fee := fee
                    lockHeight := s.lockHeight
                    excess := excess
                    excessSignature := aggregateSig.toBytes }]
      offset := s.senderOffsetContribution }
  crypto "final slate tx structure invalid" (validateTransactionStructure tx)
  crypto "final slate range proof invalid" (validateRangeProofs X tx)
  crypto "final slate tx balance invalid" (validateBalanceEquation X tx)
  let valid ← crypto "final slate signature invalid"
    (schnorrVerify X aggregateSig aggP chainId (hashBytes kernelMessage))
  rejectIf (valid = false) .SignatureVerificationFailed
  return tx

end Steps

/-! ## The encoding is injective -/

theorem prefixCode_u16 : PrefixCode fun (v : UInt16) bs => bs = writeU16 v.toNat := by
  rintro v v' bs bs' rest rest' rfl rfl heq
  obtain ⟨hnat, hrest⟩ := prefixCode_le (n := 2) ⟨by simpa using v.toNat_lt, rfl⟩ ⟨by simpa using v'.toNat_lt, rfl⟩ heq
  exact ⟨UInt16.toNat_inj.mp hnat, hrest⟩

theorem prefixCode_writeVec : PrefixCode fun (data : List UInt8) bs => writeVec data = .ok bs := by
  intro data data' bs bs' rest rest' h h' heq
  obtain ⟨hlen, rfl⟩ := writeVec_eq_ok.mp h
  obtain ⟨hlen', rfl⟩ := writeVec_eq_ok.mp h'
  simp only [List.append_assoc] at heq
  obtain ⟨hcnt, hrest⟩ := prefixCode_count ⟨hlen, rfl⟩ ⟨hlen', rfl⟩ heq
  exact List.append_inj hrest hcnt

theorem prefixCode_writeOption {α : Type} {w : α → Except DomError (List UInt8)}
    (hw : PrefixCode fun a bs => w a = .ok bs) : PrefixCode fun o bs => writeOption w o = .ok bs := by
  intro o o' bs bs' rest rest' h h' heq
  cases o with
  | none =>
    cases h
    cases o' with
    | none =>
      cases h'
      exact ⟨rfl, List.cons.inj heq |>.2⟩
    | some a' =>
      obtain ⟨enc', -, rfl⟩ := map_eq_ok.mp h'
      cases (List.cons.inj heq).1
  | some a =>
    obtain ⟨enc, henc, rfl⟩ := map_eq_ok.mp h
    cases o' with
    | none =>
      cases h'
      cases (List.cons.inj heq).1
    | some a' =>
      obtain ⟨enc', henc', rfl⟩ := map_eq_ok.mp h'
      obtain ⟨rfl, hrest⟩ := hw henc henc' (List.cons.inj heq).2
      exact ⟨rfl, hrest⟩

theorem prefixCode_pureArray {n : Nat} :
    PrefixCode fun (v : BitVec (8 * n)) bs => (pure (writeArray v) : Except DomError (List UInt8)) = .ok bs := by
  intro v v' bs bs' rest rest' h h' heq
  cases h
  cases h'
  exact prefixCode_array rfl rfl heq

theorem prefixCode_writeCommitmentList :
    PrefixCode fun (l : List Commitment) bs => writeCommitmentList l = .ok bs := by
  have hencs : ∀ l : List Commitment, List.Forall₂ (fun c bs => bs = commitmentBytes c) l (l.map commitmentBytes) := by
    intro l
    induction l with
    | nil => exact .nil
    | cons c l ih => exact .cons rfl ih
  intro l l' bs bs' rest rest' h h' heq
  simp only [writeCommitmentList, inversion, not_not] at h h'
  obtain ⟨hlen, rfl⟩ := h
  obtain ⟨hlen', rfl⟩ := h'
  exact prefixCode_count.counted (prefixCode_array (n := 33)) ⟨_, _, ⟨hlen, rfl⟩, hencs l, rfl⟩
    ⟨_, _, ⟨hlen', rfl⟩, hencs l', rfl⟩ heq

namespace Slate

theorem serializeCapsules_inj {s s' : Slate} {bs : List UInt8} (hver : s.version = s'.version)
    (h : s.serializeCapsules = .ok bs) (h' : s'.serializeCapsules = .ok bs) :
    s.senderChangeRecoveryCapsule = s'.senderChangeRecoveryCapsule ∧
      s.recipientRecoveryCapsule = s'.recipientRecoveryCapsule := by
  unfold serializeCapsules at h h'
  rw [← hver] at h'
  by_cases hrcvy : s.version = recoverySlateVersion
  · rw [if_pos hrcvy] at h h'
    simp only [inversion] at h h'
    obtain ⟨change, hchg, recipient, hrcp, rfl⟩ := h
    obtain ⟨change', hchg', recipient', hrcp', heq⟩ := h'
    obtain ⟨hsame, rfl⟩ := prefixCode_writeVec hchg' hchg heq
    exact ⟨hsame.symm, prefixCode_writeVec.unique hrcp hrcp'⟩
  · rw [if_neg hrcvy] at h h'
    simp only [inversion, not_or, not_not] at h h'
    exact ⟨h.1.1.trans h'.1.1.symm, h.1.2.trans h'.1.2.symm⟩

/-- **Two slates with one encoding are one slate.** -/
theorem serialize_inj {s s' : Slate} {bs : List UInt8} (h : s.serialize = .ok bs) (h' : s'.serialize = .ok bs) :
    s = s' := by
  simp only [serialize, inversion] at h h'
  obtain ⟨inputs, hins, change, hchg, recipient, hrcp, excess, hexc, nonce, hnon, sig, hsig, answer, hanswer,
    capsules, hcapsules, rfl⟩ := h
  obtain ⟨inputs', hins', change', hchg', recipient', hrcp', excess', hexc', nonce', hnon', sig', hsig',
    answer', hanswer', capsules', hcapsules', heq⟩ := h'
  simp only [List.append_assoc] at heq
  -- field by field, in the order they are written
  obtain ⟨hver, h₁⟩ := prefixCode_u16 rfl rfl heq
  obtain ⟨hch, h₂⟩ := prefixCode_array (n := 32) rfl rfl h₁
  obtain ⟨hamt, h₃⟩ := prefixCode_u64 rfl rfl h₂
  obtain ⟨hfee, h₄⟩ := prefixCode_u64 rfl rfl h₃
  obtain ⟨hlock, h₅⟩ := prefixCode_u64 rfl rfl h₄
  obtain ⟨hsame₁, h₆⟩ := prefixCode_writeCommitmentList hins' hins h₅
  obtain ⟨hsame₂, h₇⟩ := prefixCode_writeOption prefixCode_output hchg' hchg h₆
  obtain ⟨hkey, h₈⟩ := prefixCode_array (n := 33) rfl rfl h₇
  obtain ⟨hpt, h₉⟩ := prefixCode_array (n := 33) rfl rfl h₈
  obtain ⟨hoff, h₁₀⟩ := prefixCode_array (n := 32) rfl rfl h₉
  obtain ⟨hsame₃, h₁₁⟩ := prefixCode_writeOption prefixCode_output hrcp' hrcp h₁₀
  obtain ⟨hsame₄, h₁₂⟩ := prefixCode_writeOption (prefixCode_pureArray (n := 33)) hexc' hexc h₁₁
  obtain ⟨hsame₅, h₁₃⟩ := prefixCode_writeOption (prefixCode_pureArray (n := 33)) hnon' hnon h₁₂
  obtain ⟨hsame₆, h₁₄⟩ := prefixCode_writeOption (prefixCode_pureArray (n := 32)) hsig' hsig h₁₃
  obtain ⟨hsame₇, h₁₅⟩ := prefixCode_writeOption (prefixCode_pureArray (n := 32)) hanswer' hanswer h₁₄
  subst h₁₅
  obtain ⟨hsame₈, hsame₉⟩ := serializeCapsules_inj hver.symm hcapsules hcapsules'
  cases s
  cases s'
  simp_all

end Slate

end DomProtocol.Wallet
