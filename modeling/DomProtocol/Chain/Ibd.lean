import DomProtocol.Chain.Connect

/-!
# `Chain.Ibd` — the header prefilter of initial block download

`validateIbdHeadersBatch` checks a whole page of headers before any body is requested;
`validateIbdHeaderStep` checks one header of a persisted page and resumes from a cursor.  Both look for ancestors
first among the headers of the page and then in the canonical height index.
-/

namespace DomProtocol

open Lib

/-- A decoded header of a page: its identifier, and whether the store has it already. -/
structure DecodedHeader where
  header : BlockHeader
  hash : Hash256
  isKnown : Bool

namespace ChainState

/-! ## Ancestors of a page -/

/-- Timestamps of canonical headers from a height down, until `needed` are found. -/
def canonicalTimestampsDown (store : DomStore) : Nat → Nat → List Nat
  | height, needed =>
    let found := store.heightIndex[height]?.bind fun hash =>
      store.blocks[hash]?.map fun header => header.timestamp.toNat
    match height, found with
    | 0, some timestamp => [timestamp]
    | 0, none => []
    | height + 1, some timestamp =>
      if needed = 1 then [timestamp]
      else timestamp :: canonicalTimestampsDown store height (needed - 1)
    | height + 1, none => canonicalTimestampsDown store height needed

/-- Timestamps before a page header: the page first, then the canonical chain below it. -/
def collectIbdAncestorTimestamps (store : DomStore) (currentHeight : Nat)
    (priorHeaders : List BlockHeader) (count : Nat) : List Nat :=
  let timestamps := (priorHeaders.reverse.take count).map (·.timestamp.toNat)
  if timestamps.length = count then timestamps
  else
    timestamps ++ canonicalTimestampsDown store (currentHeight - (priorHeaders.length + 1))
      (count - timestamps.length)

/-- The RandomX seed for a page header: a page header at the seed height, or the canonical one. -/
def computeRandomxSeedWithBatch (store : DomStore) (height : Nat) (batch : List DecodedHeader) :
    Except DomError Hash256 :=
  let seedHeight := randomxSeedHeight height
  match batch.find? fun d => d.header.height.toNat = seedHeight with
  | some d => .ok d.hash
  | none =>
    if store.heightIndex[seedHeight]? ≠ none then computeRandomxSeed store height
    else if seedHeight = 0 then .ok Hash256.zero
    else
      .error (.internal
        (s!"RandomX seed block at height {seedHeight} not available "
          ++ s!"(needed for block at height {height})"))

/-- The parent of a page header: the header before it, or the stored parent of the first one. -/
def batchParent (store : DomStore) (prior : List DecodedHeader) (header : BlockHeader) :
    Except DomError BlockHeader :=
  match prior.getLast? with
  | some d => .ok d.header
  | none =>
    okOr store.blocks[header.prevHash]? (.internal "parent missing after IBD parent precheck")

/-! ## Checks on one header of a page -/

/-- The first header attaches to a stored block; every other header to the one before it. -/
def checkBatchLink (store : DomStore) (prior : List DecodedHeader) (header : BlockHeader) :
    Except DomError Unit :=
  let prevHex := header.prevHash.toHex
  match prior.getLast? with
  | none =>
    rejectIf (header.height.toNat ≠ 0 ∧ store.blocks[header.prevHash]? = none)
      (.orphan s!"IBD header batch starts at unknown parent {prevHex}")
  | some previous => do
      let expectedHeight ← okOr (checkedNext previous.header.height)
        (.invalid "block height overflow")
      rejectIf (header.height.toNat ≠ expectedHeight)
        (.invalid s!"IBD header gap: expected height {expectedHeight}, got {header.height}")
      let expectedHex := previous.hash.toHex
      rejectIf (header.prevHash ≠ previous.hash)
        (DomError.invalid
          (s!"IBD header prev_hash mismatch at height {header.height}: expected {expectedHex}, "
            ++ s!"got {prevHex}"))

variable (X : Externals)

/-- Decode a raw header and look its identifier up. -/
def decodeHeader (S : ChainState) (headerBytes : List UInt8) : Except DomError DecodedHeader := do
  let header ← BlockHeader.fromBytes headerBytes
  let hash ← canonicalHeaderIdentifier X S.networkMagic headerBytes
  return { header, hash, isKnown := S.store.blocks[hash]?.isSome }

/-- The rules for a header the store does not have; `seedBatch` is where its seed block may be. -/
def validateUnknownHeader (S : ChainState) (now : UInt64) (prior seedBatch : List DecodedHeader)
    (d : DecodedHeader) : Except DomError Unit := do
  let header := d.header
  validateHeaderSyntax header S.networkMagic
  S.validateGenesisIdentity header d.hash
  let parent ←
    (if header.height.toNat ≠ 0 then do
      let parent ← batchParent S.store prior header
      validateParentTimestampProgression header parent
      validateMedianTimePast header (collectIbdAncestorTimestamps S.store header.height.toNat
        (prior.map (·.header)) medianTimeWindow)
      return some parent
    else .ok none)
  validateFutureTimestampWithLimit header now.toNat S.maxFutureBlockTime
  let seed ← computeRandomxSeedWithBatch S.store header.height.toNat seedBatch
  validatePowForNetwork X S.networkMagic header seed
  (match parent with
    | some parentHeader => validateExpectedTarget S.networkMagic header parentHeader
    | none => .ok ())
  validateTotalDifficulty S.networkMagic header ((parent.map (·.totalDifficulty)).getD 0)

/-! ## The two validators -/

/-- Check the headers after `prior`; `all` is the whole page. -/
def validateBatchFrom (S : ChainState) (now : UInt64) (all : List DecodedHeader) :
    List DecodedHeader → List DecodedHeader → Except DomError (List Hash256)
  | _, [] => .ok []
  | prior, d :: rest => do
      checkBatchLink S.store prior d.header
      if d.isKnown then validateBatchFrom S now all (prior ++ [d]) rest
      else do
        S.validateUnknownHeader X now prior all d
        return d.hash :: (← validateBatchFrom S now all (prior ++ [d]) rest)

/-- Validate a page of raw headers; the result lists the identifiers the store does not have. -/
def validateIbdHeadersBatch (S : ChainState) (rawHeaders : List (List UInt8)) (now : UInt64) :
    Except DomError (List Hash256) := do
  let decoded ← rawHeaders.mapM (S.decodeHeader X)
  S.validateBatchFrom X now decoded [] decoded

/-- Decode and link the verified headers of a page, collecting the identifiers the store does not have. -/
def decodeVerifiedPrefix (S : ChainState) :
    List DecodedHeader → List (List UInt8) → Except DomError (List DecodedHeader × List Hash256)
  | prior, [] => .ok (prior, [])
  | prior, bytes :: rest => do
      let d ← S.decodeHeader X bytes
      checkBatchLink S.store prior d.header
      let (decoded, observedMissing) ← decodeVerifiedPrefix S (prior ++ [d]) rest
      return (decoded, if d.isKnown then observedMissing else d.hash :: observedMissing)

/-- Validate the header at the cursor of a persisted page. -/
def validateIbdHeaderStep (S : ChainState) (rawHeaders : List (List UInt8)) (verifiedHeaderCount : Nat)
    (priorMissingHashes : List Hash256) (now : UInt64) : Except DomError (Nat × List Hash256) := do
  rejectIf (verifiedHeaderCount ≥ rawHeaders.length)
    (DomError.policyRejected
      (s!"persisted header cursor {verifiedHeaderCount} exceeds pending header count "
        ++ s!"{rawHeaders.length}"))
  let (decodedPrefix, observedMissing) ←
    decodeVerifiedPrefix X S [] (rawHeaders.take verifiedHeaderCount)
  match rawHeaders.drop verifiedHeaderCount with
  | [] => throw (.internal "IBD header step finished without validating a header")
  | bytes :: _ => do
      let d ← S.decodeHeader X bytes
      checkBatchLink S.store decodedPrefix d.header
      -- hashes of the checkpoint that became known since are dropped before comparing
      let stillMissing := priorMissingHashes.filter fun hash => S.store.blocks[hash]? = none
      let observed := observedMissing.length
      let expected := stillMissing.length
      rejectIf (observedMissing ≠ stillMissing)
        (DomError.policyRejected
          (s!"persisted IBD header prefix mismatch: observed {observed} missing hashes, "
            ++ s!"expected {expected}"))
      if d.isKnown then return (d.header.height.toNat, observedMissing)
      else
        S.validateUnknownHeader X now decodedPrefix decodedPrefix d
        return (d.header.height.toNat, observedMissing ++ [d.hash])

end ChainState

end DomProtocol
