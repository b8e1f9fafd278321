import DomProtocol.Crypto.Primitives

/-!
# `Pow` — compact targets, ASERT and proof-of-work validation

Targets are 32-byte big-endian numbers.  The header stores them in a compact form whose three mantissa
bytes are laid out in the order the decoder of the source writes them, lowest mantissa byte first.
-/

namespace DomProtocol

open Lib

/-! ## Parameters -/

/-- Blocks between two rotations of the RandomX seed. -/
def randomxSeedInterval : Nat := 2048

/-- How far below the rotation height the seed block lies. -/
def randomxSeedOffset : Nat := 64

def targetSpacing : Nat := 120
def asertHalfLife : Nat := targetSpacing * 288
def maxCompactTarget : UInt32 := 0x1e7fffff
def testnetTargetCompact : UInt32 := 0x1e2eff7f
def regtestTargetCompact : UInt32 := maxCompactTarget
def mainnetAsertRescueHeight : Nat := 4849
def mainnetAsertRescueAnchorHeight : Nat := mainnetAsertRescueHeight - 1
def mainnetAsertRescueAnchorTimestamp : Nat := 1784653190
def mainnetAsertRescueMaxCompactTarget : UInt32 := 0x1f00ffff
def mainnetAsertRescueHalfLife : Nat := targetSpacing * 10

def minTargetBytes : BitVec 256 := 0xffff00000000#256
def maxTargetBytes : BitVec 256 := BitVec.ofNat 256 (2 ^ 240 - 1)

/-- Widest target the compact decoder accepts. -/
def maximumAcceptedTarget : BitVec 256 := BitVec.ofNat 256 (2 ^ 248 - 1)

/-- `floor (2^(i/256) * 65536)` for `i < 256`. -/
def asertFracTable : List Nat :=
  [65536, 65713, 65891, 66070, 66249, 66429, 66609, 66789, 66971, 67152, 67334, 67517, 67700,
   67883, 68067, 68252, 68437, 68623, 68809, 68995, 69182, 69370, 69558, 69747, 69936, 70125,
   70315, 70506, 70697, 70889, 71081, 71274, 71467, 71661, 71855, 72050, 72245, 72441, 72638,
   72834, 73032, 73230, 73429, 73628, 73827, 74027, 74228, 74429, 74631, 74833, 75036, 75240,
   75444, 75648, 75853, 76059, 76265, 76472, 76679, 76887, 77096, 77305, 77514, 77725, 77935,
   78147, 78359, 78571, 78784, 78998, 79212, 79427, 79642, 79858, 80074, 80292, 80509, 80727,
   80946, 81166, 81386, 81607, 81828, 82050, 82272, 82495, 82719, 82943, 83168, 83394, 83620,
   83846, 84074, 84302, 84530, 84759, 84989, 85220, 85451, 85682, 85915, 86148, 86381, 86615,
   86850, 87086, 87322, 87559, 87796, 88034, 88273, 88512, 88752, 88993, 89234, 89476, 89718,
   89962, 90206, 90450, 90695, 90941, 91188, 91435, 91683, 91932, 92181, 92431, 92681, 92933,
   93185, 93437, 93691, 93945, 94199, 94455, 94711, 94968, 95225, 95483, 95742, 96002, 96262,
   96523, 96785, 97047, 97310, 97574, 97839, 98104, 98370, 98637, 98904, 99172, 99441, 99711,
   99981, 100252, 100524, 100797, 101070, 101344, 101619, 101894, 102170, 102447, 102725, 103004,
   103283, 103563, 103844, 104125, 104408, 104691, 104975, 105259, 105545, 105831, 106118, 106405,
   106694, 106983, 107273, 107564, 107856, 108148, 108441, 108735, 109030, 109326, 109622, 109919,
   110217, 110516, 110816, 111116, 111418, 111720, 112023, 112326, 112631, 112936, 113243, 113550,
   113857, 114166, 114476, 114786, 115097, 115409, 115722, 116036, 116351, 116666, 116982, 117300,
   117618, 117936, 118256, 118577, 118898, 119221, 119544, 119868, 120193, 120519, 120846, 121173,
   121502, 121831, 122162, 122493, 122825, 123158, 123492, 123827, 124162, 124499, 124837, 125175,
   125514, 125855, 126196, 126538, 126881, 127225, 127570, 127916, 128263, 128611, 128959, 129309,
   129660, 130011, 130364, 130717]

/-! ## Compact targets -/

/-- The byte of a 32-byte array at big-endian index `i`. -/
def byteAt (t : BitVec 256) (i : Nat) : Nat := t.toNat / 256 ^ (31 - i) % 256

/-- Expand a compact target without bounds checks. -/
def compactToTargetUnchecked (bits : UInt32) : BitVec 256 :=
  let exponent := bits.toNat / 2 ^ 24
  let mantissa := bits.toNat % 2 ^ 23
  -- mantissa byte `j` lands `j + 1` places below the exponent, if there is such a place
  let place (j : Nat) : Nat :=
    if exponent ≥ j + 1 ∧ exponent - (j + 1) < 32 then
      mantissa / 256 ^ j % 256 * 256 ^ (exponent - (j + 1))
    else 0
  BitVec.ofNat 256 (place 0 + place 1 + place 2)

def validateTargetBounds (t : BitVec 256) : Except DomError Unit := do
  rejectIf (t > maximumAcceptedTarget) (.invalid "target > MAX_TARGET")
  rejectIf (t < minTargetBytes) (.invalid "target < MIN_TARGET")

/-- Expand a compact target to its 32-byte value. -/
def compactToTarget (bits : UInt32) : Except DomError (BitVec 256) :=
  let exponent := bits.toNat / 2 ^ 24
  if bits &&& 0x007fffff = 0 then .ok 0
  else do
    rejectIf (bits &&& 0x00800000 ≠ 0) (.invalid "negative compact target")
    rejectIf (exponent > 32) (.invalid s!"compact exponent {exponent} > 32")
    let target := compactToTargetUnchecked bits
    validateTargetBounds target
    return target

/-- Drop trailing zero bytes of a mantissa, lowering the exponent for each. -/
def stripMantissa : Nat → Nat → Nat → Nat × Nat
  | 0, size, mantissa => (size, mantissa)
  | fuel + 1, size, mantissa =>
    if size > 1 ∧ mantissa % 256 = 0 then stripMantissa fuel (size - 1) (mantissa / 256)
    else (size, mantissa)

/-- Up to three bytes of a target from `start` on, lowest mantissa byte first. -/
def mantissaAt (t : BitVec 256) (start : Nat) : Nat :=
  match 32 - start with
  | 0 => 0
  | 1 => byteAt t start
  | 2 => byteAt t start + 256 * byteAt t (start + 1)
  | _ => byteAt t start + 256 * byteAt t (start + 1) + 65536 * byteAt t (start + 2)

/-- Keep the better of the candidates seen so far and the one whose mantissa starts at `start`. -/
def targetToCompactStep (t : BitVec 256) (best : Option (UInt32 × BitVec 256)) (start : Nat) :
    Option (UInt32 × BitVec 256) :=
  let mantissa := mantissaAt t start
  if mantissa = 0 ∨ mantissa / 2 ^ 23 % 2 = 1 then best
  else
    let (size, mantissa) := stripMantissa 4 (32 - start) mantissa
    let compact := UInt32.ofNat (size * 2 ^ 24 + mantissa)
    match compactToTarget compact, best with
    | .error _, _ => best
    | .ok expanded, none => if expanded > t then best else some (compact, expanded)
    | .ok expanded, some (bestCompact, bestExpanded) =>
      if expanded > t then best
      else if expanded > bestExpanded ∨ (expanded = bestExpanded ∧ compact < bestCompact) then
        some (compact, expanded)
      else best

/-- The best compact form of `t`, if any candidate expands to at most `t`. -/
def targetToCompactBest (t : BitVec 256) (first : Nat) : Option (UInt32 × BitVec 256) :=
  (List.range' first (32 - first)).foldl (targetToCompactStep t) none

def firstNonzeroByte (t : BitVec 256) : Option Nat :=
  (List.range 32).find? fun i => byteAt t i ≠ 0

/-- Compact form of a target.  The fallback of the source is the compact form of the hardest target. -/
def targetToCompact (t : BitVec 256) : UInt32 :=
  match firstNonzeroByte t with
  | none => 0
  | some first =>
    match targetToCompactBest t first with
    | some (compact, _) => compact
    | none => ((targetToCompactBest minTargetBytes 26).map Prod.fst).getD 0

/-- One candidate of the rescue encoding: the sign bit is cleared instead of skipped. -/
def targetToRescueCompactStep (t : BitVec 256) (best : Option (UInt32 × BitVec 256)) (start : Nat) :
    Option (UInt32 × BitVec 256) :=
  let mantissa := mantissaAt t start % 2 ^ 23
  if mantissa = 0 then best
  else
    let compact := UInt32.ofNat ((32 - start) * 2 ^ 24 + mantissa)
    match compactToTarget compact, best with
    | .error _, _ => best
    | .ok expanded, none => if expanded > t then best else some (compact, expanded)
    | .ok expanded, some (_, current) =>
      if expanded > t then best
      else if expanded > current then some (compact, expanded)
      else best

/-- Compact form used from the rescue height on. -/
def targetToRescueCompact (t : BitVec 256) : UInt32 :=
  match firstNonzeroByte t with
  | none => 0
  | some first =>
    match (List.range (first + 1)).foldl (targetToRescueCompactStep t) none with
    | some (compact, _) => compact
    | none => targetToCompact minTargetBytes

/-! ## ASERT -/

/-- Network-specific parameters of the difficulty adjustment. -/
structure PowParams where
  targetSpacing : Nat
  halfLife : Nat
  genesisTargetCompact : UInt32
  maxCompactTarget : UInt32
  deriving DecidableEq

def PowParams.genesisTarget (p : PowParams) : Except DomError (BitVec 256) :=
  compactToTarget p.genesisTargetCompact

def PowParams.maxTarget (p : PowParams) : Except DomError (BitVec 256) :=
  compactToTarget p.maxCompactTarget

variable (networkMagic : UInt32) (blockHeight : Nat)

/-- The parameters of a recognised network. -/
def powParamsForNetwork : Except DomError PowParams :=
  if networkMagic = networkMagicTestnet then
    .ok ⟨targetSpacing, asertHalfLife, testnetTargetCompact, maxCompactTarget⟩
  else if networkMagic = networkMagicRegtest then
    .ok ⟨targetSpacing, asertHalfLife, regtestTargetCompact, regtestTargetCompact⟩
  else if networkMagic = networkMagicMainnet then
    .ok ⟨targetSpacing, asertHalfLife, genesisTargetCompact, genesisTargetCompact⟩
  else
    let other := networkMagic.toBitVec.toHex
    .error (.invalid s!"unknown network magic 0x{other} for PoW parameters")

/-- Whether the mainnet rescue governs a height. -/
def isMainnetRescue : Prop :=
  networkMagic = networkMagicMainnet ∧ blockHeight ≥ mainnetAsertRescueHeight

instance (networkMagic : UInt32) (blockHeight : Nat) : Decidable (isMainnetRescue networkMagic blockHeight) :=
  inferInstanceAs (Decidable (_ ∧ _))

/-- The parameters that govern a child height. -/
def powParamsForNetworkAtHeight : Except DomError PowParams := do
  let params ← powParamsForNetwork networkMagic
  if isMainnetRescue networkMagic blockHeight then
    return { params with
      halfLife := mainnetAsertRescueHalfLife
      maxCompactTarget := mainnetAsertRescueMaxCompactTarget }
  else return params

structure AsertAnchor where
  timestamp : Nat
  height : Nat
  target : BitVec 256
  deriving DecidableEq

def genesisTimestampForNetworkMagic : Except DomError Nat :=
  if networkMagic = networkMagicMainnet then .ok genesisTimestampMainnet
  else if networkMagic = networkMagicTestnet then .ok genesisTimestampTestnet
  else if networkMagic = networkMagicRegtest then .ok genesisTimestampRegtest
  else
    let other := networkMagic.toBitVec.toHex
    .error (.invalid s!"unknown network magic 0x{other} for genesis timestamp")

def genesisAnchor : Except DomError AsertAnchor := do
  let params ← powParamsForNetwork networkMagic
  let timestamp ← genesisTimestampForNetworkMagic networkMagic
  return ⟨timestamp, 0, ← params.genesisTarget⟩

def asertAnchorForNetworkHeight : Except DomError AsertAnchor :=
  if isMainnetRescue networkMagic blockHeight then do
    return ⟨mainnetAsertRescueAnchorTimestamp, mainnetAsertRescueAnchorHeight,
      ← compactToTarget genesisTargetCompact⟩
  else genesisAnchor networkMagic

def checkedI128 (x : Int) : Option Int :=
  if -(2 ^ 127) ≤ x ∧ x < 2 ^ 127 then some x else none

/-- Division rounding toward negative infinity, from truncated division. -/
def floorDivI128 (a b : Int) : Except DomError Int := do
  rejectIf (b = 0) (.invalid "floor_div by zero")
  let d ← okOr (checkedI128 (a.tdiv b)) (.invalid "floor_div overflow")
  if a.tmod b ≠ 0 ∧ (decide (a < 0) ≠ decide (b < 0)) then
    okOr (checkedI128 (d - 1)) (.invalid "floor_div adj overflow")
  else return d

/-- Seconds ahead of or behind the ideal schedule. -/
def asertExponentSeconds (anchor : AsertAnchor) (blockTimestamp blockHeight spacing : Nat) : Except DomError Int := do
  rejectIf (blockHeight < anchor.height) (.invalid "height before anchor")
  let idealTime ← okOr (checkedI128 (((blockHeight - anchor.height : Nat) : Int) * spacing))
    (.invalid "ideal_time overflow")
  okOr (checkedI128 ((blockTimestamp : Int) - anchor.timestamp - idealTime))
    (.invalid "exponent overflow")

def u128Bound : Nat := 2 ^ 128

/-- `floor (value * multiplier / 65536)` on a 256-bit value given as two 128-bit halves. -/
def mul256DivRadixChecked (hi lo multiplier : Nat) : Nat × Nat :=
  let loProd := lo * multiplier
  let hiProd := hi * multiplier
  let newLo256 := loProd / 2 ^ 16 + hiProd % 2 ^ 16 * 2 ^ 112
  let newHi256 := hiProd / 2 ^ 16 + newLo256 / u128Bound
  (newHi256 % u128Bound, newLo256 % u128Bound)

/-- Left shift that saturates instead of dropping high bits. -/
def shiftLeft256 (value shift : Nat) : Nat :=
  if shift = 0 then value
  else if shift ≥ 256 then 2 ^ 256 - 1
  else if value > (2 ^ 256 - 1) / 2 ^ shift then 2 ^ 256 - 1
  else value * 2 ^ shift

def shiftRight256 (value shift : Nat) : Nat :=
  if shift = 0 then value else if shift ≥ 256 then 0 else value / 2 ^ shift

/-- Scale the anchor target and clamp the result. -/
def applyExponent (anchorTarget : BitVec 256) (integerPart : Int) (fracMultiplier : Nat)
    (maxTarget : BitVec 256) : BitVec 256 :=
  let (newHi, newLo) := mul256DivRadixChecked (anchorTarget.toNat / u128Bound)
    (anchorTarget.toNat % u128Bound) fracMultiplier
  let value := newHi * u128Bound + newLo
  let shifted :=
    if integerPart ≥ 0 then shiftLeft256 value (min integerPart 255).toNat
    else shiftRight256 value (min (-integerPart) 255).toNat
  let result := BitVec.ofNat 256 shifted
  if result > maxTarget then maxTarget
  else if result = 0 ∨ result < minTargetBytes then minTargetBytes
  else result

/-- The target of a block by the ASERT schedule. -/
def asertNextTargetWithParams (anchor : AsertAnchor) (blockTimestamp blockHeight : Nat)
    (params : PowParams) : Except DomError (BitVec 256) := do
  let exponentSeconds ← asertExponentSeconds anchor blockTimestamp blockHeight params.targetSpacing
  let num ← okOr (checkedI128 (exponentSeconds * 256)) (.invalid "exponent_fp overflow")
  let exponentFp ← floorDivI128 num params.halfLife
  let integerPart ← floorDivI128 exponentFp 256
  let scaled ← okOr (checkedI128 (integerPart * 256)) (.invalid "frac overflow")
  let frac ← okOr (checkedI128 (exponentFp - scaled)) (.invalid "frac underflow")
  let fracIndex := min frac.toNat 255
  let fracMultiplier := asertFracTable.getD fracIndex 0
  return applyExponent anchor.target integerPart fracMultiplier (← params.maxTarget)

def usesDevFixedTarget : Bool := networkMagic = networkMagicRegtest

/-- The target consensus requires of a block, rounded through the compact form. -/
def computeExpectedTarget (blockTimestamp blockHeight : Nat) : Except DomError (BitVec 256) := do
  let params ← powParamsForNetworkAtHeight networkMagic blockHeight
  if usesDevFixedTarget networkMagic then params.maxTarget
  else
    let anchor ← asertAnchorForNetworkHeight networkMagic blockHeight
    let rawTarget ←
      (if blockHeight = 0 then params.genesisTarget
       else asertNextTargetWithParams anchor blockTimestamp blockHeight params)
    if isMainnetRescue networkMagic blockHeight then compactToTarget (targetToRescueCompact rawTarget)
    else compactToTarget (targetToCompact rawTarget)

/-- The quotient of two targets as a 128-bit amount of work: its high half where that is nonzero, and never
    zero. -/
def workOf (numerator target : BitVec 256) : Nat :=
  if target = 0 then u128Bound - 1
  else
    let quotient := numerator.toNat / target.toNat
    if quotient / u128Bound = 0 then max (quotient % u128Bound) 1
    else quotient / u128Bound % u128Bound

/-- Work of a block under the original numerator. -/
def targetToDifficulty (target : BitVec 256) : Nat := workOf maxTargetBytes target

def targetToDifficultyForNetworkHeight (target : BitVec 256) : Except DomError Nat := do
  let numerator ←
    (if isMainnetRescue networkMagic blockHeight then compactToTarget mainnetAsertRescueMaxCompactTarget
     else .ok maxTargetBytes)
  return workOf numerator target

theorem workOf_pos (numerator target : BitVec 256) : 0 < workOf numerator target := by
  unfold workOf
  by_cases ht : target = 0
  · rw [if_pos ht]
    decide
  · rw [if_neg ht]
    by_cases hq : numerator.toNat / target.toNat / u128Bound = 0
    · simp only [if_pos hq]
      omega
    · -- the quotient is below `2^256`, so its high half is nonzero and survives the reduction
      have hlt : numerator.toNat / target.toNat / u128Bound < u128Bound := by
        have hn : numerator.toNat / target.toNat < u128Bound * u128Bound :=
          lt_of_le_of_lt (Nat.div_le_self _ _) numerator.isLt
        exact Nat.div_lt_of_lt_mul hn
      simp only [if_neg hq]
      rw [Nat.mod_eq_of_lt hlt]
      exact Nat.pos_of_ne_zero hq

theorem targetToDifficultyForNetworkHeight_pos {networkMagic : UInt32} {blockHeight d : Nat} {target : BitVec 256}
    (h : targetToDifficultyForNetworkHeight networkMagic blockHeight target = .ok d) : 0 < d := by
  simp only [targetToDifficultyForNetworkHeight, inversion] at h
  obtain ⟨numerator, -, rfl⟩ := h
  exact workOf_pos numerator target

/-! ## Proof-of-work validation -/

/-- How proof of work is checked on a network. -/
inductive PowValidationMode where
  | RandomX
  | FastDevOnly
  deriving DecidableEq

variable (X : Externals)

def powValidationModeForNetwork (networkMagic : UInt32) : Except DomError PowValidationMode :=
  if networkMagic ≠ networkMagicMainnet ∧ networkMagic ≠ networkMagicTestnet
      ∧ networkMagic ≠ networkMagicRegtest then
    let magicHex := networkMagic.toBitVec.toHex
    .error (.invalid s!"unknown network magic 0x{magicHex} for PoW validation")
  else if networkMagic = networkMagicRegtest then .ok .FastDevOnly
  else if X.fastMiningRequested then
    .error (.invalid "DOM_REGTEST_FAST_MINING=1 is only allowed on regtest/devtest/test mode")
  else .ok .RandomX

/-- The development hash: the high half is zeroed, so it always meets the regtest target. -/
def fastPowHash (seed : Hash256) (preimage : List UInt8) : Hash256 :=
  let out := X.blake2b256 (strBytes "DOM_FAST_POW_V1" ++ hashBytes seed ++ preimage)
  BitVec.ofNat 256 (out.toNat % u128Bound)

def hashMeetsTarget (hash target : BitVec 256) : Bool := ¬ (hash > target)

/-- The height whose block hash seeds RandomX for a block. -/
def randomxSeedHeight (height : Nat) : Nat :=
  if height / randomxSeedInterval = 0 then 0
  else height / randomxSeedInterval * randomxSeedInterval - randomxSeedOffset

/-- Check a claimed proof-of-work hash in the mode of the network. -/
def validatePowHash (networkMagic : UInt32) (powPreimage : List UInt8) (powHash seed : Hash256)
    (target : BitVec 256) : Except DomError Bool := do
  match ← powValidationModeForNetwork X networkMagic with
  | .RandomX =>
    let computed ← X.randomxHash seed powPreimage
    if computed ≠ powHash then return false
    else return hashMeetsTarget powHash target
  | .FastDevOnly =>
    if fastPowHash X seed powPreimage ≠ powHash then return false
    else return hashMeetsTarget powHash target

end DomProtocol
