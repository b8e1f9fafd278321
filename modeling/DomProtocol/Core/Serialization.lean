import DomProtocol.Core.Types
import DomProtocol.Lib.Bytes

/-!
# `Core.Serialization` — the canonical byte writer and reader

The writer appends little-endian integers and raw bytes; the reader walks a byte slice with a bounds-checked
cursor.  `ReadsAs p bs a` says that `p` consumes exactly the encoding `bs` and returns `a` wherever `bs`
stands in the input, and `ReadsAs.bind` composes such facts along a decoder.
-/

namespace DomProtocol

open Lib

/-! ## Writer -/

def writeU16 (v : Nat) : List UInt8 := leBytes 2 v
def writeU32 (v : UInt32) : List UInt8 := leBytes 4 v.toNat
def writeU64 (v : UInt64) : List UInt8 := leBytes 8 v.toNat

/-- The bytes of a fixed-length byte array. -/
def writeArray {n : Nat} (v : BitVec (8 * n)) : List UInt8 := beBytes n v.toNat

def writeVec (data : List UInt8) : Except DomError (List UInt8) :=
  if data.length < u32Bound then .ok (leBytes 4 data.length ++ data)
  else .error (.malformed "vec length exceeds u32")

/-- A length-prefixed list of items, each written by `w`. -/
def writeList {α : Type} (w : α → Except DomError (List UInt8)) (items : List α) :
    Except DomError (List UInt8) := do
  rejectIf (¬ items.length < u32Bound) (.malformed "list length exceeds u32")
  let encoded ← items.mapM w
  pure (leBytes 4 items.length ++ encoded.flatten)

theorem writeVec_eq_ok {data bs : List UInt8} :
    writeVec data = .ok bs ↔ data.length < u32Bound ∧ bs = leBytes 4 data.length ++ data := by
  unfold writeVec
  by_cases h : data.length < u32Bound
  · simp [h, eq_comm]
  · simp [h]

theorem writeList_eq_ok {α : Type} {w : α → Except DomError (List UInt8)} {items : List α} {bs : List UInt8} :
    writeList w items = .ok bs ↔ items.length < u32Bound ∧
      ∃ encs, List.Forall₂ (fun a enc => w a = .ok enc) items encs ∧ bs = leBytes 4 items.length ++ encs.flatten := by
  simp only [writeList, inversion, not_not, mapM_eq_ok]
  simp only [eq_comm]

/-! ## Reader -/

/-- A byte slice with the position of the next unread byte. -/
structure Reader where
  data : List UInt8
  pos : Nat

abbrev ReadM := StateT Reader (Except DomError)

namespace Reader

def remaining (r : Reader) : Nat := r.data.length - r.pos

def consume (n : Nat) : ReadM (List UInt8) := fun r =>
  match checkedAdd64 r.pos n with
  | none => .error (.malformed "position arithmetic overflow")
  | some stop =>
    if stop > r.data.length then
      .error (.malformed s!"unexpected EOF: need {n} bytes at pos {r.pos}, have {r.remaining}")
    else .ok ((r.data.drop r.pos).take n, { r with pos := stop })

def readU32 : ReadM UInt32 := do return UInt32.ofNat (ofLeBytes (← consume 4))
def readU64 : ReadM UInt64 := do return UInt64.ofNat (ofLeBytes (← consume 8))

def readArray (n : Nat) : ReadM (BitVec (8 * n)) := do
  return BitVec.ofNat (8 * n) (ofBeBytes (← consume n))

def readU8 : ReadM UInt8 := do return UInt8.ofNat (ofLeBytes (← consume 1))

/-- Read a length-prefixed byte vector of at most `maxLen` bytes. -/
def readVec (maxLen : Nat) : ReadM (List UInt8) := do
  let len := (← readU32).toNat
  if len > maxLen then throw (.malformed s!"vec length {len} exceeds limit {maxLen}")
  else consume len

/-- Whether a declared count of items can fit into the bytes that are left. -/
inductive ListBudget where
  | Valid (required : Nat)
  | ZeroItemSize
  | Overflow
  | Insufficient
  deriving DecidableEq

def classifyListBudget (count minimumItemSize remaining : Nat) : ListBudget :=
  if minimumItemSize = 0 then .ZeroItemSize
  else if count * minimumItemSize ≥ u64Bound then .Overflow
  else if count * minimumItemSize > remaining then .Insufficient
  else .Valid (count * minimumItemSize)

def readItems {α : Type} (item : ReadM α) : Nat → ReadM (List α)
  | 0 => return []
  | count + 1 => do
      let a ← item
      let rest ← readItems item count
      return a :: rest

/-- Refuse a count that cannot fit into the bytes that are left. -/
def checkListBudget (count minItemSize : Nat) : ReadM Unit := fun r =>
  match classifyListBudget count minItemSize r.remaining with
  | .Valid _ => .ok ((), r)
  | .ZeroItemSize => .error (.internal "minimum serialized item size must be non-zero")
  | .Overflow => .error (.malformed "list minimum serialized byte budget overflow")
  | .Insufficient =>
    .error (.malformed
      (s!"list count {count} requires at least {count * minItemSize} serialized bytes, "
        ++ s!"but only {r.remaining} bytes remain"))

/-- Read a length-prefixed list of at most `maxCount` items of at least `minItemSize` bytes each. -/
def readList {α : Type} (item : ReadM α) (minItemSize maxCount : Nat) : ReadM (List α) := do
  let count := (← readU32).toNat
  if count > maxCount then throw (.malformed s!"list count {count} exceeds limit {maxCount}")
  else do
    checkListBudget count minItemSize
    readItems item count

/-- A check or conversion of something already read. -/
def parse {α : Type} (x : Except DomError α) : ReadM α := fun r => x.map fun a => (a, r)

/-- Decode a full byte slice; trailing bytes are rejected. -/
def fromBytes {α : Type} (deserialize : ReadM α) (data : List UInt8) : Except DomError α := do
  let (val, r) ← deserialize ⟨data, 0⟩
  rejectIf (r.pos ≠ r.data.length)
    (.malformed s!"trailing bytes: {r.remaining} byte(s) unconsumed")
  return val

end Reader

/-! ## What a decoder reads back -/

/-- The decoder `p` turns the bytes `bs`, wherever they stand in an addressable input, into `a`. -/
def ReadsAs {α : Type} (p : ReadM α) (bs : List UInt8) (a : α) : Prop :=
  ∀ pre post : List UInt8, (pre ++ bs ++ post).length < u64Bound →
    p ⟨pre ++ bs ++ post, pre.length⟩ = .ok (a, ⟨pre ++ bs ++ post, (pre ++ bs).length⟩)

variable {maxLen maxCount : Nat}

namespace ReadsAs

variable {α β : Type} {p : ReadM α} {f : α → ReadM β} {a : α} {b : β} {bs cs : List UInt8}

variable {n : Nat}

theorem consume (bs : List UInt8) (hlen : bs.length = n) : ReadsAs (Reader.consume n) bs bs := by
  intro pre post hbd
  have hpos : checkedAdd64 pre.length n = some (pre ++ bs).length := by
    simp only [List.length_append] at hbd
    simp only [checkedAdd64_eq_some, List.length_append]
    omega
  have hle : ¬ (pre ++ bs).length > (pre ++ bs ++ post).length := by simp
  have hslice : ((pre ++ bs ++ post).drop pre.length).take n = bs := by
    rw [List.append_assoc, List.drop_left, ← hlen, List.take_left]
  simp only [Reader.consume, hpos, hle, if_false, hslice]

theorem pure (a : α) : ReadsAs (Pure.pure a) [] a := by
  intro pre post _
  show Except.ok (a, _) = _
  simp

theorem bind (hp : ReadsAs p bs a) (hf : ReadsAs (f a) cs b) : ReadsAs (p >>= f) (bs ++ cs) b := by
  intro pre post hbd
  have hp' := hp pre (cs ++ post) (by simpa [List.append_assoc] using hbd)
  have hf' := hf (pre ++ bs) post (by simpa [List.append_assoc] using hbd)
  simp only [List.append_assoc] at hp' hf' ⊢
  simp only [Bind.bind, StateT.bind, hp', Except.bind]
  exact hf'

/-- The last decoder that reads anything. -/
theorem last (hp : ReadsAs p bs a) (hf : ReadsAs (f a) [] b) : ReadsAs (p >>= f) bs b := by
  have h := hp.bind hf
  rwa [List.append_nil] at h

theorem map {g : α → β} (hp : ReadsAs p bs a) : ReadsAs (do return g (← p)) bs (g a) :=
  hp.last (f := fun x => Pure.pure (g x)) (ReadsAs.pure (g a))

theorem of_consume {g : List UInt8 → α} (hlen : bs.length = n) (hg : g bs = a) :
    ReadsAs (do return g (← Reader.consume n)) bs a := by
  subst hg
  exact (consume bs hlen).map

theorem readU32 (v : UInt32) : ReadsAs Reader.readU32 (writeU32 v) v := by
  refine of_consume (length_leBytes 4 v.toNat) ?_
  rw [writeU32, ofLeBytes_leBytes (by simpa using v.toNat_lt)]
  simp

theorem readU64 (v : UInt64) : ReadsAs Reader.readU64 (writeU64 v) v := by
  refine of_consume (length_leBytes 8 v.toNat) ?_
  rw [writeU64, ofLeBytes_leBytes (by simpa using v.toNat_lt)]
  simp

theorem readArray (v : BitVec (8 * n)) : ReadsAs (Reader.readArray n) (writeArray v) v := by
  refine of_consume (length_beBytes n v.toNat) ?_
  have hlt : v.toNat < 256 ^ n := by
    have := v.isLt
    rwa [Nat.pow_mul] at this
  rw [writeArray, ofBeBytes_beBytes hlt]
  simp

theorem readU8 (v : UInt8) : ReadsAs Reader.readU8 [v] v := of_consume rfl (by simp [ofLeBytes])

theorem parse_bind {x : Except DomError α} (hx : x = .ok a) (hf : ReadsAs (f a) bs b) :
    ReadsAs (Reader.parse x >>= f) bs b := by
  intro pre post hbd
  simp only [Bind.bind, StateT.bind, Reader.parse, hx, Except.map, Except.bind]
  exact hf pre post hbd

theorem parse {x : Except DomError α} (hx : x = .ok a) : ReadsAs (Reader.parse x) [] a := by
  intro pre post _
  simp [Reader.parse, hx, Except.map]

theorem readCount (hn : n < u32Bound) : ReadsAs Reader.readU32 (leBytes 4 n) (UInt32.ofNat n) := by
  have h := readU32 (UInt32.ofNat n)
  rwa [writeU32, UInt32.toNat_ofNat_of_lt' (by simpa [u32Bound] using hn)] at h

theorem readVec (hbs : bs.length ≤ maxLen) (hmax : maxLen < u32Bound) :
    ReadsAs (Reader.readVec maxLen) (leBytes 4 bs.length ++ bs) bs := by
  have hlen : bs.length < u32Bound := by omega
  have hcnt : (UInt32.ofNat bs.length).toNat = bs.length :=
    UInt32.toNat_ofNat_of_lt' (by simpa [u32Bound] using hlen)
  refine (readCount hlen).bind ?_
  rw [hcnt, if_neg (by omega)]
  exact consume bs rfl

variable {items : List α} {encs : List (List UInt8)}

theorem readItems (h : List.Forall₂ (fun a bs => ReadsAs p bs a) items encs) :
    ReadsAs (Reader.readItems p items.length) encs.flatten items := by
  induction h with
  | nil => exact ReadsAs.pure []
  | cons ha _ ih => exact ha.bind ih.map

variable {minSize : Nat}

theorem length_flatten_ge (h : List.Forall₂ (fun _ bs => minSize ≤ bs.length) items encs) :
    items.length * minSize ≤ encs.flatten.length := by
  induction h with
  | nil => simp
  | cons hb _ ih =>
    rw [List.length_cons, List.flatten_cons, List.length_append, Nat.succ_mul]
    omega

/-- **The budget of a list is met** wherever each of its items has the minimum size. -/
theorem classifyListBudget_valid {remaining : Nat} (hmin : 0 < minSize)
    (h : List.Forall₂ (fun _ bs => minSize ≤ bs.length) items encs) (hrem : encs.flatten.length ≤ remaining)
    (hbd : remaining < u64Bound) :
    Reader.classifyListBudget items.length minSize remaining = .Valid (items.length * minSize) := by
  have hlen := length_flatten_ge h
  unfold Reader.classifyListBudget
  rw [if_neg (by omega), if_neg (by omega), if_neg (by omega)]

/-- **Lists are read back**: their items are, each has the minimum size, and the count is within the limit. -/
theorem readList (hmin : 0 < minSize)
    (hread : List.Forall₂ (fun a bs => ReadsAs p bs a) items encs)
    (hsize : List.Forall₂ (fun _ bs => minSize ≤ bs.length) items encs) (hcnt : items.length ≤ maxCount)
    (hmax : maxCount < u32Bound) :
    ReadsAs (Reader.readList p minSize maxCount) (leBytes 4 items.length ++ encs.flatten) items := by
  have hlen : items.length < u32Bound := by omega
  have hnat : (UInt32.ofNat items.length).toNat = items.length :=
    UInt32.toNat_ofNat_of_lt' (by simpa [u32Bound] using hlen)
  refine (readCount hlen).bind ?_
  rw [hnat, if_neg (by omega)]
  intro pre post hbd
  have hbgt : Reader.checkListBudget items.length minSize ⟨pre ++ encs.flatten ++ post, pre.length⟩ =
      .ok ((), ⟨pre ++ encs.flatten ++ post, pre.length⟩) := by
    have hremaining : encs.flatten.length ≤ encs.flatten.length + post.length := Nat.le_add_right _ _
    have hval := classifyListBudget_valid hmin hsize hremaining
      (by simp only [List.length_append] at hbd; omega)
    have hrem : (⟨pre ++ encs.flatten ++ post, pre.length⟩ : Reader).remaining =
        encs.flatten.length + post.length := by
      simp only [Reader.remaining, List.length_append]
      omega
    simp only [Reader.checkListBudget, hrem, hval]
  simp only [Bind.bind, StateT.bind, hbgt, Except.bind]
  exact readItems hread pre post hbd

theorem fromBytes (hp : ReadsAs p bs a) (hbd : bs.length < u64Bound) :
    Reader.fromBytes p bs = .ok a := by
  have h := hp [] [] (by simpa using hbd)
  simp only [List.nil_append, List.append_nil, List.length_nil] at h
  simp [Reader.fromBytes, h, rejectIf]

end ReadsAs

/-! ## What a decoder accepts -/

theorem readM_bind_eq_ok {α β : Type} {p : ReadM α} {f : α → ReadM β} {r r'' : Reader} {b : β} :
    (p >>= f) r = .ok (b, r'') ↔ ∃ a r', p r = .ok (a, r') ∧ f a r' = .ok (b, r'') := by
  refine bind_eq_ok.trans ?_
  simp only [Prod.exists]

theorem readM_pure_eq_ok {α : Type} {a b : α} {r r' : Reader} :
    (pure a : ReadM α) r = .ok (b, r') ↔ a = b ∧ r = r' := by
  show Except.ok (a, r) = .ok (b, r') ↔ _
  simp

/-- The reader moved from `r` to `r'` over exactly the bytes `bs`. -/
structure Took (r : Reader) (bs : List UInt8) (r' : Reader) : Prop where
  data_eq : r'.data = r.data
  pos_eq : r'.pos = r.pos + bs.length
  bytes_eq : (r.data.drop r.pos).take bs.length = bs

namespace Took

variable {r r' r'' : Reader} {bs cs : List UInt8}

theorem trans (h : Took r bs r') (h' : Took r' cs r'') : Took r (bs ++ cs) r'' where
  data_eq := h'.data_eq.trans h.data_eq
  pos_eq := by rw [h'.pos_eq, h.pos_eq, List.length_append, Nat.add_assoc]
  bytes_eq := by
    have htail := h'.bytes_eq
    rw [h.data_eq, h.pos_eq, ← List.drop_drop] at htail
    rw [List.length_append, List.take_add, h.bytes_eq, htail]

variable {n : Nat}

theorem of_consume (h : Reader.consume n r = .ok (bs, r')) : bs.length = n ∧ Took r bs r' := by
  unfold Reader.consume at h
  cases hstop : checkedAdd64 r.pos n with
  | none => simp [hstop] at h
  | some stop =>
    obtain ⟨-, rfl⟩ := checkedAdd64_eq_some.mp hstop
    simp only [hstop] at h
    by_cases hshort : r.pos + n > r.data.length
    · simp [hshort] at h
    · rw [if_neg hshort] at h
      cases h
      have hlen : ((r.data.drop r.pos).take n).length = n := by
        rw [List.length_take, List.length_drop]
        omega
      exact ⟨hlen, rfl, by rw [hlen], by rw [hlen]⟩

variable {α : Type}

theorem of_consume_map {g : List UInt8 → α} {write : α → List UInt8} {a : α}
    (hwri : ∀ bs, bs.length = n → write (g bs) = bs)
    (h : (do return g (← Reader.consume n) : ReadM α) r = .ok (a, r')) : Took r (write a) r' := by
  obtain ⟨bs, r₁, hread, hret⟩ := readM_bind_eq_ok.mp h
  obtain ⟨rfl, rfl⟩ := readM_pure_eq_ok.mp hret
  obtain ⟨hlen, htook⟩ := of_consume hread
  rwa [hwri bs hlen]

theorem of_readU32 {v : UInt32} (h : Reader.readU32 r = .ok (v, r')) : Took r (writeU32 v) r' := by
  refine of_consume_map (n := 4) (fun bs hlen => ?_) h
  have hlt := ofLeBytes_lt bs
  rw [hlen] at hlt
  rw [writeU32, UInt32.toNat_ofNat_of_lt' (by simpa using hlt), ← hlen, leBytes_ofLeBytes]

theorem of_readU64 {v : UInt64} (h : Reader.readU64 r = .ok (v, r')) : Took r (writeU64 v) r' := by
  refine of_consume_map (n := 8) (fun bs hlen => ?_) h
  have hlt := ofLeBytes_lt bs
  rw [hlen] at hlt
  rw [writeU64, UInt64.toNat_ofNat_of_lt' (by simpa using hlt), ← hlen, leBytes_ofLeBytes]

theorem of_readArray {v : BitVec (8 * n)} (h : Reader.readArray n r = .ok (v, r')) :
    Took r (writeArray v) r' := by
  refine of_consume_map (n := n) (fun bs hlen => ?_) h
  have hlt := ofBeBytes_lt bs
  rw [hlen] at hlt
  have hfit : ofBeBytes bs < 2 ^ (8 * n) := by rwa [Nat.pow_mul]
  rw [writeArray, BitVec.toNat_ofNat, Nat.mod_eq_of_lt hfit, ← hlen, beBytes_ofBeBytes]

theorem nil (r : Reader) : Took r [] r := ⟨rfl, rfl, rfl⟩

theorem of_readU8 {v : UInt8} (h : Reader.readU8 r = .ok (v, r')) : Took r [v] r' := by
  have hone : ∀ bs : List UInt8, bs.length = 1 → [UInt8.ofNat (ofLeBytes bs)] = bs := by
    intro bs hlen
    obtain ⟨b, rfl⟩ := List.length_eq_one_iff.mp hlen
    simp [ofLeBytes]
  exact @of_consume_map r r' 1 _ _ (fun v => [v]) _ hone h

theorem of_parse {x : Except DomError α} {a : α} (h : Reader.parse x r = .ok (a, r')) :
    x = .ok a ∧ r' = r := by
  cases x with
  | error e => cases h
  | ok b =>
    cases h
    exact ⟨rfl, rfl⟩

theorem of_readVec (h : Reader.readVec maxLen r = .ok (bs, r')) :
    bs.length ≤ maxLen ∧ bs.length < u32Bound ∧ Took r (leBytes 4 bs.length ++ bs) r' := by
  obtain ⟨len, r₁, hlen, hrest⟩ := readM_bind_eq_ok.mp h
  have hpre := of_readU32 hlen
  split at hrest
  · cases hrest
  · obtain ⟨hbyt, htook⟩ := of_consume hrest
    refine ⟨by omega, ?_, ?_⟩
    · rw [hbyt]
      simpa [u32Bound] using len.toNat_lt
    · rw [hbyt]
      exact hpre.trans htook

theorem of_readItems {p : ReadM α} {W : α → List UInt8 → Prop}
    (hp : ∀ r a r', p r = .ok (a, r') → ∃ bs, W a bs ∧ Took r bs r') {count : Nat} {items : List α}
    (h : Reader.readItems p count r = .ok (items, r')) :
    items.length = count ∧ ∃ encs, List.Forall₂ W items encs ∧ Took r encs.flatten r' := by
  induction count generalizing r items with
  | zero =>
    obtain ⟨rfl, rfl⟩ := readM_pure_eq_ok.mp h
    exact ⟨rfl, [], .nil, nil r⟩
  | succ count ih =>
    obtain ⟨a, r₁, ha, h₁⟩ := readM_bind_eq_ok.mp h
    obtain ⟨rest, r₂, hrest, h₂⟩ := readM_bind_eq_ok.mp h₁
    obtain ⟨rfl, rfl⟩ := readM_pure_eq_ok.mp h₂
    obtain ⟨bs, hbs, htook⟩ := hp _ _ _ ha
    obtain ⟨hlen, encs, hencs, htook'⟩ := ih hrest
    exact ⟨by rw [List.length_cons, hlen], bs :: encs, .cons hbs hencs, htook.trans htook'⟩

/-- **What is read as a list is one**: the count, within the limit, and the items. -/
theorem of_readList {p : ReadM α} {W : α → List UInt8 → Prop}
    (hp : ∀ r a r', p r = .ok (a, r') → ∃ bs, W a bs ∧ Took r bs r') {minSize : Nat} {items : List α}
    (h : Reader.readList p minSize maxCount r = .ok (items, r')) : items.length ≤ maxCount ∧ items.length < u32Bound ∧
      ∃ encs, List.Forall₂ W items encs ∧ Took r (leBytes 4 items.length ++ encs.flatten) r' := by
  obtain ⟨count, r₁, hcnt, h₁⟩ := readM_bind_eq_ok.mp h
  have hpre := of_readU32 hcnt
  split at h₁
  · cases h₁
  · obtain ⟨_, r₂, hbgt, hitems⟩ := readM_bind_eq_ok.mp h₁
    obtain rfl : r₁ = r₂ := by
      unfold Reader.checkListBudget at hbgt
      split at hbgt
      · cases hbgt
        rfl
      all_goals cases hbgt
    obtain ⟨hlen, encs, hencs, htook⟩ := of_readItems hp hitems
    refine ⟨by omega, ?_, encs, hencs, ?_⟩
    · rw [hlen]
      simpa [u32Bound] using count.toNat_lt
    · rw [hlen]
      exact hpre.trans htook

theorem of_fromBytes {p : ReadM α} {W : α → List UInt8 → Prop} {data : List UInt8} {a : α}
    (hp : ∀ r a r', p r = .ok (a, r') → ∃ bs, W a bs ∧ Took r bs r') (h : Reader.fromBytes p data = .ok a) :
    W a data := by
  simp only [Reader.fromBytes, inversion, ne_eq, not_not] at h
  obtain ⟨⟨v, r'⟩, hread, hend, rfl⟩ := h
  obtain ⟨bs, hbs, htook⟩ := hp _ _ _ hread
  have hlen : bs.length = data.length := by
    have hpos := htook.pos_eq
    have hdata := htook.data_eq
    simp only [Nat.zero_add] at hpos hdata hend
    rw [← hpos, hend, hdata]
  have hbyt := htook.bytes_eq
  rw [List.drop_zero, hlen, List.take_length] at hbyt
  rwa [hbyt]

end Took

end DomProtocol
