import DomProtocol.Lib.Bytes
import DomProtocol.Lib.Outcome

/-!
# `Lib.Decode` — decoders over the unread bytes

A decoder takes the bytes that are left and returns a value with what is left then.  `Reads p bs a` says that `p`
turns the bytes `bs` into `a` whatever follows them, and `Reads.bind` composes such facts along a decoder.
-/

namespace Lib

variable {ε α β : Type}

abbrev Decoder (ε : Type) := StateT (List UInt8) (Except ε)

namespace Decoder

/-- The next `n` bytes, or `short` when fewer are left. -/
def take (n : Nat) (short : ε) : Decoder ε (List UInt8) := fun bytes =>
  if bytes.length < n then .error short else .ok (bytes.take n, bytes.drop n)

def byte (short : ε) : Decoder ε UInt8 := do return UInt8.ofNat (ofBeBytes (← take 1 short))

/-- The next `n` bytes as a big-endian number. -/
def nat (n : Nat) (short : ε) : Decoder ε Nat := do return ofBeBytes (← take n short)

def check (x : Except ε Unit) : Decoder ε Unit := fun bytes => x.map fun _ => ((), bytes)

def refuse (e : ε) : Decoder ε α := fun _ => .error e

end Decoder

/-- The decoder `p` turns the bytes `bs` into `a`, whatever follows them. -/
def Reads (p : Decoder ε α) (bs : List UInt8) (a : α) : Prop := ∀ rest, p (bs ++ rest) = .ok (a, rest)

namespace Reads

variable {p : Decoder ε α} {f : α → Decoder ε β} {a : α} {b : β} {bs cs : List UInt8} {short : ε}

theorem take (bs : List UInt8) {n : Nat} (h : bs.length = n) : Reads (Decoder.take n short) bs bs := by
  intro rest
  have hlen : ¬ (bs ++ rest).length < n := by
    rw [List.length_append]
    omega
  rw [Decoder.take, if_neg hlen, ← h, List.take_left, List.drop_left]

theorem pure (a : α) : Reads (Pure.pure a : Decoder ε α) [] a := fun _ => rfl

theorem bind (hp : Reads p bs a) (hf : Reads (f a) cs b) : Reads (p >>= f) (bs ++ cs) b := by
  intro rest
  have hfront : p (bs ++ cs ++ rest) = .ok (a, cs ++ rest) := by
    rw [List.append_assoc]
    exact hp (cs ++ rest)
  simp only [Bind.bind, StateT.bind, hfront, Except.bind]
  exact hf rest

/-- The last decoder that reads anything. -/
theorem last (hp : Reads p bs a) (hf : Reads (f a) [] b) : Reads (p >>= f) bs b := by
  have h := hp.bind hf
  rwa [List.append_nil] at h

theorem map {g : α → β} (hp : Reads p bs a) : Reads (do return g (← p) : Decoder ε β) bs (g a) :=
  hp.last (f := fun x => Pure.pure (g x)) (Reads.pure (g a))

theorem byte (v : UInt8) : Reads (Decoder.byte short) [v] v := by
  have h := (take [v] rfl : Reads (Decoder.take 1 short) [v] [v]).map (g := fun bs => UInt8.ofNat (ofBeBytes bs))
  have hv : UInt8.ofNat (ofBeBytes [v]) = v := by simp [ofBeBytes, ofLeBytes]
  rwa [hv] at h

theorem nat {n v : Nat} (h : v < 256 ^ n) : Reads (Decoder.nat n short) (beBytes n v) v := by
  have hread := (take (beBytes n v) (length_beBytes n v) : Reads (Decoder.take n short) _ _).map (g := ofBeBytes)
  rwa [ofBeBytes_beBytes h] at hread

/-- A check that passes reads nothing. -/
theorem check {x : Except ε Unit} {f : Unit → Decoder ε β} (hx : x = .ok ()) (hf : Reads (f ()) bs b) :
    Reads (Decoder.check x >>= f) bs b := by
  intro rest
  simp only [Bind.bind, StateT.bind, Decoder.check, hx, Except.map, Except.bind]
  exact hf rest

/-- A tag in front of what is read for it. -/
theorem tag {f : UInt8 → Decoder ε β} (v : UInt8) (hf : Reads (f v) bs b) :
    Reads (Decoder.byte short >>= f) (v :: bs) b := (byte v).bind hf

end Reads

end Lib
