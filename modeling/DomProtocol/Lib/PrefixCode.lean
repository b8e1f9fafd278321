import Mathlib.Data.List.Forall2

/-!
# `Lib.PrefixCode` — encodings that can be told apart in front of other data

An encoding relates values to words.  It is a prefix code when the word in front of an input determines the value and
where the word ends.  Prefix codes compose: fields in a row, and items behind their count.
-/

namespace Lib

variable {α β γ : Type}

/-- Two encodings in front of two equal inputs are encodings of one value, with equal rests. -/
def PrefixCode (W : α → List β → Prop) : Prop :=
  ∀ ⦃a a' : α⦄ ⦃bs bs' rest rest' : List β⦄, W a bs → W a' bs' → bs ++ rest = bs' ++ rest' → a = a' ∧ rest = rest'

namespace PrefixCode

variable {W : α → List β → Prop}

/-- One word has at most one value. -/
theorem unique (hW : PrefixCode W) {a a' : α} {bs : List β} (h : W a bs) (h' : W a' bs) : a = a' :=
  (hW h h' (rfl : bs ++ [] = bs ++ [])).1

/-- Words of one length form a prefix code as soon as each has one value. -/
theorem of_length {n : Nat} (hlen : ∀ a bs, W a bs → bs.length = n)
    (huni : ∀ a a' bs, W a bs → W a' bs → a = a') : PrefixCode W := by
  intro a a' bs bs' rest rest' h h' heq
  obtain ⟨rfl, hrest⟩ := List.append_inj heq ((hlen a bs h).trans (hlen a' bs' h').symm)
  exact ⟨huni a a' bs h h', hrest⟩

/-- Equally many words in a row determine the values one by one. -/
theorem items (hW : PrefixCode W) {l l' : List α} {encs encs' : List (List β)} (hlen : l.length = l'.length)
    (h : List.Forall₂ W l encs) (h' : List.Forall₂ W l' encs') {rest rest' : List β}
    (heq : encs.flatten ++ rest = encs'.flatten ++ rest') : l = l' ∧ rest = rest' := by
  induction h generalizing l' encs' with
  | nil =>
    obtain rfl := List.length_eq_zero_iff.mp hlen.symm
    cases h'
    exact ⟨rfl, heq⟩
  | cons hone _ ih =>
    cases h' with
    | nil => cases hlen
    | cons hone' hrest' =>
      rw [List.flatten_cons, List.flatten_cons, List.append_assoc, List.append_assoc] at heq
      obtain ⟨rfl, htail⟩ := hW hone hone' heq
      obtain ⟨rfl, hrest⟩ := ih (Nat.succ.inj hlen) hrest' htail
      exact ⟨rfl, hrest⟩

/-- Words behind their count. -/
theorem counted {C : Nat → List β → Prop} (hC : PrefixCode C) (hW : PrefixCode W) :
    PrefixCode fun (l : List α) bs =>
      ∃ count encs, C l.length count ∧ List.Forall₂ W l encs ∧ bs = count ++ encs.flatten := by
  rintro l l' bs bs' rest rest' ⟨count, encs, hcnt, hencs, rfl⟩ ⟨count', encs', hcnt', hencs', rfl⟩ heq
  rw [List.append_assoc, List.append_assoc] at heq
  obtain ⟨hlen, htail⟩ := hC hcnt hcnt' heq
  exact hW.items hlen hencs hencs' htail

end PrefixCode

end Lib
