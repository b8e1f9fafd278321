import Mathlib.Algebra.Module.Basic
import Mathlib.Tactic.Abel
import DomProtocol.Consensus.Transaction

/-!
# `Crypto.Balance` — what the balance equation says about openings

A commitment is opened by a value and a blinding factor.  The balance equation is an equation of points; over openings it is
an equation of values times `H` and blindings times `G`.
-/

namespace DomProtocol

open Lib

variable {X : Externals}

/-- The commitment is `value * H + blinding * G`. -/
def Opens (X : Externals) (c : Commitment) (value blinding : ℤ) : Prop :=
  toProjective X c = .ok (value • X.hPoint + blinding • X.generator)

/-! ## Sums of commitments -/

variable {cs : List Commitment} {total : X.Point}

theorem foldlM_toProjective {start : X.Point} :
    cs.foldlM (fun acc c => do return acc + (← toProjective X c)) start = .ok total ↔
      ∃ ps : List X.Point, List.Forall₂ (fun c p => toProjective X c = .ok p) cs ps ∧ total = start + ps.sum := by
  induction cs generalizing start with
  | nil =>
    rw [List.foldlM_nil, pure_eq_ok]
    constructor
    · rintro rfl
      exact ⟨[], .nil, by simp⟩
    · rintro ⟨ps, hall, rfl⟩
      cases hall
      simp
  | cons c cs ih =>
    simp only [List.foldlM_cons, inversion]
    constructor
    · rintro ⟨_, ⟨p, hp, rfl⟩, hrest⟩
      obtain ⟨ps, hall, rfl⟩ := ih.mp hrest
      exact ⟨p :: ps, .cons hp hall, by rw [List.sum_cons, add_assoc]⟩
    · rintro ⟨_, hall, rfl⟩
      cases hall with
      | @cons _ p _ ps hp hrest =>
        exact ⟨start + p, ⟨p, hp, rfl⟩, ih.mpr ⟨ps, hrest, by rw [List.sum_cons, add_assoc]⟩⟩

theorem sumProjective_concat {c : Commitment} (h : sumProjective X (cs ++ [c]) = .ok total) :
    ∃ rest p, sumProjective X cs = .ok rest ∧ toProjective X c = .ok p ∧ total = rest + p := by
  unfold sumProjective at h
  rw [List.foldlM_append] at h
  simp only [inversion, List.foldlM_cons, List.foldlM_nil] at h
  obtain ⟨rest, hrest, _, ⟨p, hp, rfl⟩, rfl⟩ := h
  exact ⟨rest, p, hrest, hp, rfl⟩

theorem sumProjective_opens {α : Type} (l : List α) (commitment : α → Commitment) (value blinding : α → ℤ)
    (h : ∀ a ∈ l, Opens X (commitment a) (value a) (blinding a)) : sumProjective X (l.map commitment) =
      .ok ((l.map value).sum • X.hPoint + (l.map blinding).sum • X.generator) := by
  rw [sumProjective, foldlM_toProjective]
  simp only [zero_add]
  induction l with
  | nil => exact ⟨[], .nil, by simp⟩
  | cons a l ih =>
    obtain ⟨hfst, hrest⟩ := List.forall_mem_cons.mp h
    obtain ⟨ps, hall, hsum⟩ := ih hrest
    refine ⟨_ :: ps, .cons hfst hall, ?_⟩
    rw [List.sum_cons, ← hsum, List.map_cons, List.map_cons, List.sum_cons, List.sum_cons, add_smul, add_smul]
    abel

theorem offsetPoint_eq_ok {offset : BitVec 256} {message : String} {p : X.Point} (h : offsetPoint X offset message = .ok p) :
    p = offset.toNat • X.generator := by
  unfold offsetPoint at h
  by_cases hzero : offset ≠ 0
  · rw [if_pos hzero] at h
    simp only [inversion, scalarFromBytes_eq_some] at h
    obtain ⟨_, ⟨-, rfl⟩, rfl⟩ := h
    rfl
  · rw [if_neg hzero] at h
    cases h
    have hoff : offset = 0 := not_not.mp hzero
    rw [hoff]
    simp

/-! ## The equation of a transaction -/

theorem parseCommitment_eq {c c' : Commitment} (h : parseCommitment X c = .ok c') : c' = c := by
  simp only [parseCommitment, commitmentFromCompressedBytes, inversion] at h
  exact h.2.2.symm

theorem mapM_parseCommitment {cs' : List Commitment} (h : cs.mapM (parseCommitment X) = .ok cs') : cs' = cs := by
  have hall := mapM_eq_ok.mp h
  clear h
  induction hall with
  | nil => rfl
  | cons hfst _ ih => rw [ih, parseCommitment_eq hfst]

/-- **The balance equation over points.** -/
theorem validateBalanceEquation_eq_ok {tx : Transaction} (h : validateBalanceEquation X tx = .ok ()) :
    ∃ fee outputs inputs excesses, tx.totalFee = .ok fee ∧
      sumProjective X (tx.outputs.map (·.commitment)) = .ok outputs ∧ sumProjective X tx.inputs = .ok inputs ∧
      sumProjective X (tx.kernels.map (·.excess)) = .ok excesses ∧
      outputs - inputs + fee • X.hPoint = excesses + tx.offset.toNat • X.generator := by
  simp only [validateBalanceEquation, verifyBalanceEquation, inversion] at h
  obtain ⟨cs₁, h₁, cs₂, h₂, cs₃, h₃, fee, hfee, valid, ⟨outputs, houts, inputs, hins, excesses, hexcs, offset, hoff,
    hval⟩, htrue⟩ := h
  obtain rfl := mapM_parseCommitment h₁
  obtain rfl := mapM_parseCommitment h₂
  obtain rfl := mapM_parseCommitment h₃
  refine ⟨fee, outputs, inputs, excesses, hfee, houts, hins, hexcs, ?_⟩
  rw [← hval, decide_eq_false_iff_not, not_not] at htrue
  rw [offsetPoint_eq_ok hoff] at htrue
  rw [← htrue]
  by_cases hpos : fee > 0
  · rw [if_pos hpos]
  · have hzero : fee = 0 := by omega
    rw [if_neg hpos, hzero, zero_smul]

end DomProtocol
